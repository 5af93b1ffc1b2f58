import WatchedContainers.Text.Extending
import WatchedContainers.Text.Graphic

/-!
# Texts of values

`Describe` gives a value its one-line text inside larger texts: strings are quoted, options,
lists and sets are spelled out, and a record names its fields.  The small layouts used by
formatted columns (`padLeft`, `padRight`, `center`) stand at the end.
-/

namespace WatchedContainers

class Describe (α : Type) where
  describe : α → String

export Describe (describe)

namespace Text

/-! ### Quoted strings -/

def hex (n : Nat) : String := String.ofList (Nat.toDigits 16 n)

/-- Fills the place of a missing letter in a syllable and leaves no mark. -/
def isFiller (c : Char) : Bool := c = '\u115F' || c = '\u1160' || c = '\u3164' || c = '\uFFA0'

/-- Can be told by its looks wherever it stands. -/
def standsAlone (c : Char) : Bool :=
  if c.toNat < 128 then 32 ≤ c.toNat && c.toNat < 127
  else isGraphic c && !isExtending c && !isFiller c

/-- A character inside a quoted string.  Quotes and backslashes are escaped, and every character
that could not be seen between its neighbours is written as its number. -/
def escape (c : Char) : List Char :=
  if c = '"' then ['\\', '"']
  else if c = '\\' then ['\\', '\\']
  else if c = '\n' then ['\\', 'n']
  else if c = '\t' then ['\\', 't']
  else if c = '\r' then ['\\', 'r']
  else if c.toNat = 0 then ['\\', '0']
  else if standsAlone c then [c]
  else ['\\', 'u', '\x7b'] ++ (hex c.toNat).toList ++ ['\x7d']

def quoted (s : String) : String :=
  String.ofList ('"' :: s.toList.flatMap escape ++ ['"'])

/-! ### Composite values -/

def commas (items : List String) : String := ", ".intercalate items

def list (items : List String) : String := "[" ++ commas items ++ "]"

def set (items : List String) : String := "\x7b" ++ commas items ++ "\x7d"

def option : Option String → String
  | none => "None"
  | some s => "Some(" ++ s ++ ")"

def field (name value : String) : String := name ++ ": " ++ value

def record (name : String) (fields : List (String × String)) : String :=
  name ++ " \x7b " ++ commas (fields.map fun f => field f.1 f.2) ++ " \x7d"

/-- A record some of whose fields are left out. -/
def openRecord (name : String) (fields : List (String × String)) : String :=
  name ++ " \x7b " ++ commas (fields.map (fun f => field f.1 f.2) ++ [".."]) ++ " \x7d"

/-! ### Columns -/

def spaces (n : Nat) : String := String.ofList (List.replicate n ' ')

def padLeft (width : Nat) (s : String) : String := spaces (width - s.length) ++ s

def padRight (width : Nat) (s : String) : String := s ++ spaces (width - s.length)

/-- At least `width` characters, filled on both sides; an odd space goes to the right. -/
def center (width : Nat) (s : String) : String :=
  let fill := width - s.length
  spaces (fill / 2) ++ s ++ spaces (fill - fill / 2)

def clip (n : Nat) (s : String) : String := String.ofList (s.toList.take n)

end Text

instance : Describe Nat := ⟨toString⟩
instance : Describe Int := ⟨toString⟩
instance : Describe Bool := ⟨fun b => if b then "true" else "false"⟩
instance : Describe String := ⟨Text.quoted⟩
instance {α : Type} [Describe α] : Describe (Option α) := ⟨fun v => Text.option (v.map describe)⟩
instance {α : Type} [Describe α] : Describe (List α) := ⟨fun vs => Text.list (vs.map describe)⟩

end WatchedContainers
