import WatchedContainers.Event.Basic

/-!
# Texts of an event

The one-line text is a row of words with one space between two of them: the kind, the phase and
the container come first, then what applies of the position, the number of copies, the length of
the batch and the view, then the sizes.  The record text lists every field.
-/

namespace WatchedContainers.Event

variable {α : Type}

def indexWords (e : Event α) : List String :=
  match e.index? with
  | some i => ["at", toString i]
  | none => []

/-- One copy goes without saying. -/
def repetitionWords (e : Event α) : List String :=
  if e.repetitions = 1 then [] else ["x" ++ toString e.repetitions]

def batchWords (e : Event α) : List String :=
  match e.batch? with
  | some vs => ["batch=" ++ toString vs.length]
  | none => []

def viewWords (e : Event α) : List String :=
  match e.view with
  | some v => ["via", "view", v.id.text ++ "+" ++ toString v.offset]
  | none => []

def sizeWords (e : Event α) : List String :=
  match e.aftermath with
  | some a =>
    ["size=" ++ toString e.preSize ++ "->" ++ toString a.postSize,
      "modified=" ++ describe a.modified]
  | none => ["size=" ++ toString e.preSize]

def words (e : Event α) : List String :=
  [e.kind.name, e.phase.word, "on", e.observed.text] ++ e.indexWords ++ e.repetitionWords
    ++ e.batchWords ++ e.viewWords ++ e.sizeWords

def text (e : Event α) : String := " ".intercalate e.words

def debugText [Describe α] (e : Event α) : String :=
  Text.record "ModificationEvent"
    [("observed", e.observed.debugText), ("phase", e.phase.name), ("kind", e.kind.name),
      ("index", describe e.index?), ("subject", describe e.subject?),
      ("subject_batch", describe e.batch?), ("repeat", describe e.repetitions),
      ("previous", describe e.previous?),
      ("view", Text.option (e.view.map fun v => v.id.debugText)),
      ("view_offset", describe (e.view.map fun v => v.offset)),
      ("pre_size", describe e.preSize), ("post_size", describe e.postSize?),
      ("modified", describe e.modified?)]

end WatchedContainers.Event
