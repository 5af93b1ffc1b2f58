import WatchedContainers.Rehearsal.Script

/-!
# Answers

What a rehearsal gives back: the log, to which the actors, the factories, noting containers and
the handlers themselves contribute, and for every step its reply, the part of the log that is new,
and what the container holds afterwards.  A script with a step that is not understood when its turn
comes has no answers at all (`understood?`); an actor that makes a call which is not understood only
notes this.
-/

namespace WatchedContainers.Rehearsal

/-- Replies that hold no elements. -/
inductive Plain where
  | nothing
  | flag (value : Bool)
  | number (value : Nat)
  | text (value : String)
  | names (values : List String)
  | summary (text : String) (config : Config)
  | failed (error : Error)
  /-- The step is not understood here, or names what does not exist. -/
  | badInput
  /-- The container has been given back. -/
  | dropped

/-- The texts of an event, as an actor notes them on demand. -/
structure Detail where
  text : String
  debugText : String
  isPre : Bool
  isView : Bool
  handler : String

inductive Entry (α : Type) where
  | heard (listener : String) (event : Event α) (detail : Option Detail)
  | acted (listener : String) (call : HandlerCall (Actor α) α) (reply : Plain)
  | asked (factory : String) (container : ContainerId) (typeName : String) (maxViewDepth : Nat)
      (answered : Bool)
  | called (call : Call)
  | traced (trace : Trace α)

structure HandlerInfo where
  bound : Bool
  container : Option ContainerId
  capabilities : Capabilities
  supported : Mask
  isRoot : Bool
  isView : Bool
  viewOffset : Nat
  depth : Nat
  config : Config
  root : Option ContainerId
  hooks : Bool
  text : String

inductive Contents (α : Type) where
  | elements (values : List α)
  | counts (entries : List (α × Nat))

/-- What is shown of a container after a step. -/
inductive Shown (α : Type) where
  | nothing
  | state (contents : Contents α)
  | values (values : List α)

/-- The new part of the log, or how often each listener was called in each phase. -/
inductive News (α : Type) where
  | log (entries : List (Entry α))
  | tally (counts : List (String × Nat))

structure Answer (r α : Type) where
  reply : r
  news : News α
  shown : Shown α

inductive Reply (α : Type) where
  | plain (r : Plain)
  | element (value : Option α)
  | elements (values : List α)
  | contents (contents : Contents α)
  | info (i : HandlerInfo)
  | chained (made : Nat) (stopped : Option Error) (depth viewOffset : Nat)
  | walked (kept removed : List α)
  | answers (as : List (Answer (Reply α) α))
  | view (id : ContainerId) (offset : Option Nat) (depth : Nat) (as : List (Answer (Reply α) α))

namespace Plain

def ofUnit : Except Error Unit → Plain
  | .ok () => nothing
  | .error e => failed e

def ofFlag : Except Error Bool → Plain
  | .ok b => flag b
  | .error e => failed e

def ofNumber? : Option Nat → Plain
  | some n => number n
  | none => nothing

end Plain

namespace Reply

variable {α : Type}

def nothing : Reply α := plain .nothing
def flag (b : Bool) : Reply α := plain (.flag b)
def number (n : Nat) : Reply α := plain (.number n)
def failed (e : Error) : Reply α := plain (.failed e)
def badInput : Reply α := plain .badInput

def ofFlag (r : Except Error Bool) : Reply α := plain (.ofFlag r)

def ofElement : Except Error (Option α) → Reply α
  | .ok v => element v
  | .error e => failed e

end Reply

/-! ### Understanding -/

section

variable {α : Type}

mutual

/-- Whether a step, or one nested in it, was not understood. -/
def Reply.isBadInput : Reply α → Bool
  | .plain .badInput => true
  | .answers as => anyBadInput as
  | .view _ _ _ as => anyBadInput as
  | _ => false

def Answer.isBadInput : Answer (Reply α) α → Bool
  | ⟨reply, _, _⟩ => reply.isBadInput

def anyBadInput : List (Answer (Reply α) α) → Bool
  | [] => false
  | a :: rest => a.isBadInput || anyBadInput rest

end

/-- The answers to a script, if every step was understood. -/
def understood? (as : List (Answer (Reply α) α)) : Option (List (Answer (Reply α) α)) :=
  if anyBadInput as then none else some as

end

end WatchedContainers.Rehearsal
