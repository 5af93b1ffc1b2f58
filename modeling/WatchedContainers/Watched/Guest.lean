import WatchedContainers.Handler.Consultation
import WatchedContainers.Watched.Beats

/-!
# Guests

A guest is a listener that does nothing but listen: it accepts whatever it is asked about, and it
makes no requests.  So nobody else should notice it, and it should hear what its mask selects.
-/

namespace WatchedContainers

variable {ρ σ ν C κ α : Type} [DecidableEq ρ]

/-! ### Guests of a panel -/

/-- The panel with a guest.  Everybody else does what it does in the panel without it and takes no
notice of what the guest heard; it may register and remove the guest besides. -/
structure Panel.Hosts (panel bare : Panel ρ α) (guest : ρ) : Prop where
  accepts : ∀ log e, panel.asked log guest e = .done true
  idle : ∀ log e, panel.told log guest e = .done ()
  asked : ∀ log l e, l ≠ guest →
    (panel.asked log l e).Exceeds (some guest) (bare.asked (Minute.without guest log) l e)
  told : ∀ log l e, l ≠ guest →
    (panel.told log l e).Exceeds (some guest) (bare.told (Minute.without guest log) l e)

def Minute.received (l : ρ) (log : List (Minute ρ α)) : List (Event α) :=
  log.filterMap fun
    | asked l' e | told l' e => if l' = l then some e else none
    | _ => none

/-- Every listener decides only from the events that it has received. -/
structure Panel.Attentive (panel : Panel ρ α) : Prop where
  asked : ∀ log log' l e, Minute.received l log = Minute.received l log' →
    panel.asked log l e = panel.asked log' l e
  told : ∀ log log' l e, Minute.received l log = Minute.received l log' →
    panel.told log l e = panel.told log' l e

/-- Every request that is made is allowed. -/
inductive Conduct.Only {β : Type} (allowed : Request ρ α → Prop) : Conduct ρ α β → Prop
  | done (b : β) : Only allowed (.done b)
  | call (x : Request ρ α) (next : Except Error (Grant ρ) → Conduct ρ α β) (hx : allowed x)
      (hnext : ∀ r, Only allowed (next r)) : Only allowed (.call x next)

/-- Nobody who is called raises events, and nobody registers or removes `guest`.  An event raised
from inside a call for another one would be heard before that one by everybody who is called
later. -/
structure Panel.Quiet (panel : Panel ρ α) (guest : ρ) : Prop where
  asked : ∀ log l e,
    (panel.asked log l e).Only fun x => x.raises = false ∧ x.listener? ≠ some guest
  told : ∀ log l e,
    (panel.told log l e).Only fun x => x.raises = false ∧ x.listener? ≠ some guest

/-! ### What a guest hears -/

def Happening.listener? : Happening ρ α → Option ρ
  | action _ => none
  | request x => x.listener?

omit [DecidableEq ρ] in
/-- The hooks never call `l`. -/
def Hooks.Omits (l : ρ) : Hooks ρ → Prop
  | acceptAll => True
  | policy party => party ≠ l
  | managed s => ∀ p, ∀ r ∈ s.registered p, r.listener ≠ l

omit [DecidableEq ρ] in
/-- No hooks call `l`. -/
def World.Lacks (l : ρ) (w : World ρ σ) : Prop := ∀ ref, (w.hooksAt ref).Omits l

/-- The listener `l` is registered once, at the managed hooks `ref` for the phase `p`, and no other
hooks call it. -/
structure World.Enlists (w : World ρ σ) (l : ρ) (ref : HooksRef) (p : Phase) (mask : Mask) :
    Prop where
  policy : ∀ ref', w.hooksAt ref' ≠ .policy l
  managed : ∃ s, w.hooksAt ref = .managed s
  registered : ∀ ref' s, w.hooksAt ref' = .managed s → ∀ q,
    ((s.registered q).filter fun r => r.listener = l) =
      if ref' = ref ∧ q = p then [⟨l, mask⟩] else []

omit [DecidableEq ρ] in
/-- The request registers `l` at the managed hooks `ref`, with the mask it names or with the default
mask of the hooks. -/
inductive World.Enrols (w : World ρ σ) (l : ρ) (ref : HooksRef) (p : Phase) :
    Mask → Request ρ α → Prop
  | register {h root : HandlerRef} {s : ManagedHooks ρ} (hroot : w.root? h = some root)
      (hrole : (w.handler root).role = .root ref) (hs : w.hooksAt ref = .managed s) (mask : Mask) :
      Enrols w l ref p mask (.register h p l mask)
  | subscribe {s : ManagedHooks ρ} (hs : w.hooksAt ref = .managed s) :
      Enrols w l ref p s.config.defaultMask (.subscribe ref p l)

namespace Minute

def eventsTold (l : ρ) (log : List (Minute ρ α)) : List (Event α) :=
  log.filterMap fun
    | told l' e => if l' = l then some e else none
    | _ => none

def eventsAsked (l : ρ) (log : List (Minute ρ α)) : List (Event α) :=
  log.filterMap fun
    | asked l' e => if l' = l then some e else none
    | _ => none

omit [DecidableEq ρ] in
def reports (log : List (Minute ρ α)) : List (Event α) :=
  (log.filterMap raised?).filter fun e => !e.isPre

end Minute

omit [DecidableEq ρ] in
/-- The event is raised at a root that calls the hooks at `ref`. -/
def World.raisedAt (w : World ρ σ) (ref : HooksRef) (e : Event α) : Bool :=
  (w.handler e.handler).role = .root ref

/-- The first veto ends the consultation, and one of those who hear of the event and were registered
before `l` made it. -/
def ManagedHooks.vetoedBefore (s : ManagedHooks ρ) (l : ρ) (c : Consultation ρ α) : Bool :=
  let ahead := Registration.hearing c.event.kind (s.pre.takeWhile fun r => r.listener ≠ l)
  s.config.shortCircuit && (c.calls.take ahead.length).any fun call => !call.2

/-- From `w` to `w'` the listener `l`, which is registered at managed hooks for the phase `p` with a
mask, hears, in order, of what is raised there in this phase and has a kind from the mask, and of
nothing else; what was vetoed already it is not asked about. -/
def World.Informs (w : MinutedWorld ρ α) (l : ρ) (ref : HooksRef) (p : Phase) (mask : Mask)
    (w' : MinutedWorld ρ α) : Prop :=
  ∃ s news, w.hooksAt ref = .managed s ∧ w'.outside = w.outside ++ news ∧
    Minute.eventsTold l news =
      (if p = .post then
        (Minute.reports news).filter fun e => w'.raisedAt ref e && mask.covers e.kind
      else []) ∧
    Minute.eventsAsked l news =
      if p = .pre then
        ((Minute.consultations news).filter fun c => w'.raisedAt ref c.event &&
          mask.covers c.event.kind && !s.vetoedBefore l c).map (·.event)
      else []

def Beat.Hears (b : Beat ρ C κ α) (l : ρ) (ref : HooksRef) (p : Phase) (mask : Mask) : Prop :=
  b.worldBefore.Informs l ref p mask b.worldAfter

/-! ### Listener values without a mask -/

omit [DecidableEq ρ] in
/-- The factory has no use for listeners, whatever their mask. -/
structure Factory.Declines (f : Factory ρ σ ν) : Prop where
  create : ∀ id pair name config w, (f.create id ⟨.listeners pair, name⟩ config w).1 = none
  mask : ∀ id (pair : ListenerPair ρ) mask name config w,
    (f.create id ⟨.listeners { pair with mask }, name⟩ config w).2 =
      (f.create id ⟨.listeners { pair with mask := none }, name⟩ config w).2

end WatchedContainers
