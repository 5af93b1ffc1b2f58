import WatchedContainers.Proofs.RecordedRun
import WatchedContainers.Proofs.Regularity

/-!
# Accounts of sizes

The sizes that events carry are those of the root container, also when the operation was called on
a view or through an iterator.  They keep accounts: every event starts from the size that the one
before it left.

* `Heard.Accounts`: what a call says of the size before and after the turn it is made in.
* `Heard.Balanced`: a list of calls that leads from one size to another.
* `Standard.run_accounts`: **the calls of every run under discreet parties account for the size of
  the root**.
-/

namespace WatchedContainers

variable {ρ σ C κ α : Type}

namespace Event

/-- The difference is the value of a signed machine word. -/
def FitsWord (change : Int) : Prop := -(wordSize : Int) ≤ 2 * change ∧ 2 * change < wordSize

theorem bmod_wordSize {change : Int} : Int.bmod change wordSize = change ↔ FitsWord change := by
  have hword : (wordSize : Int) = 18446744073709551616 := rfl
  unfold FitsWord
  constructor
  · intro h
    have hle := Int.le_bmod (x := change) (m := wordSize) (by decide)
    have hlt := Int.bmod_lt (x := change) (m := wordSize) (by decide)
    rw [h] at hle hlt
    omega
  · intro h
    apply Int.bmod_eq_of_le <;> omega

end Event

namespace Heard

/-! ### Calls -/

def event : Heard α → Event α
  | asked e _ => e
  | told e => e

/-- The size of the root once the call was made, as far as the call tells. -/
def sizeAfter : Heard α → Nat
  | asked e _ => e.preSize
  | told e => e.postSize?.getD e.preSize

/-- A call that is made while the size of the root goes from `before` to `after`.  The event before
the modification has the one size and the event after it has both.  The change of the size agrees
with the kind, and the event tells it exactly if it fits a signed machine word. -/
def Accounts (before after : Nat) : Heard α → Prop
  | asked e _ => e.preSize = before ∧ e.postSize? = none ∧ e.sizeChange? = none
  | told e =>
    e.preSize = before ∧ e.postSize? = some after ∧
      e.kind.trend.Admits ((after : Int) - before) ∧
      (e.sizeChange? = some ((after : Int) - before) ↔ Event.FitsWord ((after : Int) - before))

/-- Every call starts from the size that the one before it left. -/
def Balanced : Nat → List (Heard α) → Nat → Prop
  | size, [], size' => size = size'
  | size, h :: rest, size' => h.event.preSize = size ∧ Balanced h.sizeAfter rest size'

theorem Balanced.append {size size' size'' : Nat} {heard more : List (Heard α)}
    (h : Balanced size heard size') (h' : Balanced size' more size'') :
    Balanced size (heard ++ more) size'' := by
  induction heard generalizing size with
  | nil =>
    obtain rfl : size = size' := h
    exact h'
  | cons x heard ih => exact ⟨h.1, ih h.2⟩

theorem accounts_told [ObjectIdentity α] (seat : Seat) {c : Completion α} {before after : Nat}
    (htrend : c.modification.kind.trend.Admits ((after : Int) - before)) :
    (told (seat.after c before after)).Accounts before after := by
  refine ⟨rfl, rfl, ?_, ?_⟩
  · have hkind : (seat.after c before after).kind = c.modification.kind :=
      Modification.kind_shift seat.offset c.modification
    rwa [hkind]
  · rw [← Event.bmod_wordSize]
    exact ⟨fun h => Option.some.inj h, fun h => congrArg some h⟩

end Heard

namespace Turn

/-- The calls of the turn account for the size of the root before and after it. -/
structure Balances (k : Standard α C κ) (t : Turn C κ α) : Prop where
  accounts : ∀ h ∈ t.heard, h.Accounts (k.size t.before.container) (k.size t.after.container)
  balanced : Heard.Balanced (k.size t.before.container) t.heard (k.size t.after.container)

end Turn

namespace Standard

variable [ObjectIdentity α] {k : Standard α C κ} {obs : Observers ρ σ α} {s s' : Session C κ α}
  {v v' : HeardWorld α} {t : Turn C κ α} {turns : List (Turn C κ α)}

/-- **A step accounts for the size of the root.** -/
theorem Resembles.balances (h : k.Resembles t) : t.Balances k := by
  obtain ⟨a, s, w, r, s', w'⟩ := t
  have hs : k.Sound s w := h.sound
  obtain ⟨j, w₀, hstep, hheard⟩ := h.exists_step
  simp only at hstep hheard
  have hquiet : w₀.outside = w.outside → s'.container = s.container →
      (⟨a, s, w, r, s', w'⟩ : Turn C κ α).Balances k := by
    intro hnone hsame
    have hnil := hheard [] (hnone.trans (List.append_nil _).symm)
    refine ⟨?_, ?_⟩
    · simp [hnil]
    · rw [hnil]
      exact congrArg k.size hsame.symm
  cases hstep with
  | failed | answered | moved | notOpened | closed => exact hquiet rfl rfl
  | opened o f w' hf => exact hquiet hf.outside rfl
  | refused command f m hf hm hj =>
    have hcalls := hheard _ rfl
    refine ⟨?_, ?_⟩
    · rw [hcalls]
      simp only [List.mem_singleton, forall_eq]
      exact ⟨rfl, rfl, rfl⟩
    · rw [hcalls]
      exact ⟨rfl, rfl⟩
  | accepted command f m hf hm hj =>
    have hregular := regular_of_mutation hs.fits hf hm
    have hcalls := hheard _ rfl
    rw [Seat.reports] at hcalls
    by_cases habsent : m.completion.absent?.isSome
    · rw [if_pos habsent] at hcalls
      refine ⟨?_, ?_⟩
      · rw [hcalls]
        simp only [List.mem_singleton, forall_eq]
        exact ⟨rfl, rfl, rfl⟩
      · rw [hcalls]
        exact ⟨rfl, congrArg k.size (hregular.unchanged habsent).symm⟩
    · rw [if_neg habsent] at hcalls
      have htrend := hregular.trend
      rw [← hregular.completes] at htrend
      refine ⟨?_, ?_⟩
      · rw [hcalls]
        simp only [List.mem_cons, List.not_mem_nil, or_false, forall_eq_or_imp, forall_eq]
        exact ⟨⟨rfl, rfl, rfl⟩, Heard.accounts_told s.seat htrend⟩
      · rw [hcalls]
        exact ⟨rfl, rfl, rfl⟩

theorem Links.balanced (h : k.Links s v turns s' v') :
    Heard.Balanced (k.size s.container) (turns.flatMap (·.heard)) (k.size s'.container) := by
  induction h with
  | nil => exact (rfl : k.size _ = k.size _)
  | cons t hfirst hrest ih => exact hfirst.balances.balanced.append ih

/-- **The calls of every run account for the size of the root.**  Whatever discreet hooks the root
has and whatever they veto, at the container, at a view or through an iterator, the calls of each
turn carry the sizes of the root before and after it; and through the whole run every event starts
from the size that the one before it left, from the initial size to the final one. -/
theorem run_accounts (k : Standard α C κ) {obs : Observers ρ σ α} {c : Watched C}
    {w : RecordedWorld ρ σ α} (hd : obs.Discreet c.handler)
    (hc : w.shadow.Presides c.handler c.id) (actions : List (Action α)) :
    let course := k.recordedRun obs actions c.session w
    (∀ t ∈ course.turns, t.Balances k) ∧
      Heard.Balanced (k.size c.inner) course.heard (k.size course.session.container) := by
  intro course
  have hlinks := links_recordedRun hd (k.sound_session hc) actions
  exact ⟨fun t ht => (hlinks.turn ht).balances, hlinks.balanced⟩

/-- A listener that takes identities and refuses to clear.  Elements are added at a sub-list, one is
removed through an iterator, and the clearing is refused. -/
theorem run_accounts_iterating :
    let k : Standard Int (Sequence Int) PositionCursor := .sequence
    let obs : Observers Unit Unit Int :=
      ⟨fun _ e w => (e.kind != .clear, w.freshId.2), fun _ _ w => w.freshId.2, fun _ => id,
        fun _ => id⟩
    let w : RecordedWorld Unit Unit Int :=
      { nextId := 2
        handlers := #[{ role := .root ⟨0⟩, binding := some ⟨⟨1⟩, k.capabilities⟩ }]
        hooks := #[.policy ()]
        outside := ((), []) }
    let course := k.recordedRun obs
      [.openFrame (.subList 0 1), .command (.addAll [7, 8]), .close, .openFrame .iteration,
        .move .next, .command .removeLast, .close, .command .clear]
      (Watched.alone ⟨[1, 2, 3]⟩).session w
    course.heard.map (·.sizeAfter) = [3, 5, 5, 4, 4] ∧
      (∀ t ∈ course.turns, t.Balances k) ∧
      Heard.Balanced (k.size ⟨[1, 2, 3]⟩) course.heard (k.size course.session.container) :=
  ⟨by decide +kernel,
    run_accounts .sequence
      ⟨fun _ _ _ => .of_outside rfl rfl, fun _ _ _ => .of_outside rfl rfl⟩
      (World.Hosts.presides_shadow ⟨rfl, rfl, rfl⟩ rfl) _⟩

end Standard

end WatchedContainers
