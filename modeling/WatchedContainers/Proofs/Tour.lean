import WatchedContainers.Proofs.Behaviour
import WatchedContainers.Proofs.Restriction
import WatchedContainers.Watched.Outcome
import WatchedContainers.Watched.Request

/-!
# Iterations are tours

An iteration keeps a cursor, an index and the element produced last, and the cursors of the
standard containers work in three different ways.  A tour knows only the order in which the elements
stood when it began.

* `Standard.advance_of_pending_cons`: a cursor produces what it has still to come, one by one.
* `Standard.Walks.erase_visible`: **a removal takes out the occurrence that was produced last** and
  leaves what is still to come.
* `Standard.shown_tour`: an iteration shows a tour.
* `Standard.run_tours`: **an iteration is a tour of what it was opened on.**
-/

namespace WatchedContainers

variable {C D κ α : Type}

/-! ### Taking out one occurrence -/

theorem eraseIdx_append_cons (l₁ : List α) (v : α) (l₂ : List α) :
    (l₁ ++ v :: l₂).eraseIdx l₁.length = l₁ ++ l₂ := by
  rw [List.eraseIdx_append_of_length_le (Nat.le_refl _), Nat.sub_self]
  rfl

theorem UniqueSet.items_take [BEq α] [EquivBEq α] {s : UniqueSet α} {v : α} {l₁ l₂ : List α}
    (hs : s.items = l₁ ++ v :: l₂) : (s.take v).2.items = l₁ ++ l₂ := by
  obtain ⟨h₁, h₂⟩ := ne_of_append hs
  change s.items.filter (fun a => !(a == v)) = _
  rw [hs]
  refine filter_middle (fun a ha => ?_) (by simp) (fun a ha => ?_)
  · rw [h₁ a ha]
    rfl
  · rw [h₂ a ha]
    rfl

theorem SortedSet.items_take [Ord α] [Std.TransOrd α] {s : SortedSet α} {v : α} {l₁ l₂ : List α}
    (hs : s.items = l₁ ++ v :: l₂) : (s.take v).2.items = l₁ ++ l₂ := by
  obtain ⟨h₁, h₂⟩ := s.compare_of_append hs
  change s.items.filter (fun a => compare v a != .eq) = _
  rw [hs]
  refine filter_middle (fun a ha => ?_) (by simp) (fun a ha => ?_)
  · simp [h₁ a ha]
  · simp [h₂ a ha]

namespace CountedBag

variable [Ord α]

/-- Elements of a bag come in ascending order, and equal ones next to each other. -/
theorem pairwise_toList (b : CountedBag α) : b.toList.Pairwise fun x y => x = y ∨ Precedes x y := by
  rw [toList, List.pairwise_flatMap]
  refine ⟨fun p _ => List.pairwise_replicate.2 (.inr (.inl rfl)), b.ascending.imp ?_⟩
  intro p q hpq x hx y hy
  rw [List.eq_of_mem_replicate hx, List.eq_of_mem_replicate hy]
  exact .inr hpq

variable [Std.TransOrd α]

/-- It does not matter which of the equal elements of an ordered list is left out. -/
theorem append_eq_of_split {v : α} {l₁ l₂ m₁ m₂ : List α}
    (hp : (m₁ ++ v :: m₂).Pairwise fun x y => x = y ∨ Precedes x y) (hl₁ : v ∉ l₁)
    (h : l₁ ++ v :: l₂ = m₁ ++ v :: m₂) : l₁ ++ l₂ = m₁ ++ m₂ := by
  induction l₁ generalizing m₁ with
  | nil =>
    cases m₁ with
    | nil => exact (List.cons.inj h).2
    | cons a m₁ =>
      obtain ⟨rfl, rfl⟩ := List.cons.inj h
      -- what stands between two equal elements is equal to them
      have hall : ∀ x ∈ m₁, x = v := by
        intro x hx
        obtain ⟨hfirst, hrest⟩ := List.pairwise_cons.1 hp
        have hlast := (List.pairwise_append.1 hrest).2.2 x hx v List.mem_cons_self
        rcases hfirst x (List.mem_append_left _ hx) with rfl | hvx
        · rfl
        · rcases hlast with rfl | hxv
          · rfl
          · exact absurd (Std.TransCmp.lt_trans hvx hxv) (by simp)
      obtain ⟨n, rfl⟩ : ∃ n, m₁ = List.replicate n v := ⟨_, List.eq_replicate_of_mem hall⟩
      calc List.replicate n v ++ v :: m₂
        _ = List.replicate n v ++ [v] ++ m₂ := List.append_cons ..
        _ = List.replicate (n + 1) v ++ m₂ := by rw [List.replicate_succ']
  | cons a l₁ ih =>
    cases m₁ with
    | nil =>
      obtain ⟨rfl, -⟩ := List.cons.inj h
      exact absurd List.mem_cons_self hl₁
    | cons a' m₁ =>
      obtain ⟨rfl, hrest⟩ := List.cons.inj h
      exact congrArg (a :: ·) (ih (List.pairwise_cons.1 hp).2
        (fun hv => hl₁ (List.mem_cons_of_mem _ hv)) hrest)

theorem toList_remove {b : CountedBag α} {v : α} {m₁ m₂ : List α} (hb : b.toList = m₁ ++ v :: m₂) :
    (b.remove v).2.toList = m₁ ++ m₂ := by
  have hv : v ∈ b.toList := by rw [hb]; simp
  obtain ⟨n, he⟩ := entry?_of_mem hv
  obtain ⟨l₁, l₂, hl, hlowered, hne⟩ := toList_lowered he
  have hp := b.pairwise_toList
  have hl₁ : v ∉ l₁ := fun h => hne v h Std.ReflOrd.compare_self
  rw [hb] at hp hl
  have hremove : (b.remove v).2 = b.lowered v 1 := by
    rw [remove, he]
  rw [hremove, hlowered]
  exact append_eq_of_split hp hl₁ hl.symm

end CountedBag

/-! ### What an iteration comes past -/

namespace Standard

/-- The elements within the bounds, in the order in which a walk produces them.  Only sorted sets
have bounds. -/
def visible (b : Bounds α) : Standard α C κ → C → List α
  | sortedSet => fun s => (s.restrict b).items
  | k => k.contents

def hidden (b : Bounds α) : Standard α C κ → C → List α
  | sortedSet => fun s => s.outside b
  | _ => fun _ => []

def pending : Standard α C κ → κ → C → List α
  | sequence => fun cur s => s.items.drop cur.next
  | queue => fun cur q => q.items.drop cur.next
  | uniqueSet | bag => fun cur _ => cur.items.drop cur.next
  | sortedSet => fun cur s => s.items.filter cur.rest.contains

variable {k : Standard α C κ} {b : Bounds α} {cur : κ} {c : C}

theorem size_eq_add (k : Standard α C κ) (b : Bounds α) (c : C) :
    k.size c = (k.visible b c).length + (k.hidden b c).length := by
  cases k with
  | sequence | queue | uniqueSet => rfl
  | sortedSet => exact (SortedSet.length_restrict_add b c).symm
  | bag => exact c.size_eq_length

/-! ### Cursors -/

theorem getElem?_of_drop_nil {l : List α} {n : Nat} (h : l.drop n = []) : l[n]? = none := by
  rw [← List.head?_drop, h]
  rfl

theorem getElem?_of_drop_cons {l rest : List α} {n : Nat} {v : α} (h : l.drop n = v :: rest) :
    l[n]? = some v ∧ l.drop (n + 1) = rest := by
  constructor
  · rw [← List.head?_drop, h]
    rfl
  · rw [← List.tail_drop, h]
    rfl

theorem advance_of_pending_nil (h : k.pending cur c = []) : k.advance cur c = (none, cur) := by
  cases k with
  | sequence | queue | uniqueSet | bag =>
    have hnone := getElem?_of_drop_nil h
    simp only [advance, Traversal.next, PositionCursor.advance, CopyCursor.advance, hnone]
  | sortedSet => exact SortedSet.next_eq_none h

/-- **A cursor produces what it has still to come**, one by one. -/
theorem advance_of_pending_cons {v : α} {rest : List α} (h : k.pending cur c = v :: rest) :
    ∃ cur', k.advance cur c = (some v, cur') ∧ k.pending cur' c = rest := by
  cases k with
  | sequence | queue | uniqueSet | bag =>
    obtain ⟨hv, hrest⟩ := getElem?_of_drop_cons h
    simp only [advance, Traversal.next, PositionCursor.advance, CopyCursor.advance, hv]
    exact ⟨_, rfl, hrest⟩
  | sortedSet =>
    obtain ⟨-, -, hrest, -⟩ := SortedSet.filter_rest h
    exact ⟨_, SortedSet.next_eq_some h, hrest⟩

/-! ### Removals -/

/-- **A removal takes out the occurrence that was produced last**, and leaves what is still to
come. -/
theorem Walks.erase_visible {n i : Nat} {v : α} (h : k.Walks n (some (i, v)) c cur)
    {earlier : List α} (hi : i = earlier.length)
    (hvisible : k.visible b c = earlier ++ v :: k.pending cur c) :
    k.visible b (k.erase i v c).2 = earlier ++ k.pending cur c ∧
      k.hidden b (k.erase i v c).2 = k.hidden b c ∧
      k.pending (k.release cur) (k.erase i v c).2 = k.pending cur c := by
  subst hi
  cases k with
  | sequence | queue =>
    have hitems : c.items = earlier ++ v :: c.items.drop cur.next := hvisible
    have hafter := congrArg (List.eraseIdx · earlier.length) hitems
    simp only [eraseIdx_append_cons] at hafter
    obtain ⟨-, -, hnext, -⟩ := h.release
    refine ⟨hafter, rfl, ?_⟩
    change (c.items.eraseIdx earlier.length).drop (cur.next - 1) = _
    rw [hafter, hnext, List.drop_left]
    rfl
  | uniqueSet => exact ⟨UniqueSet.items_take hvisible, rfl, rfl⟩
  | bag => exact ⟨CountedBag.toList_remove hvisible, rfl, rfl⟩
  | sortedSet =>
    obtain ⟨hlast, -, -⟩ := h.produced _ v rfl
    have hv : b.contains v := by
      have hmem : v ∈ (c.restrict b).items := by
        rw [show (c.restrict b).items = _ from hvisible]
        simp
      exact (List.mem_filter.1 hmem).2
    have hafter := SortedSet.items_take (s := c.restrict b) hvisible
    rw [SortedSet.take_restrict hv] at hafter
    exact ⟨hafter, SortedSet.outside_take hv, SortedSet.filter_rest_take hlast⟩

end Standard

/-! ### Tours -/

namespace Tour

variable (t : Tour α)

theorem kept_kept (v : α) (earlier : List (α × Bool)) :
    kept ((v, false) :: earlier) = kept earlier ++ [v] := by
  simp [kept]

theorem kept_removed (v : α) (earlier : List (α × Bool)) :
    kept ((v, true) :: earlier) = kept earlier := by
  simp [kept]

theorem left_next : t.next.2.left = t.left := by
  obtain ⟨produced, ahead⟩ := t
  cases ahead with
  | nil => rfl
  | cons v rest => simp [next, left, kept_kept]

theorem order_next : t.next.2.order = t.order := by
  obtain ⟨produced, ahead⟩ := t
  cases ahead with
  | nil => rfl
  | cons v rest => simp [next, order]

/-- The element produced last stands where the elements kept before it have been counted, and that
is where it is taken out. -/
theorem exists_of_current {t : Tour α} {i : Nat} {v : α} (h : t.current? = some (i, v)) :
    ∃ earlier, t.produced = (v, false) :: earlier ∧ i = (kept earlier).length ∧
      t.left = kept earlier ++ v :: t.ahead ∧
      t.remove = .ok ⟨.removeIterated i v, .removeIterated i v, .flag true,
        ⟨(v, true) :: earlier, t.ahead⟩⟩ := by
  obtain ⟨produced, ahead⟩ := t
  match produced, h with
  | (_, false) :: earlier, rfl =>
    refine ⟨earlier, rfl, rfl, ?_, rfl⟩
    simp [left, kept_kept]

theorem getElem?_left {t : Tour α} {i : Nat} {v : α} (h : t.current? = some (i, v)) :
    t.left[i]? = some v := by
  obtain ⟨earlier, -, rfl, hleft, -⟩ := exists_of_current h
  rw [hleft, List.getElem?_append_right (Nat.le_refl _), Nat.sub_self]
  rfl

theorem remove_of_none (h : t.current? = none) : t.remove = .error .noCurrentElement := by
  obtain ⟨produced, ahead⟩ := t
  match produced, h with
  | [], _ => rfl
  | (_, true) :: _, _ => rfl

theorem remove_produced {t : Tour α} {m : Mutation (Tour α) α} (h : t.remove = .ok m) :
    m.container.produced.map (·.1) = t.produced.map (·.1) ∧ m.container.order = t.order := by
  cases hc : t.current? with
  | none =>
    rw [t.remove_of_none hc] at h
    cases h
  | some p =>
    obtain ⟨i, v⟩ := p
    obtain ⟨earlier, hproduced, -, -, hremove⟩ := exists_of_current hc
    rw [hremove] at h
    cases h
    refine ⟨?_, ?_⟩
    · rw [hproduced]
      rfl
    · rw [order, order, hproduced]
      rfl

end Tour

/-! ### Iterations that are on a tour -/

namespace Standard

/-- The iteration over `c` has come as far as the tour. -/
structure Tracks (k : Standard α C κ) (b : Bounds α) (t : Tour α) (c : C) (it : Iteration D κ α) :
    Prop where
  left : k.visible b c = t.left
  ahead : k.pending it.cursor c = t.ahead
  nextIndex : it.nextIndex = (Tour.kept t.produced).length
  current : it.current = t.current?

namespace Tracks

variable {k : Standard α C κ} {b : Bounds α} {t : Tour α} {c : C}

theorem of_fields {E : Type} {it : Iteration D κ α} {it' : Iteration E κ α} (h : k.Tracks b t c it)
    (hcursor : it'.cursor = it.cursor) (hnext : it'.nextIndex = it.nextIndex)
    (hcurrent : it'.current = it.current) : k.Tracks b t c it' :=
  ⟨h.left, hcursor ▸ h.ahead, hnext.trans h.nextIndex, hcurrent.trans h.current⟩

theorem start [Collection C α] {cur : κ} (h : k.pending cur c = k.visible b c) :
    k.Tracks b (.start (k.visible b c)) c (Iteration.along c cur) :=
  ⟨rfl, h, rfl, rfl⟩

/-- **An iteration moves as a tour does.** -/
theorem next {it : Iteration C κ α} (h : k.Tracks b t it.container it) :
    (k.next it).1 = t.next.1 ∧ k.Tracks b t.next.2 it.container (k.next it).2 := by
  have hahead := h.ahead
  rw [next_eq, Tour.next]
  cases ht : t.ahead with
  | nil =>
    rw [ht] at hahead
    rw [advance_of_pending_nil hahead]
    exact ⟨rfl, h.of_fields rfl rfl rfl⟩
  | cons v rest =>
    rw [ht] at hahead
    obtain ⟨cur', hadvance, hrest⟩ := advance_of_pending_cons hahead
    have hleft := t.left_next
    rw [Tour.next, ht] at hleft
    rw [hadvance]
    refine ⟨rfl, h.left.trans hleft.symm, hrest, ?_, ?_⟩
    · rw [Tour.kept_kept, List.length_append, ← h.nextIndex]
      rfl
    · rw [h.nextIndex]
      rfl

/-- **An iteration removes as a tour does**, and leaves alone what is out of bounds. -/
theorem carried {it : Iteration D κ α} (h : k.Tracks b t c it) (hit : k.InStep c it)
    (command : Command α) :
    Option.Rel (Behaviour.Carried fun c' t' =>
        k.hidden b c' = k.hidden b c ∧ k.Tracks b t' c' (k.resumed it))
      ((k.iterationMutation? it.current command).map (· c))
      (Tour.behaviour.mutation command t) := by
  have hcurrent := h.current
  cases command with
  | removeLast =>
    refine .some ?_
    cases ht : t.current? with
    | none =>
      rw [ht] at hcurrent
      rw [t.remove_of_none ht, hcurrent]
      exact .failed _
    | some p =>
      obtain ⟨i, v⟩ := p
      obtain ⟨earlier, -, hi, hleft, hremove⟩ := Tour.exists_of_current ht
      rw [ht] at hcurrent
      have hwalks := hit.walks
      rw [hcurrent] at hwalks
      obtain ⟨⟨hremoved, -⟩, -⟩ := hwalks.erase
      have hvisible := h.left.trans hleft
      rw [← h.ahead] at hvisible
      obtain ⟨hafter, hhidden, hpending⟩ := hwalks.erase_visible hi hvisible
      have htracks : k.Tracks b ⟨(v, true) :: earlier, t.ahead⟩ (k.erase i v c).2
          (k.resumed it) := by
        simp only [resumed, hcurrent]
        refine ⟨?_, hpending.trans h.ahead, hi.trans ?_, rfl⟩
        · rw [hafter, h.ahead, Tour.left, Tour.kept_removed]
        · rw [Tour.kept_removed]
      have hmade : Behaviour.Carried
          (fun c' t' => k.hidden b c' = k.hidden b c ∧ k.Tracks b t' c' (k.resumed it)) _ _ :=
        .made ⟨.removeIterated i v, .removeIterated i v, .flag true,
          ⟨(v, true) :: earlier, t.ahead⟩⟩ (k.erase i v c).2 ⟨hhidden, htracks⟩
      change Behaviour.Carried _ _ t.remove
      rw [hremove]
      simp only [hcurrent, hremoved]
      exact hmade
  | _ => exact .none

end Tracks

/-- The session `s` has an iteration in front that was opened on `s₀`, and which is on a tour. -/
def OnTour (k : Standard α C κ) (s₀ s : Session C κ α) (t : Tour α) : Prop :=
  ∃ c it, s = ⟨{ s₀.root with inner := c }, .iteration it s₀.handler :: s₀.frames⟩ ∧
    k.hidden s₀.bounds c = k.hidden s₀.bounds s₀.container ∧ k.Tracks s₀.bounds t c it

/-- **An iteration shows a tour.** -/
theorem shown_tour [ObjectIdentity α] (k : Standard α C κ) (s₀ : Session C κ α) :
    Tour.behaviour.Shown k s₀.seat
      (fun t => t.left.length + (k.hidden s₀.bounds s₀.container).length) (k.OnTour s₀) where
  seat_eq s t h := by
    obtain ⟨c, it, rfl, -⟩ := h
    exact Session.seatOf_inner s₀.root c s₀.frames
  size_eq s t h := by
    obtain ⟨c, it, rfl, hhidden, htracks⟩ := h
    rw [← htracks.left, ← hhidden]
    exact k.size_eq_add s₀.bounds c
  iterating s t h j o w := by
    obtain ⟨c, it, rfl, -⟩ := h
    cases k <;> cases o <;> rfl
  move s t w hs h m := by
    obtain ⟨c, it, rfl, hhidden, htracks⟩ := h
    cases m with
    | previous =>
      have hnone : k.move? .previous (⟨{ s₀.root with inner := c },
          .iteration it s₀.handler :: s₀.frames⟩ : Session C κ α) = none := by
        cases k <;> rfl
      rw [hnone]
      exact .none
    | next =>
      rw [move?_iteration]
      have hover : k.Tracks s₀.bounds t (it.over c).container (it.over c) :=
        htracks.of_fields rfl rfl rfl
      obtain ⟨hv, hnext⟩ := hover.next
      exact .some ⟨hv, c, _, rfl, hhidden, hnext.of_fields rfl rfl rfl⟩
  answer s t h q := by
    obtain ⟨c, it, rfl, -, htracks⟩ := h
    have hindex : it.index? = t.current?.map (·.1) := by
      rw [Iteration.index?, htracks.current]
    cases q with
    | index =>
      refine Eq.trans ?_ (congrArg (fun n => some (Response.number n)) hindex)
      cases k <;> rfl
    | _ => cases k <;> rfl
  mutation s t w hs h command := by
    obtain ⟨c, it, rfl, hhidden, htracks⟩ := h
    have hit : k.InStep c it := hs.fits.front
    have hmutation : k.mutation? (.iteration it s₀.handler :: s₀.frames) command =
        k.iterationMutation? it.current command := by
      cases k <;> rfl
    change Option.Rel _ ((k.mutation? (.iteration it s₀.handler :: s₀.frames) command).map (· c)) _
    rw [hmutation]
    refine Behaviour.Carried.rel_imp ?_ (htracks.carried hit command)
    rintro c' t' ⟨hhidden', htracks'⟩
    refine ⟨c', k.resumed it, ?_, hhidden'.trans hhidden, htracks'⟩
    cases k <;> rfl

end Standard

/-! ### What a tour produces -/

namespace Tour

variable [ObjectIdentity α] {j : Judge α} {seat : Seat} {size : Tour α → Nat}

/-- An action produces at most one element, and the order stays. -/
theorem act_produced {heard : List (Heard α)} {a : Action α} {t t' : Tour α} {e : Episode α}
    (h : behaviour.act j seat size heard a t = some (e, t')) :
    t'.produced.map (·.1) = e.produced?.toList ++ t.produced.map (·.1) ∧ t'.order = t.order := by
  cases a with
  | move m =>
    cases m with
    | previous => cases h
    | next =>
      obtain ⟨rfl, rfl⟩ := Prod.mk.inj (Option.some.inj h)
      refine ⟨?_, t.order_next⟩
      obtain ⟨produced, ahead⟩ := t
      cases ahead <;> rfl
  | query q =>
    obtain ⟨r, -, hr⟩ := Option.map_eq_some_iff.1 h
    obtain ⟨rfl, rfl⟩ := Prod.mk.inj hr
    exact ⟨rfl, rfl⟩
  | command command =>
    cases command with
    | removeLast =>
      simp only [Behaviour.act, behaviour, Option.map_some, Option.some.injEq] at h
      cases hr : t.remove with
      | error e =>
        rw [hr] at h
        obtain ⟨rfl, rfl⟩ := Prod.mk.inj h
        exact ⟨rfl, rfl⟩
      | ok m =>
        rw [hr] at h
        dsimp only at h
        split at h
        · obtain ⟨rfl, rfl⟩ := Prod.mk.inj h
          exact remove_produced hr
        · obtain ⟨rfl, rfl⟩ := Prod.mk.inj h
          exact ⟨rfl, rfl⟩
    | _ => cases h
  | openFrame o => cases h
  | close => cases h

/-- **A tour produces the elements in their order**, each of them once. -/
theorem run_produced (j : Judge α) (seat : Seat) (size : Tour α → Nat) (order : List α)
    (script : List (Action α)) (heard : List (Heard α)) :
    let there := behaviour.run j seat size script heard (start order)
    there.episodes.filterMap Episode.produced? ++ there.state.ahead = order ∧
      there.state.order = order := by
  have hstep : ∀ earlier heard a t e t', behaviour.act j seat size heard a t = some (e, t') →
      (List.filterMap Episode.produced? earlier = (t.produced.map (·.1)).reverse ∧
        t.order = order) →
      List.filterMap Episode.produced? (earlier ++ [e]) = (t'.produced.map (·.1)).reverse ∧
        t'.order = order := by
    rintro earlier heard a t e t' hact ⟨hproduced, horder⟩
    obtain ⟨hmore, hsame⟩ := act_produced hact
    refine ⟨?_, hsame.trans horder⟩
    rw [List.filterMap_append, hproduced, hmore, List.reverse_append]
    cases he : e.produced? <;> simp [he]
  obtain ⟨hproduced, horder⟩ :=
    Behaviour.run_induction hstep script heard (start order) [] ⟨rfl, rfl⟩
  rw [List.nil_append] at hproduced
  intro there
  rw [hproduced]
  exact ⟨horder, horder⟩

end Tour

namespace Standard

def isIterable : Standard α C κ → List (Frame κ α) → Bool
  | _, [] | sortedSet, .sortedView _ :: _ => true
  | _, _ => false

variable {k : Standard α C κ}

/-- An iteration that has just been opened begins a tour of what is in front. -/
theorem onTour_opened [Collection C α] {s : Session C κ α} {cur : κ}
    (h : k.pending cur s.container = k.visible s.bounds s.container) :
    k.OnTour s (s.push (.iteration ((Iteration.along s.container cur).over ()) s.handler))
      (.start (k.visible s.bounds s.container)) :=
  ⟨s.container, _, rfl, rfl, (Tracks.start h).of_fields rfl rfl rfl⟩

/-- **An iteration can be opened**, and then begins a tour of what is in front. -/
theorem exists_opened [ObjectIdentity α] {s : Session C κ α} (h : k.isIterable s.frames)
    (j : Judge α) (w : HeardWorld α) :
    ∃ s', k.act j.observers (.openFrame .iteration) s w = some (.ok .nothing, s', w) ∧
      k.OnTour s s' (.start (k.visible s.bounds s.container)) := by
  let _ := k.collection
  let _ := k.traversal
  obtain ⟨root, frames⟩ := s
  cases frames with
  | nil =>
    have hpending : k.pending (Traversal.cursor root.inner) root.inner =
        k.visible .all root.inner := by
      cases k <;> rfl
    exact ⟨_, rfl, onTour_opened (s := ⟨root, []⟩) hpending⟩
  | cons f rest =>
    cases f with
    | sortedView v =>
      cases k with
      | sortedSet =>
        exact ⟨_, rfl, onTour_opened (k := sortedSet) (s := ⟨root, .sortedView v :: rest⟩) rfl⟩
      | _ => cases h
    | _ => cases k <;> cases h

/-- **An iteration is a tour of what it was opened on**, whatever is removed by it and whatever is
refused.  It produces the elements in the order in which they stood, each of them once.  Those that
it removed are missing afterwards, and no others are; the element produced last, if it is still
there, stands where its index says. -/
theorem run_tours [ObjectIdentity α] {c : Watched C} {w : HeardWorld α}
    (hc : w.Presides c.handler c.id) (j : Judge α) (actions : List (Action α))
    (hfront : k.isIterable (k.run j actions c.session w).session.frames)
    (script : List (Action α)) (hscript : .close ∉ script) :
    let here := k.run j actions c.session w
    let bounds := here.session.bounds
    let order := k.visible bounds here.session.container
    let others := k.hidden bounds here.session.container
    let opened := k.run j [.openFrame .iteration] here.session here.world
    let there := k.run j script opened.session opened.world
    let tour := Tour.behaviour.run j here.session.seat
      (fun t => t.left.length + others.length) script here.world.outside (.start order)
    (opened.responses = [.ok .nothing] ∧ opened.world = here.world) ∧
      there.turns.map Turn.episode = tour.episodes ∧
      (tour.episodes.filterMap Episode.produced? ++ tour.state.ahead = order ∧
        tour.state.order = order) ∧
      k.visible bounds there.session.container = tour.state.left ∧
      k.hidden bounds there.session.container = others ∧
      ∀ i v, tour.state.current? = some (i, v) →
        (k.visible bounds there.session.container)[i]? = some v := by
  intro here bounds order others opened there tour
  have hhere := (k.sound_session hc).run (j := j) actions
  obtain ⟨s, hact, htour⟩ := exists_opened hfront j here.world
  have hopened : opened = ⟨[⟨.openFrame .iteration, here.session, here.world, .ok .nothing, s,
      here.world⟩], s, here.world⟩ := run_of_act [] hact
  have hsound : k.Sound s here.world := (hhere.step hact).sound hhere
  obtain ⟨hepisodes, c', it, hend, hhidden, htracks⟩ :=
    (k.shown_tour here.session).run j hscript hsound htour
  have hthere : there = k.run j script s here.world := by
    change k.run j script opened.session opened.world = _
    rw [hopened]
  have hcontainer : there.session.container = c' := by
    rw [hthere, hend]
    rfl
  have hvisible : k.visible bounds there.session.container = tour.state.left := by
    rw [hcontainer]
    exact htracks.left
  refine ⟨?_, ?_, Tour.run_produced .., hvisible, ?_, ?_⟩
  · rw [hopened]
    exact ⟨rfl, rfl⟩
  · rw [hthere]
    exact hepisodes
  · rw [hcontainer]
    exact hhidden
  · intro i v hcurrent
    rw [hvisible]
    exact Tour.getElem?_left hcurrent

/-- A range of a sorted set, under a judge who refuses the first removal: it is tried again and
succeeds, the element before it stays, and the last one is removed after the end was reached. -/
theorem run_tours_range :
    let k : Standard Int (SortedSet Int) (ResumingCursor Int) := .sortedSet
    let j : Judge Int := fun heard _ => !heard.isEmpty
    let script : List (Action Int) := [.command .removeLast, .move .next, .move .next,
      .command .removeLast, .command .removeLast, .command .removeLast, .move .next,
      .query .index, .move .next, .command .removeLast, .query .index]
    let here := k.run j [.openFrame (.range ⟨.excluded 1, .included 6⟩)]
      (Watched.alone ⟨[1, 2, 3, 5, 7], by unfold Precedes; decide⟩).session k.world
    let order := k.visible here.session.bounds here.session.container
    let others := k.hidden here.session.bounds here.session.container
    let opened := k.run j [.openFrame .iteration] here.session here.world
    let there := k.run j script opened.session opened.world
    let tour := Tour.behaviour.run j here.session.seat (fun t => t.left.length + others.length)
      script here.world.outside (.start order)
    (order = [2, 3, 5] ∧ tour.state.left = [2] ∧ there.session.container.items = [1, 2, 7]) ∧
      there.turns.map Turn.episode = tour.episodes ∧
      tour.episodes.filterMap Episode.produced? ++ tour.state.ahead = order ∧
      k.visible here.session.bounds there.session.container = tour.state.left := by
  intro k j script here order others opened there tour
  obtain ⟨-, hepisodes, -, hleft, -⟩ :=
    run_tours (k := k) (presides_world k ⟨[1, 2, 3, 5, 7], by unfold Precedes; decide⟩) j
      [.openFrame (.range ⟨.excluded 1, .included 6⟩)] rfl script (by simp [script])
  exact ⟨by decide +kernel, hepisodes,
    (Tour.run_produced j here.session.seat _ order script here.world.outside).1, hleft⟩

end Standard

end WatchedContainers
