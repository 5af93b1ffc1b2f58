import WatchedContainers.Proofs.Behaviour
import WatchedContainers.Proofs.Locality

/-!
# List iterators are zippers

A list iterator keeps a position and the position of the element it moved over last, and reads the
elements off the list.  The zipper of these elements has no positions: what is in front of it and
what is behind it are lists, and the element it points at is next to it on one side or the other.

* `Zipper.localMove?_stand`, `Zipper.localAnswer?_stand`, `Zipper.localMutation?_stand`: at the
  position of a zipper a list iterator moves, answers and changes its elements as the zipper does.
* `Zipper.shown`: a list iterator shows a zipper at whatever place it stands.
* `Standard.run_zips`: **a list iterator is a zipper over the window it was opened on.**
-/

namespace WatchedContainers

variable {α : Type}

namespace Zipper

/-! ### Positions of a zipper -/

def stand (z : Zipper α) : Stand := (z.before.length, z.pointed?)

@[simp] theorem toList_passed (b : List α) (v : α) (a : List α) :
    (passed b v a).toList = b.reverse ++ v :: a := by
  simp [toList, before, after]

@[simp] theorem toList_returned (b : List α) (v : α) (a : List α) :
    (returned b v a).toList = b.reverse ++ v :: a := rfl

theorem length_toList (z : Zipper α) : z.toList.length = z.before.length + z.after.length := by
  rw [toList, List.length_append, List.length_reverse]

section Split

variable (b : List α) (v x : α) (a : List α)

/-- What follows the elements of `b` stands where these have been counted. -/
theorem getElem?_split : (b.reverse ++ v :: a)[b.length]? = some v := by
  rw [List.getElem?_append_right (by simp)]
  simp

theorem eraseIdx_split : (b.reverse ++ v :: a).eraseIdx b.length = b.reverse ++ a := by
  rw [List.eraseIdx_append_of_length_le (by simp)]
  simp

theorem set_split : (b.reverse ++ v :: a).set b.length x = b.reverse ++ x :: a := by
  rw [List.set_append_right _ _ (by simp)]
  simp

theorem insertIdx_split : (b.reverse ++ a).insertIdx b.length x = b.reverse ++ x :: a := by
  have h := insertIdx_middle b.reverse [] a 0 x (Nat.zero_le _)
  simpa using h

end Split

/-! ### Moves -/

variable (z : Zipper α)

theorem toList_next : z.next.2.toList = z.toList := by
  rw [next, toList.eq_def z]
  cases h : z.after with
  | nil => simp [toList, h]
  | cons v a => simp

theorem toList_previous : z.previous.2.toList = z.toList := by
  rw [previous, toList.eq_def z]
  cases h : z.before with
  | nil => simp [toList, h]
  | cons v b => simp

theorem localMove?_next :
    Place.localMove? z.toList (some z.stand) .next = some (z.next.1, some z.next.2.stand) := by
  have hlen := z.length_toList
  rw [next]
  cases h : z.after with
  | nil =>
    rw [h, List.length_nil, Nat.add_zero] at hlen
    simp only [Place.localMove?, stand, hlen, Nat.lt_irrefl, if_false]
  | cons v a =>
    rw [h, List.length_cons] at hlen
    have hlt : z.before.length < z.toList.length := by omega
    have hv : z.toList[z.before.length]? = some v := by
      rw [toList, h]
      exact getElem?_split ..
    simp only [Place.localMove?, stand, hlt, if_true, hv]
    rfl

theorem localMove?_previous :
    Place.localMove? z.toList (some z.stand) .previous =
      some (z.previous.1, some z.previous.2.stand) := by
  rw [previous]
  cases h : z.before with
  | nil => simp [Place.localMove?, stand, h]
  | cons v b =>
    have hv : z.toList[b.length]? = some v := by
      rw [toList, h, List.reverse_cons, List.append_assoc, List.singleton_append]
      exact getElem?_split ..
    simp only [Place.localMove?, stand, h, List.length_cons, Nat.add_one_ne_zero, if_false,
      Nat.add_sub_cancel, hv]
    rfl

/-- **A list iterator moves as a zipper does.** -/
theorem localMove?_stand (m : Move) :
    Place.localMove? z.toList (some z.stand) m =
      (behaviour.move m z).map fun x => (x.1, some x.2.stand) := by
  cases m with
  | next => exact z.localMove?_next
  | previous => exact z.localMove?_previous

theorem toList_of_move {z z' : Zipper α} {m : Move} {v : Option α}
    (h : behaviour.move m z = some (v, z')) : z'.toList = z.toList := by
  cases m with
  | next =>
    obtain rfl : z.next.2 = z' := congrArg Prod.snd (Option.some.inj h)
    exact z.toList_next
  | previous =>
    obtain rfl : z.previous.2 = z' := congrArg Prod.snd (Option.some.inj h)
    exact z.toList_previous

/-! ### Queries -/

theorem previousIndex_eq (l : List α) :
    (if l.length = 0 then none else some (l.length - 1)) = l.tail?.map List.length := by
  cases l <;> simp

/-- **A list iterator answers as a zipper does.** -/
theorem localAnswer?_stand [BEq α] (q : Query α) :
    Place.localAnswer? z.toList (some z.stand) q = behaviour.answer q z := by
  have hlen := z.length_toList
  cases q with
  | hasNext =>
    simp only [Place.localAnswer?, stand, behaviour, hlen]
    cases z.after <;> simp
  | hasPrevious =>
    simp only [Place.localAnswer?, stand, behaviour]
    cases z.before <;> simp
  | previousIndex => exact congrArg (fun n => some (Response.number n)) (previousIndex_eq z.before)
  | _ => rfl

/-! ### Commands -/

section Pointed

variable [BEq α] (b : List α) (v x : α) (a : List α) (cursor : Nat)

theorem removeLast_split :
    (Place.localMutation? .removeLast (some (cursor, some b.length))).map
        (· ⟨b.reverse ++ v :: a⟩) =
      some (.ok ⟨.removeIterated b.length v, .removeIterated b.length v, .flag true,
        ⟨b.reverse ++ a⟩⟩) := by
  simp only [Place.localMutation?, ListIterator.mutation?, Option.map_some, Option.bind_some,
    getElem?_split, eraseIdx_split]

theorem setLast_split :
    (Place.localMutation? (.setLast x) (some (cursor, some b.length))).map
        (· ⟨b.reverse ++ v :: a⟩) =
      some (.ok ⟨.setIterated b.length x, .setIterated b.length x v, .flag true,
        ⟨b.reverse ++ x :: a⟩⟩) := by
  simp only [Place.localMutation?, ListIterator.mutation?, Option.map_some, Option.bind_some,
    getElem?_split, set_split]

end Pointed

/-- **A list iterator changes its elements as a zipper does.** -/
theorem localMutation?_stand [BEq α] (command : Command α) :
    (Place.localMutation? command (some z.stand)).map (· ⟨z.toList⟩) =
      (behaviour.mutation command z).map
        (Except.map (·.map fun z' => (⟨z'.toList⟩ : Sequence α))) := by
  cases command with
  | removeLast =>
    cases z with
    | resting b a => rfl
    | passed b v a =>
      rw [toList_passed]
      exact removeLast_split b v a (b.length + 1)
    | returned b v a => exact removeLast_split b v a b.length
  | setLast x =>
    cases z with
    | resting b a => rfl
    | passed b v a =>
      have hset : (passed b x a).toList = b.reverse ++ x :: a := toList_passed b x a
      rw [toList_passed]
      refine (setLast_split b v x a (b.length + 1)).trans ?_
      rw [← hset]
      rfl
    | returned b v a => exact setLast_split b v x a b.length
  | insert x =>
    have hinsert : z.toList.insertIdx z.before.length x = (z.insert x).container.toList := by
      rw [toList, insertIdx_split]
      simp [insert, toList, before, after]
    simp only [Place.localMutation?, stand, ListIterator.mutation?, Option.map_some, hinsert]
    rfl
  | _ => rfl

theorem standAfter_stand {z : Zipper α} {command : Command α} {m : Mutation (Zipper α) α}
    (h : behaviour.mutation command z = some (.ok m)) :
    Place.standAfter command (some z.stand) = some m.container.stand := by
  cases command with
  | removeLast => cases z <;> cases h <;> rfl
  | setLast x => cases z <;> cases h <;> rfl
  | insert x =>
    cases h
    rfl
  | _ => cases h

/-! ### At a place -/

section Places

variable [BEq α] (p : Place α)

def standsAt (s : Session (Sequence α) PositionCursor α) (z : Zipper α) : Prop :=
  s = p.session z.toList (some z.stand)

theorem carried_session (command : Command α) :
    Option.Rel (Behaviour.Carried fun c => standsAt p
        (Standard.sequence.afterward command (p.session z.toList (some z.stand)) c))
      ((Standard.sequence.mutation? (p.session z.toList (some z.stand)).frames command).map
        (· (p.session z.toList (some z.stand)).container))
      (behaviour.mutation command z) := by
  have hlocal := z.localMutation?_stand command
  have hwithin : ((Place.localMutation? command (some z.stand)).map
        (Sequence.within p.pre.length p.suf.length)).map (· ⟨p.pre ++ z.toList ++ p.suf⟩) =
      ((Place.localMutation? command (some z.stand)).map (· ⟨z.toList⟩)).map
        (Except.map (·.map fun t => (⟨p.pre ++ t.items ++ p.suf⟩ : Sequence α))) := by
    rw [Option.map_map, Option.map_map]
    exact congrArg (Option.map · _) (funext fun f => Sequence.within_middle _ _ _ f)
  rw [Place.mutation?_session, Place.container_session, hwithin, hlocal]
  cases hm : behaviour.mutation command z with
  | none => exact .none
  | some r =>
    cases r with
    | error e => exact .some (.failed e)
    | ok m =>
      refine .some (.made m _ ?_)
      rw [standsAt, Place.afterward_session, standAfter_stand hm]
      rfl

/-- **A list iterator shows a zipper**, at whatever place it stands. -/
theorem shown :
    behaviour.Shown Standard.sequence p.seat (fun z => p.size z.toList) (standsAt p) where
  seat_eq s z hz := by
    rw [hz, Place.seat_session]
  size_eq s z hz := by
    rw [hz, Place.container_session, Place.size_around]
  iterating s z hz j o w := by
    rw [hz]
    cases o <;> rfl
  move s z w hs hz m := by
    obtain rfl := hz
    rw [p.move?_session z.toList _ hs, z.localMove?_stand, Option.map_map]
    cases hm : behaviour.move m z with
    | none => exact .none
    | some x =>
      obtain ⟨v, z'⟩ := x
      refine .some ⟨rfl, ?_⟩
      rw [standsAt, toList_of_move hm]
      rfl
  answer s z hz q := by
    rw [hz, Place.answer?_session]
    exact z.localAnswer?_stand q
  mutation s z w hs hz command := by
    obtain rfl := hz
    exact z.carried_session p command

end Places

/-! ### At a segment -/

def session (z : Zipper α) (x : Segment (Sequence α))
    (s : Session (Sequence α) PositionCursor α) : Session (Sequence α) PositionCursor α :=
  (s.withContainer (x.list.splice x.start x.tail z.toList)).push
    (.listIterator ⟨⟨(), x.start, x.tail⟩, z.before.length, z.pointed?⟩ s.handler)

end Zipper

theorem Place.exists_of_segment? {s : Session (Sequence α) PositionCursor α} [BEq α]
    (hs : Standard.sequence.Fits s.container s.frames) {x : Segment (Sequence α)}
    (hx : s.segment? = some x) :
    ∃ p : Place α, ∃ mid, s = p.session mid none ∧ x = Segment.around p.pre mid p.suf := by
  obtain ⟨⟨list, handler, id⟩, frames⟩ := s
  cases frames with
  | nil =>
    obtain rfl := Option.some.inj hx
    exact ⟨alone α handler id, list.items, session_alone ⟨list, handler, id⟩,
      Segment.whole_eq_around list⟩
  | cons f rest =>
    cases f with
    | subList v =>
      obtain ⟨p, mid, hs, hpre, hsuf, -⟩ := exists_session rfl hs.inside
      refine ⟨p, mid, hs, ?_⟩
      obtain rfl := Option.some.inj hx
      have hlist : list = ⟨p.pre ++ mid ++ p.suf⟩ :=
        (congrArg Session.container hs).trans (p.container_session mid none)
      rw [Segment.over, Segment.around, hpre, hsuf, ← hlist]
      rfl
    | sortedView v => simp [Session.segment?] at hx
    | iteration it ref => simp [Session.segment?] at hx
    | listIterator it ref => simp [Session.segment?] at hx

theorem Zipper.session_around (p : Place α) (mid : List α) (z : Zipper α) :
    z.session (Segment.around p.pre mid p.suf) (p.session mid none) =
      p.session z.toList (some z.stand) := by
  have hfront : (p.session mid none).handler = p.front := by
    obtain ⟨pre, suf, handler, id, frames, -⟩ := p
    cases frames <;> rfl
  rw [session, Segment.list_around, Segment.start_around, Segment.tail_around,
    Sequence.splice_middle, hfront]
  rfl

namespace Standard

variable [BEq α] [ObjectIdentity α]

/-- **A list iterator is a zipper over the window it was opened on**, whatever is done with it and
whatever is refused.  The events it raises come from the seat of the window, which starts where the
window does, so positions are counted from there; nothing outside the window changes. -/
theorem run_zips {c : Watched (Sequence α)} {w : HeardWorld α} (hc : w.Presides c.handler c.id)
    (j : Judge α) (actions : List (Action α)) {x : Segment (Sequence α)}
    (hx : (sequence.run j actions c.session w).session.segment? = some x)
    (script : List (Action α)) (hscript : .close ∉ script) :
    let here := sequence.run j actions c.session w
    let opened := (Zipper.ofList x.values).session x here.session
    let there := sequence.run j script opened here.world
    let zipper := Zipper.behaviour.run j here.session.seat
      (fun z => x.start + z.toList.length + x.tail) script here.world.outside
      (.ofList x.values)
    sequence.act j.observers (.openFrame .listIterator) here.session here.world =
        some (.ok .nothing, opened, here.world) ∧
      here.session.seat.offset = x.start ∧
      there.turns.map Turn.episode = zipper.episodes ∧
      there.session = zipper.state.session x here.session := by
  intro here opened there zipper
  have hhere := (sequence.sound_session hc).run (j := j) actions
  have hoffset : here.session.seat.offset = x.start := by
    obtain ⟨rfl, -, hoffset⟩ := segment?_cases hhere.fits.views hx
    exact hoffset
  obtain ⟨p, mid, hp, rfl⟩ := Place.exists_of_segment? hhere.fits hx
  have hopened : opened = p.session mid (some (0, none)) := by
    change (Zipper.ofList (Segment.around p.pre mid p.suf).values).session _ here.session = _
    rw [Segment.values_around, hp, Zipper.session_around]
    rfl
  have hact : sequence.act j.observers (.openFrame .listIterator) here.session here.world =
      some (.ok .nothing, opened, here.world) := by
    rw [hopened, hp]
    exact p.act_listIterator mid j
  have hseat : p.seat = here.session.seat := by rw [hp, Place.seat_session]
  have hsound : sequence.Sound opened here.world := (hhere.step hact).sound hhere
  have hstands : Zipper.standsAt p opened (.ofList (Segment.around p.pre mid p.suf).values) := by
    rw [Segment.values_around]
    exact hopened
  obtain ⟨hepisodes, hend⟩ := (Zipper.shown p).run j hscript hsound hstands
  rw [hseat] at hepisodes hend
  refine ⟨hact, hoffset, hepisodes, ?_⟩
  rw [hp, Zipper.session_around]
  exact hend

/-- On a sub-list of a sub-list, under a judge who refuses whatever is the third call: an element is
replaced after a step back, its removal is refused once, and so is an insertion in its place. -/
theorem run_zips_nested :
    let k : Standard Int (Sequence Int) PositionCursor := .sequence
    let j : Judge Int := fun heard _ => heard.length % 3 != 2
    let script : List (Action Int) := [.command .removeLast, .move .next, .move .next,
      .move .previous, .command (.setLast 7), .command .removeLast, .command .removeLast,
      .command (.insert 8), .command (.insert 9), .move .previous, .query .nextIndex,
      .move .next, .move .next, .move .next]
    let here := k.run j [.openFrame (.subList 1 5), .openFrame (.subList 1 4)]
      (Watched.alone ⟨[0, 1, 2, 3, 4, 5]⟩).session k.world
    let x : Segment (Sequence Int) := ⟨⟨[0, 1, 2, 3, 4, 5]⟩, 2, 1⟩
    let there := k.run j script ((Zipper.ofList x.values).session x here.session) here.world
    let zipper := Zipper.behaviour.run j here.session.seat
      (fun z => 2 + z.toList.length + 1) script here.world.outside (.ofList x.values)
    (x.values = [2, 3, 4] ∧ zipper.state.toList = [2, 9, 4] ∧ zipper.state.pointed? = some 2) ∧
      here.session.seat.offset = 2 ∧ there.turns.map Turn.episode = zipper.episodes ∧
      there.session = zipper.state.session x here.session :=
  ⟨by decide +kernel,
    (run_zips (c := .alone ⟨([0, 1, 2, 3, 4, 5] : List Int)⟩) (presides_world .sequence _)
      (fun heard _ => heard.length % 3 != 2)
      [.openFrame (.subList 1 5), .openFrame (.subList 1 4)] rfl _ (by simp)).2⟩

end Standard

end WatchedContainers
