import WatchedContainers.Handler.Forest
import WatchedContainers.Proofs.Descent
import WatchedContainers.Proofs.Errands
import WatchedContainers.Proofs.Reentrance

/-!
# Detachment of views

A view knows its root and keeps no handle on it.  So whether a call at the view reaches the root is
a matter of the handles that are out on the root alone: those on the view, on the views between and
on its own views do not count.

* `World.Kept`: the ledger is true, and every handler counts the handles that are out on it.
* `World.Dealing.leads`: whatever is done with a forest keeps the ledger true, and a handler that
  nobody holds a handle on is held by nobody ever after.
* `World.Answers`: what calls at a view come to, in all states of the view and its root.
* `World.Unfolds.answers_view`: **calls at a view come to that** in every forest at every moment.
-/

namespace WatchedContainers

variable {ρ σ α : Type}

/-! ### Ledgers -/

namespace Ledger

variable {l l' : Ledger} {h r u : HandlerRef}

theorem Stems.mono (hviews : l.views ⊆ l'.views) (hs : l.Stems h r) : l'.Stems h r :=
  Relation.ReflTransGen.mono (fun _ _ hxy => hviews hxy) _ _ hs

theorem ViewOf.mono (hroots : l.roots ⊆ l'.roots) (hviews : l.views ⊆ l'.views)
    (hv : l.ViewOf h r) : l'.ViewOf h r where
  view := hv.view.imp fun _ hp => hviews hp
  root := hroots hv.root
  stems := hv.stems.mono hviews

theorem ViewOf.of_stems (hv : l.ViewOf h r) (hs : l.Stems u h) : l.ViewOf u r where
  view := by
    rcases Relation.ReflTransGen.cases_head hs with rfl | ⟨parent, hp, -⟩
    · exact hv.view
    · exact ⟨parent, hp⟩
  root := hv.root
  stems := hs.trans hv.stems

end Ledger

namespace World

/-! ### Counting handles -/

section Handles

variable (w : World ρ σ) (h x : HandlerRef)

variable {w h} in
theorem handler_of_size_le (hle : w.handlers.size ≤ h.index) : w.handler h = .missing := by
  simp [handler, Array.getD_eq_getD_getElem?, Array.getElem?_eq_none hle]

theorem handler_modifyHandler_of_missing {f : Handler → Handler} (hf : f .missing = .missing) :
    (w.modifyHandler h f).handler x = if h = x then f (w.handler x) else w.handler x := by
  by_cases hlt : x.index < w.handlers.size
  · exact handler_modifyHandler w h x f hlt
  · have hle : w.handlers.size ≤ x.index := Nat.le_of_not_lt hlt
    have hle' : (w.modifyHandler h f).handlers.size ≤ x.index := by simpa [modifyHandler] using hle
    rw [handler_of_size_le hle, handler_of_size_le hle', hf, ite_self]

theorem handles_retain :
    ((w.retain h).handler x).handles =
      if h = x ∧ (w.handler x).handles ≠ 0 then (w.handler x).handles + 1
      else (w.handler x).handles := by
  rw [retain, handler_modifyHandler_of_missing w h x rfl]
  by_cases hx : h = x
  · by_cases hzero : (w.handler x).handles = 0 <;> simp [hx, hzero]
  · simp [hx]

theorem handles_release :
    ((w.release h).handler x).handles =
      if h = x then (w.handler x).handles - 1 else (w.handler x).handles := by
  rw [release, handler_modifyHandler_of_missing w h x rfl]
  by_cases hx : h = x <;> simp [hx]

theorem role_retain : ((w.retain h).handler x).role = (w.handler x).role := by
  rw [retain, handler_modifyHandler_of_missing w h x rfl]
  split
  · split <;> rfl
  · rfl

theorem binding_retain : ((w.retain h).handler x).binding = (w.handler x).binding := by
  rw [retain, handler_modifyHandler_of_missing w h x rfl]
  split
  · split <;> rfl
  · rfl

theorem preSize_retain : ((w.retain h).handler x).preSize = (w.handler x).preSize := by
  rw [retain, handler_modifyHandler_of_missing w h x rfl]
  split
  · split <;> rfl
  · rfl

theorem role_release : ((w.release h).handler x).role = (w.handler x).role := by
  rw [release, handler_modifyHandler_of_missing w h x rfl]
  split <;> rfl

theorem binding_release : ((w.release h).handler x).binding = (w.handler x).binding := by
  rw [release, handler_modifyHandler_of_missing w h x rfl]
  split <;> rfl

/-- A handle that is taken and dropped at once leaves no mark. -/
theorem release_retain : (w.retain h).release h = w := by
  have hundo : ∀ x : Handler,
      (let y := if x.handles = 0 then x else { x with handles := x.handles + 1 }
       { y with handles := y.handles - 1 }) = x := by
    rintro ⟨role, binding, depth, config, preSize, handles⟩
    cases handles <;> rfl
  have hhandlers : ((w.retain h).release h).handlers = w.handlers := by
    refine Array.ext_getElem? fun i => ?_
    simp only [release, retain, modifyHandler, Array.getElem?_modify]
    by_cases hi : h.index = i
    · simp only [if_pos hi, Option.map_map]
      exact (congrArg (Option.map · _) (funext hundo)).trans (congrFun Option.map_id _)
    · simp only [if_neg hi]
  cases w
  exact congrArg (fun handlers => World.mk _ handlers _ _) hhandlers

end Handles

/-! ### Ledgers that are kept -/

/-- The ledger is true: every handler counts the handles that are out on it, what it lists as a root
is one, and a view has the root of the bound handler that it was made of. -/
structure Kept (w : LedgerWorld ρ σ) : Prop where
  counted : ∀ h, (w.handler h).handles = w.ledger.out.count h
  root : ∀ r ∈ w.ledger.roots, r.index < w.handlers.size ∧ (w.handler r).isRoot
  view : ∀ h parent, (h, parent) ∈ w.ledger.views → (w.handler h).isView ∧
    (w.handler parent).isBound ∧ (w.handler h).rootOf h = (w.handler parent).rootOf parent

/-- What was listed stays listed, handlers stay what they are and stay bound, and a handler that
nobody holds a handle on is held by nobody ever after. -/
structure Follows (w w' : LedgerWorld ρ σ) : Prop where
  size_le : w.handlers.size ≤ w'.handlers.size
  role : ∀ h : HandlerRef, h.index < w.handlers.size → (w'.handler h).role = (w.handler h).role
  binding : ∀ h, (w.handler h).isBound → (w'.handler h).binding = (w.handler h).binding
  roots : w.ledger.roots ⊆ w'.ledger.roots
  views : w.ledger.views ⊆ w'.ledger.views
  gone : ∀ h : HandlerRef, h.index < w.handlers.size → h ∉ w.ledger.out → h ∉ w'.ledger.out

/-- If the ledger is true it stays so, the new world follows the old one, and calls that last have
lent the same handles. -/
structure Leads (w w' : LedgerWorld ρ σ) : Prop where
  kept : w.Kept → w'.Kept
  follows : w.Kept → w.Follows w'
  lent : w'.ledger.lent = w.ledger.lent

variable {w w' w'' : LedgerWorld ρ σ} {h r parent : HandlerRef}

theorem Follows.refl (w : LedgerWorld ρ σ) : w.Follows w :=
  ⟨Nat.le_refl _, fun _ _ => rfl, fun _ _ => rfl, fun _ => id, fun _ => id, fun _ _ => id⟩

theorem Follows.trans (hw : w.Follows w') (hw' : w'.Follows w'') : w.Follows w'' where
  size_le := Nat.le_trans hw.size_le hw'.size_le
  role h hlt := (hw'.role h (Nat.lt_of_lt_of_le hlt hw.size_le)).trans (hw.role h hlt)
  binding h hb := by
    have hb' : (w'.handler h).isBound := (Handler.isBound_congr (hw.binding h hb)).trans hb
    exact (hw'.binding h hb').trans (hw.binding h hb)
  roots := List.Subset.trans hw.roots hw'.roots
  views := List.Subset.trans hw.views hw'.views
  gone h hlt hout := hw'.gone h (Nat.lt_of_lt_of_le hlt hw.size_le) (hw.gone h hlt hout)

theorem Leads.refl (w : LedgerWorld ρ σ) : w.Leads w := ⟨id, fun _ => .refl w, rfl⟩

theorem Leads.trans (hw : w.Leads w') (hw' : w'.Leads w'') : w.Leads w'' where
  kept h := hw'.kept (hw.kept h)
  follows h := (hw.follows h).trans (hw'.follows (hw.kept h))
  lent := hw'.lent.trans hw.lent

namespace Kept

theorem isLive_iff (hw : w.Kept) (h : HandlerRef) : w.isLive h ↔ h ∈ w.ledger.out := by
  rw [isLive, hw.counted, bne_iff_ne, ← List.count_pos_iff]
  exact Nat.pos_iff_ne_zero.symm

theorem index_lt_of_view (hw : w.Kept) (hview : (h, parent) ∈ w.ledger.views) :
    h.index < w.handlers.size := by
  obtain ⟨hisView, -, -⟩ := hw.view h parent hview
  refine Nat.lt_of_not_le fun hle => ?_
  simp [handler_of_size_le hle, Handler.missing, Handler.isView, Handler.isRoot] at hisView

/-- What finds its root finds one that a handle is out on. -/
theorem mem_out_of_root? (hw : w.Kept) (hh : h ∈ w.ledger.out) (hr : w.root? h = some r) :
    r ∈ w.ledger.out := by
  unfold root? at hr
  split at hr
  · obtain rfl := Option.some.inj hr
    exact hh
  · split at hr
    next hlive =>
      obtain rfl := Option.some.inj hr
      exact (hw.isLive_iff _).1 hlive
    next => simp at hr

end Kept

/-! ### What leads on -/

/-- If handlers stay what they are and only the handles on them change, the ledger has to count
them. -/
theorem leads_of_same (w w' : LedgerWorld ρ σ) (hsize : w'.handlers.size = w.handlers.size)
    (hrole : ∀ h, (w'.handler h).role = (w.handler h).role)
    (hbinding : ∀ h, (w.handler h).isBound → (w'.handler h).binding = (w.handler h).binding)
    (hroots : w'.ledger.roots = w.ledger.roots) (hviews : w'.ledger.views = w.ledger.views)
    (hcounted : w.Kept → ∀ h, (w'.handler h).handles = w'.ledger.out.count h)
    (hgone : w.Kept → ∀ h, h ∉ w.ledger.out → h ∉ w'.ledger.out) :
    (w.Kept → w'.Kept) ∧ (w.Kept → w.Follows w') := by
  refine ⟨fun hw => ⟨hcounted hw, ?_, ?_⟩, fun hw => ⟨Nat.le_of_eq hsize.symm, fun h _ => hrole h,
    hbinding, fun _ hr => hroots.symm ▸ hr, fun _ hp => hviews.symm ▸ hp, fun h _ => hgone hw h⟩⟩
  · intro r hr
    rw [hroots] at hr
    rw [hsize, Handler.isRoot_congr (hrole r)]
    exact hw.root r hr
  · intro h parent hp
    rw [hviews] at hp
    obtain ⟨hisView, hb, hrootOf⟩ := hw.view h parent hp
    refine ⟨?_, (Handler.isBound_congr (hbinding parent hb)).trans hb, ?_⟩
    · rw [Handler.isView, Handler.isRoot_congr (hrole h)]
      exact hisView
    · rw [Handler.rootOf_congr (hrole h), Handler.rootOf_congr (hrole parent)]
      exact hrootOf

theorem Leads.of_handlers (hhandlers : w'.handlers = w.handlers) (hledger : w'.ledger = w.ledger) :
    w.Leads w' := by
  have hh : ∀ h, w'.handler h = w.handler h := by
    intro h
    rw [handler, hhandlers, handler]
  obtain ⟨hkept, hfollows⟩ := leads_of_same w w' (by rw [hhandlers])
    (fun h => congrArg _ (hh h)) (fun h _ => congrArg _ (hh h)) (by rw [hledger]) (by rw [hledger])
    (fun hw h => by rw [hh, hledger, hw.counted]) (fun _ h => by rw [hledger]; exact id)
  exact ⟨hkept, hfollows, by rw [hledger]⟩

theorem Leads.of_modifyHandler (w : LedgerWorld ρ σ) (ref : HandlerRef) {f : Handler → Handler}
    (hrole : ∀ x, (f x).role = x.role) (hhandles : ∀ x, (f x).handles = x.handles)
    (hbinding : (w.handler ref).isBound → (f (w.handler ref)).binding = (w.handler ref).binding) :
    w.Leads (w.modifyHandler ref f) := by
  have hh : ∀ h : HandlerRef, (w.modifyHandler ref f).handler h = w.handler h ∨
      ref = h ∧ (w.modifyHandler ref f).handler h = f (w.handler h) := by
    intro h
    by_cases hlt : h.index < w.handlers.size
    · rw [handler_modifyHandler _ _ _ _ hlt]
      by_cases heq : ref = h
      · exact .inr ⟨heq, if_pos heq⟩
      · exact .inl (if_neg heq)
    · have hle : w.handlers.size ≤ h.index := Nat.le_of_not_lt hlt
      have hle' : (w.modifyHandler ref f).handlers.size ≤ h.index := by
        simpa [modifyHandler] using hle
      exact .inl ((handler_of_size_le hle').trans (handler_of_size_le hle).symm)
  obtain ⟨hkept, hfollows⟩ := leads_of_same w (w.modifyHandler ref f)
    (by simp [modifyHandler])
    (fun h => by rcases hh h with heq | ⟨-, heq⟩ <;> simp [heq, hrole])
    (fun h hb => by
      rcases hh h with heq | ⟨rfl, heq⟩
      · rw [heq]
      · rw [heq]
        exact hbinding hb)
    rfl rfl
    (fun hw h => by
      rw [show (w.modifyHandler ref f).ledger = w.ledger from rfl, ← hw.counted]
      rcases hh h with heq | ⟨-, heq⟩ <;> simp [heq, hhandles])
    (fun _ _ => id)
  exact ⟨hkept, hfollows, rfl⟩

theorem leads_of_retain {f : Ledger → Ledger} (hroots : (f w.ledger).roots = w.ledger.roots)
    (hviews : (f w.ledger).views = w.ledger.views)
    (hout : ∀ x, (f w.ledger).out.count x = w.ledger.out.count x + if h = x then 1 else 0)
    (hh : w.Kept → h ∈ w.ledger.out) :
    (w.Kept → ((w.retain h).enter f).Kept) ∧ (w.Kept → w.Follows ((w.retain h).enter f)) := by
  refine leads_of_same _ _ (by simp [enter, retain, modifyHandler]) (role_retain w h)
    (fun x _ => binding_retain w h x) hroots hviews (fun hw x => ?_) (fun hw x hx => ?_)
  · have hcounted := hw.counted x
    have hpos := List.count_pos_iff.2 (hh hw)
    change ((w.retain h).handler x).handles = (f w.ledger).out.count x
    rw [handles_retain, hout, hcounted]
    by_cases hx : h = x
    · subst hx
      rw [if_pos ⟨rfl, by omega⟩, if_pos rfl]
    · rw [if_neg fun h => hx h.1, if_neg hx, Nat.add_zero]
  · have hne : h ≠ x := fun heq => hx (heq ▸ hh hw)
    have hcount : (f w.ledger).out.count x = 0 := by
      rw [hout, if_neg hne, Nat.add_zero]
      exact List.count_eq_zero.2 hx
    exact List.count_eq_zero.1 hcount

theorem leads_of_release {f : Ledger → Ledger} (hroots : (f w.ledger).roots = w.ledger.roots)
    (hviews : (f w.ledger).views = w.ledger.views)
    (hout : ∀ x, (f w.ledger).out.count x = w.ledger.out.count x - if h = x then 1 else 0) :
    (w.Kept → ((w.release h).enter f).Kept) ∧ (w.Kept → w.Follows ((w.release h).enter f)) := by
  refine leads_of_same _ _ (by simp [enter, release, modifyHandler]) (role_release w h)
    (fun x _ => binding_release w h x) hroots hviews (fun hw x => ?_) (fun _ x hx => ?_)
  · change ((w.release h).handler x).handles = (f w.ledger).out.count x
    rw [handles_release, hout, hw.counted]
    split <;> rfl
  · have hcount : (f w.ledger).out.count x = 0 := by
      rw [hout, List.count_eq_zero.2 hx, Nat.zero_sub]
    exact List.count_eq_zero.1 hcount

theorem leads_take (hh : w.Kept → h ∈ w.ledger.out) : w.Leads (w.take h) := by
  obtain ⟨hkept, hfollows⟩ := leads_of_retain (w := w) (h := h)
    (f := fun l => { l with held := h :: l.held }) rfl rfl
    (fun x => by simp [Ledger.out, List.count_cons, Nat.add_right_comm]) hh
  exact ⟨hkept, hfollows, rfl⟩

theorem leads_drop (hh : h ∈ w.ledger.held) : w.Leads (w.drop h) := by
  obtain ⟨hkept, hfollows⟩ := leads_of_release (w := w) (h := h)
    (f := fun l => { l with held := l.held.erase h }) rfl rfl
    (fun x => by
      have hpos := List.count_pos_iff.2 hh
      simp only [Ledger.out, List.count_append, List.count_erase, beq_iff_eq]
      split
      next heq =>
        subst heq
        omega
      next => rfl)
  exact ⟨hkept, hfollows, rfl⟩

/-- What happens while a call holds a handle on its root. -/
theorem leads_lent {v : LedgerWorld ρ σ} (hr : w.Kept → r ∈ w.ledger.out)
    (hv : (w.lend r).Leads v) : w.Leads (v.reclaim r) := by
  obtain ⟨hlend, hlends⟩ := leads_of_retain (w := w) (h := r)
    (f := fun l => { l with lent := r :: l.lent }) rfl rfl
    (fun x => by simp [Ledger.out, List.count_cons, Nat.add_assoc]) hr
  have hlent : v.ledger.lent = r :: w.ledger.lent := hv.lent
  obtain ⟨hreclaim, hreclaims⟩ := leads_of_release (w := v) (h := r)
    (f := fun l => { l with lent := l.lent.erase r }) rfl rfl
    (fun x => by
      simp only [Ledger.out, List.count_append, List.count_erase, beq_iff_eq, hlent,
        List.count_cons]
      split <;> omega)
  refine ⟨fun hw => hreclaim (hv.kept (hlend hw)), fun hw => ?_, ?_⟩
  · exact ((hlends hw).trans (hv.follows (hlend hw))).trans (hreclaims (hv.kept (hlend hw)))
  · change v.ledger.lent.erase r = w.ledger.lent
    rw [hlent, List.erase_cons_head]

theorem leads_during {β : Type} {call : LedgerWorld ρ σ → β × LedgerWorld ρ σ}
    (hh : h ∈ w.ledger.out) (hcall : ∀ v : LedgerWorld ρ σ, v.Leads (call v).2) :
    w.Leads (w.during h call).2 := by
  unfold during
  cases hr : w.root? h with
  | none => exact hcall w
  | some r => exact leads_lent (fun hw => hw.mem_out_of_root? hh hr) (hcall (w.lend r))

theorem handles_addHandler {x : Handler} {f : Ledger → Ledger} (hx : x.handles = 1)
    (hout : (f w.ledger).out = ⟨w.handlers.size⟩ :: w.ledger.out) (hw : w.Kept) (h : HandlerRef) :
    (((w.addHandler x).2.enter f).handler h).handles = (f w.ledger).out.count h := by
  have hcounted := hw.counted h
  rw [hout, List.count_cons, ← hcounted]
  by_cases heq : (⟨w.handlers.size⟩ : HandlerRef) = h
  · subst heq
    have hself : ((w.addHandler x).2.enter f).handler ⟨w.handlers.size⟩ = x :=
      w.handler_addHandler_self x
    have hnone : w.handler ⟨w.handlers.size⟩ = .missing := handler_of_size_le (Nat.le_refl _)
    rw [hself, hx, hnone]
    simp [Handler.missing]
  · rw [beq_eq_false_iff_ne.2 heq]
    refine (congrArg Handler.handles ?_).trans (Nat.add_zero _).symm
    by_cases hlt : h.index < w.handlers.size
    · exact handler_addHandler w x hlt
    · have hle : w.handlers.size ≤ h.index := Nat.le_of_not_lt hlt
      have hne : h.index ≠ w.handlers.size := fun hindex => heq (congrArg HandlerRef.mk hindex.symm)
      have hle' : ((w.addHandler x).2.enter f).handlers.size ≤ h.index := by
        simp only [enter, addHandler, Array.size_push]
        omega
      exact (handler_of_size_le hle').trans (handler_of_size_le hle).symm

theorem leads_addHandler {x : Handler} {f : Ledger → Ledger} (hx : x.handles = 1)
    (hout : (f w.ledger).out = ⟨w.handlers.size⟩ :: w.ledger.out)
    (hlent : (f w.ledger).lent = w.ledger.lent)
    (hroots : w.ledger.roots ⊆ (f w.ledger).roots) (hviews : w.ledger.views ⊆ (f w.ledger).views)
    (hroot : ∀ r ∈ (f w.ledger).roots, r ∈ w.ledger.roots ∨ r = ⟨w.handlers.size⟩ ∧ x.isRoot)
    (hview : ∀ h p, (h, p) ∈ (f w.ledger).views → (h, p) ∈ w.ledger.views ∨
      h = ⟨w.handlers.size⟩ ∧ x.isView ∧ (w.handler p).isBound ∧
        x.rootOf h = (w.handler p).rootOf p) :
    w.Leads ((w.addHandler x).2.enter f) := by
  have hold : ∀ h : HandlerRef, h.index < w.handlers.size →
      ((w.addHandler x).2.enter f).handler h = w.handler h := fun h hlt =>
    handler_addHandler w x hlt
  have hnew : ((w.addHandler x).2.enter f).handler ⟨w.handlers.size⟩ = x :=
    w.handler_addHandler_self x
  have hsize : ((w.addHandler x).2.enter f).handlers.size = w.handlers.size + 1 := by
    simp [enter, addHandler]
  refine ⟨fun hw => ⟨handles_addHandler hx hout hw, fun r hr => ?_, fun h p hp => ?_⟩,
    fun hw => ⟨by omega, fun h hlt => congrArg _ (hold h hlt),
      fun h hb => congrArg _ (hold h (index_lt_of_isBound hb)), hroots, hviews,
      fun h hlt hh => ?_⟩, hlent⟩
  · rw [hsize]
    rcases hroot r hr with hr | ⟨rfl, hisRoot⟩
    · obtain ⟨hlt, hisRoot⟩ := hw.root r hr
      rw [hold r hlt]
      exact ⟨Nat.lt_succ_of_lt hlt, hisRoot⟩
    · rw [hnew]
      exact ⟨Nat.lt_succ_self _, hisRoot⟩
  · rcases hview h p hp with hp | ⟨rfl, hisView, hb, hrootOf⟩
    · obtain ⟨hisView, hb, hrootOf⟩ := hw.view h p hp
      rw [hold h (hw.index_lt_of_view hp), hold p (index_lt_of_isBound hb)]
      exact ⟨hisView, hb, hrootOf⟩
    · rw [hnew, hold p (index_lt_of_isBound hb)]
      exact ⟨hisView, hb, hrootOf⟩
  · change h ∉ (f w.ledger).out
    rw [hout, List.mem_cons, not_or]
    refine ⟨?_, hh⟩
    rintro rfl
    exact Nat.lt_irrefl _ hlt

/-! ### Traces, views and bindings -/

variable {obs : Observers ρ (σ × Ledger) α}

theorem emit_eq (hobs : obs.Clerical) (w : LedgerWorld ρ σ) (t : Trace α) :
    w.emit obs t = { w with outside := ((obs.trace t (w.outside.1, {})).1, w.outside.2) } :=
  congrArg (fun x => { w with outside := x }) (hobs t w.outside.1 w.outside.2)

theorem leads_emit (hobs : obs.Clerical) (w : LedgerWorld ρ σ) (t : Trace α) :
    w.Leads (w.emit obs t) := by
  rw [emit_eq hobs]
  exact .of_handlers rfl rfl

def MakesView (obs : Observers ρ σ α) (w : World ρ σ) (h ref : HandlerRef) (w' : World ρ σ) :
    Prop :=
  ∃ t x, x.handles = 1 ∧ x.isView ∧ (w.handler h).isBound ∧
    (∀ self, x.rootOf self = (w.handler h).rootOf h) ∧ ref = ⟨w.handlers.size⟩ ∧
    w' = ((w.emit obs t).addHandler x).2

theorem makesView_of_makeRangeView {obs : Observers ρ σ α} {w w' : World ρ σ} {ref : HandlerRef}
    {start stop : Nat} (hview : w.makeRangeView obs h start stop = (.ok ref, w')) :
    MakesView obs w h ref w' := by
  unfold makeRangeView at hview
  simp only at hview
  split at hview
  · simp at hview
  next hbound =>
    split at hview
    · simp at hview
    · cases hdepth : depthBelow (w.handler h) with
      | error e => simp [hdepth] at hview
      | ok depth =>
        rw [hdepth] at hview
        cases hview
        exact ⟨_, _, rfl, rfl, by simpa using hbound, fun _ => rfl, rfl, rfl⟩

theorem makesView_of_makeKeyedView {obs : Observers ρ σ α} {w w' : World ρ σ} {ref : HandlerRef}
    (hview : w.makeKeyedView obs h = (.ok ref, w')) : MakesView obs w h ref w' := by
  unfold makeKeyedView at hview
  simp only at hview
  split at hview
  · simp at hview
  next hbound =>
    cases hdepth : depthBelow (w.handler h) with
    | error e => simp [hdepth] at hview
    | ok depth =>
      rw [hdepth] at hview
      cases hview
      exact ⟨_, _, rfl, rfl, by simpa using hbound, fun _ => rfl, rfl, rfl⟩

theorem leads_view {ref : HandlerRef} (hobs : obs.Clerical) (hview : MakesView obs w h ref w') :
    w.Leads (w'.enter (.withView ref h)) := by
  obtain ⟨t, x, hhandles, hisView, hbound, hrootOf, rfl, rfl⟩ := hview
  refine (leads_emit hobs w t).trans (leads_addHandler hhandles rfl rfl (fun _ => id)
    (List.subset_cons_self ..) (fun _ => .inl) fun y p hp => ?_)
  rcases List.mem_cons.1 hp with heq | hp
  · obtain ⟨rfl, rfl⟩ := Prod.mk.inj heq
    exact .inr ⟨rfl, hisView, hbound, hrootOf _⟩
  · exact .inl hp

theorem leads_root (w : LedgerWorld ρ σ) (hooks : HooksRef) (config : Config) :
    w.Leads ((w.rootOver hooks config).2.enter (.withRoot (w.rootOver hooks config).1)) := by
  refine leads_addHandler rfl rfl rfl (List.subset_cons_self ..) (fun _ => id) (fun r hr => ?_)
    fun _ _ => .inl
  rcases List.mem_cons.1 hr with rfl | hr
  · exact .inr ⟨rfl, rfl⟩
  · exact .inl hr

theorem leads_bind (hobs : obs.Clerical) (w : LedgerWorld ρ σ) (h : HandlerRef) (id : ContainerId)
    (caps : Capabilities) : w.Leads (w.bind obs h id caps).2 := by
  unfold bind
  split
  · exact .refl w
  · split
    · exact .refl w
    next hunbound =>
      have hbound : w.Leads (w.modifyHandler h fun x => { x with binding := some ⟨id, caps⟩ }) :=
        .of_modifyHandler w h (fun _ => rfl) (fun _ => rfl) fun hb => absurd hb hunbound
      exact hbound.trans (leads_emit hobs ..)

/-! ### Calls -/

theorem leads_registerAt (hobs : obs.Clerical) (w : LedgerWorld ρ σ) (ref : HooksRef)
    (s : ManagedHooks ρ) (p : Phase) (l : ρ) (mask : Mask) :
    w.Leads (w.registerAt obs ref s p l mask) := by
  have hset : ∀ hooks, w.Leads (w.setHooks ref hooks) := fun hooks => .of_handlers rfl rfl
  exact (hset _).trans (leads_emit hobs ..)

theorem leads_onManagedHooks {β : Type} {operation : String}
    {f : HooksRef → ManagedHooks ρ → LedgerWorld ρ σ → β × LedgerWorld ρ σ} (hobs : obs.Clerical)
    (hf : ∀ ref s (w : LedgerWorld ρ σ), w.Leads (f ref s w).2) (w : LedgerWorld ρ σ)
    (h : HandlerRef) : w.Leads (w.onManagedHooks obs h operation f).2 := by
  rcases onManagedHooks_cases obs w h operation f with heq | ⟨t, -, heq⟩ | ⟨ref, s, -, heq⟩
  · rw [heq]
    exact .refl w
  · rw [heq]
    exact leads_emit hobs w t
  · rw [heq]
    exact hf ref s w

end World

structure Observers.Leading (obs : Observers ρ (σ × Ledger) α) : Prop where
  clerical : obs.Clerical
  decide : ∀ party e (w : LedgerWorld ρ σ), w.Leads (obs.decide party e w).2
  notify : ∀ party e (w : LedgerWorld ρ σ), w.Leads (obs.notify party e w)

namespace Observers.Leading

variable {obs : Observers ρ (σ × Ledger) α} (ho : obs.Leading)

include ho

theorem poised (w : LedgerWorld ρ σ) (found : HandlerRef) (e : Event α) :
    w.Leads (w.poised obs found e) :=
  have hremember : w.Leads (w.modifyHandler found fun x => { x with preSize := e.preSize }) :=
    .of_modifyHandler w found (fun _ => rfl) (fun _ => rfl) fun _ => rfl
  hremember.trans (World.leads_emit ho.clerical ..)

theorem propose (w : LedgerWorld ρ σ) (h : HandlerRef) (m : Modification α) (size : Nat) :
    w.Leads (w.propose obs h m size).2 :=
  World.propose_induction .refl .trans ho.decide (fun w t _ => World.leads_emit ho.clerical w t)
    (fun w found _ _ _ _ => ho.poised w found _) w h m size

theorem conclude [ObjectIdentity α] (w : LedgerWorld ρ σ) (h : HandlerRef) (c : Completion α)
    (size : Nat) : w.Leads (w.conclude obs h c size).2 :=
  World.conclude_induction .refl .trans ho.notify (fun w t _ => World.leads_emit ho.clerical w t)
    w h c size

end Observers.Leading

/-! ### Dealings -/

section Dealings

variable [DecidableEq ρ] [ObjectIdentity α] {obs : Observers ρ (σ × Ledger) α}
  {w w' : LedgerWorld ρ σ}

/-- **Every dealing leads on** if the parties that answer it do. -/
theorem World.Dealing.leads {inner : Observers ρ (σ × Ledger) α → Prop}
    (hinner : ∀ obs, inner obs → obs.Leading) (h : World.Dealing inner w w') : w.Leads w' := by
  cases h with
  | root _ hooks config => exact leads_root w hooks config
  | rangeView obs hobs _ w' h ref start stop hh hview =>
    exact leads_view hobs (makesView_of_makeRangeView hview)
  | keyedView obs hobs _ w' h ref hh hview =>
    exact leads_view hobs (makesView_of_makeKeyedView hview)
  | bind obs hobs _ h id caps hh => exact leads_bind hobs w h id caps
  | take _ h hh => exact leads_take fun _ => List.mem_append_left _ hh
  | drop _ h hh => exact leads_drop hh
  | findRoot _ h r hh hr => exact leads_take fun hw => hw.mem_out_of_root? hh hr
  | propose obs hobs _ h m size hh =>
    exact leads_during hh fun v => (hinner obs hobs).propose v h m size
  | conclude obs hobs _ h c size hh =>
    exact leads_during hh fun v => (hinner obs hobs).conclude v h c size
  | addListener obs hobs _ h p l mask hh =>
    exact leads_onManagedHooks hobs (fun ref s w => leads_registerAt hobs w ref s p l mask) w h
  | removeListener obs hobs _ h p l hh =>
    exact leads_onManagedHooks hobs (fun ref s w => .of_handlers rfl rfl) w h
  | elsewhere _ _ hhandlers hledger => exact .of_handlers hhandlers hledger

theorem World.leads_of_dealings {inner : Observers ρ (σ × Ledger) α → Prop}
    (hinner : ∀ obs, inner obs → obs.Leading)
    (h : Relation.ReflTransGen (World.Dealing inner) w w') : w.Leads w' := by
  induction h with
  | refl => exact .refl w
  | tail _ hdealing ih => exact ih.trans (hdealing.leads hinner)

theorem Observers.DealsBy.leading {inner : Observers ρ (σ × Ledger) α → Prop}
    (hinner : ∀ obs, inner obs → obs.Leading) (h : obs.DealsBy (World.Dealing inner)) :
    obs.Leading where
  clerical := h.clerical
  decide party e w := World.leads_of_dealings hinner (h.decide party e w)
  notify party e w := World.leads_of_dealings hinner (h.notify party e w)

/-- **Parties that deal with the forest lead on**, however deep their calls are nested. -/
theorem Observers.Deals.leading {depth : Nat} (h : obs.Deals depth) : obs.Leading := by
  induction depth generalizing obs with
  | zero => exact DealsBy.leading (fun _ hnone => hnone.elim) h
  | succ depth ih => exact DealsBy.leading (fun _ hinner => ih hinner) h

theorem World.Unfolds.leads {depth : Nat} (h : w.Unfolds α depth w') : w.Leads w' :=
  leads_of_dealings (fun _ hobs => hobs.leading) h

omit [DecidableEq ρ] [ObjectIdentity α] in
theorem World.Bare.kept (hw : w.Bare) : w.Kept := by
  have hmissing : ∀ h, w.handler h = .missing := fun h =>
    handler_of_size_le (by rw [hw.handlers]; exact Nat.zero_le _)
  refine ⟨fun h => ?_, ?_, ?_⟩
  · rw [hmissing, hw.ledger]
    rfl
  · rw [hw.ledger]
    simp
  · rw [hw.ledger]
    simp

end Dealings

/-! ### Calls at a view -/

namespace World

section Calls

variable {w : LedgerWorld ρ σ} {h r : HandlerRef} {obs : Observers ρ (σ × Ledger) α}

theorem handler_drop (w : LedgerWorld ρ σ) (r h : HandlerRef) :
    (w.drop r).handler h = (w.release r).handler h := rfl

theorem handler_lend (w : LedgerWorld ρ σ) (r h : HandlerRef) :
    (w.lend r).handler h = (w.retain r).handler h := rfl

/-- A handle that a call takes and drops at once leaves no mark. -/
theorem reclaim_lend (w : LedgerWorld ρ σ) (r : HandlerRef) : (w.lend r).reclaim r = w := by
  have hledger : w.enter (fun l => { l with lent := (r :: l.lent).erase r }) = w := by
    simp only [enter, List.erase_cons_head]
  have hreclaim : (w.lend r).reclaim r =
      ((w.retain r).release r).enter fun l => { l with lent := (r :: l.lent).erase r } := rfl
  rw [hreclaim, release_retain, hledger]

/-- Nor if something was traced in between. -/
theorem reclaim_emit_lend (hobs : obs.Clerical) (w : LedgerWorld ρ σ) (r : HandlerRef)
    (t : Trace α) : ((w.lend r).emit obs t).reclaim r = w.emit obs t := by
  rw [emit_eq hobs, emit_eq hobs]
  exact congrArg (fun v : LedgerWorld ρ σ =>
    { v with outside := ((obs.trace t (w.outside.1, {})).1, v.outside.2) }) (w.reclaim_lend r)

/-- A call that only looks at what its handler is bound to leaves no mark but its own trace. -/
theorem during_eq_self {β : Type} {call : LedgerWorld ρ σ → β × LedgerWorld ρ σ} {b : β}
    (hcall : ∀ v : LedgerWorld ρ σ, (v.handler h).binding = (w.handler h).binding →
      call v = (b, v)) : w.during h call = (b, w) := by
  unfold during
  cases w.root? h with
  | none => exact hcall w rfl
  | some r =>
    have hlent := hcall (w.lend r) (binding_retain w r h)
    simp only [hlent, reclaim_lend]

theorem during_eq_emit {β : Type} {call : LedgerWorld ρ σ → β × LedgerWorld ρ σ} {b : β}
    (hobs : obs.Clerical) {t : Trace α} (hcall : ∀ v, call v = (b, v.emit obs t)) :
    w.during h call = (b, w.emit obs t) := by
  unfold during
  cases w.root? h with
  | none => exact hcall w
  | some r => simp only [hcall, reclaim_emit_lend hobs]

theorem Kept.rootOf_eq (hw : w.Kept) (hs : w.ledger.Stems h r) :
    (w.handler h).rootOf h = (w.handler r).rootOf r := by
  induction hs with
  | refl => rfl
  | tail _ hview ih => exact ih.trans (hw.view _ _ hview).2.2

/-- The handler is a view, and knows the root it stems from, which is bound. -/
structure Knows (w : LedgerWorld ρ σ) (h r : HandlerRef) : Prop where
  isView : (w.handler h).isView
  rootOf : (w.handler h).rootOf h = r
  isRoot : (w.handler r).isRoot
  bound : (w.handler r).isBound

theorem Kept.knows (hw : w.Kept) (hv : w.ledger.ViewOf h r) : w.Knows h r := by
  obtain ⟨parent, hparent⟩ := hv.view
  obtain ⟨hisView, -, -⟩ := hw.view h parent hparent
  obtain ⟨-, hisRoot⟩ := hw.root r hv.root
  refine ⟨hisView, (hw.rootOf_eq hv.stems).trans (Handler.rootOf_of_isRoot hisRoot r), hisRoot, ?_⟩
  -- the last view on the way up was made of the root itself
  rcases Relation.ReflTransGen.cases_tail hv.stems with heq | ⟨z, -, hz⟩
  · subst heq
    simp [Handler.isView, hisRoot] at hisView
  · exact (hw.view z r hz).2.1

/-- The error of a call that needs the root when the root is gone, and its trace. -/
def rootless {β : Type} (obs : Observers ρ (σ × Ledger) α) (h : HandlerRef)
    (w : LedgerWorld ρ σ) : Except Error β × LedgerWorld ρ σ :=
  (.error .rootDetached, w.emit obs (.rootGone (w.handler h).viewOffset))

/-- **What calls at the view `h` of the root `r` come to.**  It depends on the handles that are out
on the root, and on whether the view is bound. -/
structure Answers [DecidableEq ρ] [ObjectIdentity α] (obs : Observers ρ (σ × Ledger) α)
    (w : LedgerWorld ρ σ) (h r : HandlerRef) : Prop where
  live : w.isLive r ↔ r ∈ w.ledger.out
  root : w.root? h = if r ∈ w.ledger.out then some r else none
  reached : r ∈ w.ledger.out →
    ∃ ref, (w.handler r).role = .root ref ∧ w.reachHooks obs h = (.ok ref, w)
  lost : r ∉ w.ledger.out → w.reachHooks obs h = w.rootless obs h
  addListener : ∀ p l mask, w.addListener obs h p l mask =
    if r ∈ w.ledger.out then w.addListener obs r p l mask else w.rootless obs h
  removeListener : ∀ p l, w.removeListener obs h p l =
    if r ∈ w.ledger.out then w.removeListener obs r p l else w.rootless obs h
  listeners : ∀ p, w.listeners obs h p =
    if r ∈ w.ledger.out then w.listeners obs r p else w.rootless obs h
  /-- A bound view whose root is held hands its calls over to the root's hooks. -/
  attached : ∀ b, (w.handler h).binding = some b → r ∈ w.ledger.out →
    ∃ observed, (w.handler r).container? = some observed ∧
      let seat : Seat := ⟨r, observed, some ⟨b.container, (w.handler h).viewOffset⟩⟩
      (∀ m size,
        let asked := (w.lend r).ask obs r (seat.before m size)
        w.during h (·.propose obs h m size) = (.ok asked.1, asked.2.reclaim r)) ∧
      ∀ c size, c.absent? = none →
        let told := (w.lend r).tell obs r (seat.after c (w.handler r).preSize size)
        w.during h (·.conclude obs h c size) = (.ok (), told.reclaim r)
  /-- If the root is gone no hooks are called. -/
  detached : ∀ b, (w.handler h).binding = some b → r ∉ w.ledger.out →
    (∀ m size, w.during h (·.propose obs h m size) = w.rootless obs h) ∧
      ∀ c size, c.absent? = none → w.during h (·.conclude obs h c size) = w.rootless obs h
  unbound : (w.handler h).binding = none →
    (∀ m size, w.during h (·.propose obs h m size) = (.error .notBound, w)) ∧
      ∀ c size, c.absent? = none → w.during h (·.conclude obs h c size) = (.error .notBound, w)
  /-- A removal that found nothing is well, whatever the state. -/
  absent : ∀ c size kind, c.absent? = some kind →
    w.during h (·.conclude obs h c size) = (.ok (), w.emit obs (.nothingRemoved kind))

namespace Knows

variable (hk : w.Knows h r)

include hk

theorem root?_eq : w.root? h = if w.isLive r then some r else none := by
  have hisView := hk.isView
  have hnot : (w.handler h).isRoot = false := by simpa [Handler.isView] using hisView
  simp only [root?, hnot, Bool.false_eq_true, if_false, hk.rootOf]

theorem root?_self : w.root? r = some r := by simp [root?, hk.isRoot]

theorem lend : (w.lend r).Knows h r where
  isView := by
    rw [Handler.isView, handler_lend, Handler.isRoot_congr (role_retain w r h)]
    exact hk.isView
  rootOf := by
    rw [handler_lend, Handler.rootOf_congr (role_retain w r h)]
    exact hk.rootOf
  isRoot := by
    rw [handler_lend, Handler.isRoot_congr (role_retain w r r)]
    exact hk.isRoot
  bound := by
    rw [handler_lend, Handler.isBound_congr (binding_retain w r r)]
    exact hk.bound

theorem seated {b : Binding} {observed : ContainerId} (hlive : w.isLive r)
    (hb : (w.handler h).binding = some b) (hobserved : (w.handler r).container? = some observed) :
    w.Seated h ⟨r, observed, some ⟨b.container, (w.handler h).viewOffset⟩⟩ where
  hosts := ⟨hk.isRoot, hobserved, hlive⟩
  reaches := by rw [hk.root?_eq, if_pos hlive]
  seen := by
    have hnot : ¬ (w.handler h).isRoot := by simpa [Handler.isView] using hk.isView
    exact ⟨b.container, by simp [Handler.container?, hb], by rw [viewpoint?, if_neg hnot]⟩

/-- Listeners are managed at the root, or not at all. -/
theorem onManagedHooks {β : Type} (operation : String)
    (f : HooksRef → ManagedHooks ρ → LedgerWorld ρ σ → β × LedgerWorld ρ σ) :
    w.onManagedHooks obs h operation f =
      if w.isLive r then w.onManagedHooks obs r operation f else w.rootless obs h := by
  by_cases hlive : w.isLive r
  · have hh : w.root? h = some r := by rw [hk.root?_eq, if_pos hlive]
    rw [if_pos hlive, World.onManagedHooks_eq operation f hh hk.root?_self]
  · rw [if_neg hlive, World.onManagedHooks, reachHooks, reachRoot, hk.root?_eq, if_neg hlive]
    rfl

end Knows

/-! ### Answers -/

variable [ObjectIdentity α]

omit [ObjectIdentity α] in
theorem propose_of_unbound (obs : Observers ρ (σ × Ledger) α)
    (hb : (w.handler h).binding = none) (m : Modification α) (size : Nat) :
    w.propose obs h m size = (.error .notBound, w) := by
  simp only [propose, hb]

theorem conclude_of_unbound (obs : Observers ρ (σ × Ledger) α)
    (hb : (w.handler h).binding = none) {c : Completion α} (hc : c.absent? = none) (size : Nat) :
    w.conclude obs h c size = (.error .notBound, w) := by
  simp only [conclude, hc, hb]

omit [ObjectIdentity α] in
theorem propose_of_rootless {b : Binding} (hb : (w.handler h).binding = some b)
    (hr : w.root? h = none) (m : Modification α) (size : Nat) :
    w.propose obs h m size = w.rootless obs h := by
  simp only [propose, hb, reachRoot, hr, rootless]

theorem conclude_of_rootless {b : Binding} (hb : (w.handler h).binding = some b)
    (hr : w.root? h = none) {c : Completion α} (hc : c.absent? = none) (size : Nat) :
    w.conclude obs h c size = w.rootless obs h := by
  simp only [conclude, hc, hb, reachRoot, hr, rootless]

theorem conclude_of_absent (obs : Observers ρ (σ × Ledger) α) (w : LedgerWorld ρ σ)
    (h : HandlerRef) {c : Completion α} {kind : Kind} (hc : c.absent? = some kind) (size : Nat) :
    w.conclude obs h c size = (.ok (), w.emit obs (.nothingRemoved kind)) := by
  simp only [conclude, hc]

theorem Knows.attached (hk : w.Knows h r) (hlive : (w.lend r).isLive r) (hr : w.root? h = some r)
    {b : Binding} (hb : (w.handler h).binding = some b) :
    ∃ observed, (w.handler r).container? = some observed ∧
      let seat : Seat := ⟨r, observed, some ⟨b.container, (w.handler h).viewOffset⟩⟩
      (∀ m size,
        let asked := (w.lend r).ask obs r (seat.before m size)
        w.during h (·.propose obs h m size) = (.ok asked.1, asked.2.reclaim r)) ∧
      ∀ c size, c.absent? = none →
        let told := (w.lend r).tell obs r (seat.after c (w.handler r).preSize size)
        w.during h (·.conclude obs h c size) = (.ok (), told.reclaim r) := by
  obtain ⟨b', hb'⟩ := Option.isSome_iff_exists.1 hk.bound
  have hobserved : (w.handler r).container? = some b'.container := by
    simp [Handler.container?, hb']
  have hseat : (w.lend r).Seated h
      ⟨r, b'.container, some ⟨b.container, (w.handler h).viewOffset⟩⟩ := by
    have hseat := hk.lend.seated hlive ((binding_retain w r h).trans hb)
      ((Handler.container?_congr (binding_retain w r r)).trans hobserved)
    rwa [handler_lend, Handler.viewOffset_congr (role_retain w r h)] at hseat
  have hsize : ((w.lend r).handler r).preSize = (w.handler r).preSize := preSize_retain w r r
  refine ⟨b'.container, hobserved, fun m size => ?_, fun c size hc => ?_⟩
  · simp only [during, hr, hseat.propose obs m size]
  · simp only [during, hr, hseat.conclude obs c size, report, hc, hsize]

/-- **What calls at a view come to** if the ledger is true. -/
theorem Kept.answers [DecidableEq ρ] (hw : w.Kept) (hv : w.ledger.ViewOf h r)
    (hobs : obs.Clerical) : w.Answers obs h r := by
  have hk := hw.knows hv
  have hlive := hw.isLive_iff r
  have hroot : w.root? h = if r ∈ w.ledger.out then some r else none := by
    rw [hk.root?_eq]
    exact if_congr hlive rfl rfl
  have hmanaged : ∀ {β : Type} (operation : String)
      (f : HooksRef → ManagedHooks ρ → LedgerWorld ρ σ → β × LedgerWorld ρ σ),
      w.onManagedHooks obs h operation f =
        if r ∈ w.ledger.out then w.onManagedHooks obs r operation f else w.rootless obs h := by
    intro β operation f
    rw [hk.onManagedHooks]
    exact if_congr hlive rfl rfl
  refine ⟨hlive, hroot, fun hr => ?_, fun hr => ?_, fun p l mask => hmanaged _ _,
    fun p l => hmanaged _ _, fun p => hmanaged _ _, fun b hb hr => ?_, fun b hb hr => ?_,
    fun hb => ?_, fun c size kind hc => ?_⟩
  · obtain ⟨ref, href⟩ : ∃ ref, (w.handler r).role = .root ref := by
      have hisRoot := hk.isRoot
      unfold Handler.isRoot at hisRoot
      split at hisRoot
      next ref href => exact ⟨ref, href⟩
      next => simp at hisRoot
    rw [if_pos hr] at hroot
    exact ⟨ref, href, by simp only [reachHooks, reachRoot, hroot, href]⟩
  · rw [if_neg hr] at hroot
    simp only [reachHooks, reachRoot, hroot, rootless]
  · rw [if_pos hr] at hroot
    refine hk.attached ?_ hroot hb
    have hcounted := hw.counted r
    have hpos := List.count_pos_iff.2 hr
    rw [isLive, handler_lend, handles_retain, hcounted, if_pos ⟨rfl, by omega⟩]
    rfl
  · rw [if_neg hr] at hroot
    exact ⟨fun m size => by simp only [during, hroot, propose_of_rootless hb hroot],
      fun c size hc => by simp only [during, hroot, conclude_of_rootless hb hroot hc]⟩
  · exact ⟨fun m size => during_eq_self fun v hbv => propose_of_unbound obs (hbv.trans hb) m size,
      fun c size hc => during_eq_self fun v hbv => conclude_of_unbound obs (hbv.trans hb) hc size⟩
  · exact during_eq_emit hobs fun v => conclude_of_absent obs v h hc size

end Calls

/-- **Views are attached as long as a handle on their root is out, and no longer.**  A forest grows
from nothing: roots and views are made, handlers are bound, handles are taken and dropped, events
are raised and listeners managed in any order, also by the parties that are called, nested to any
depth.  At each moment, what calls at a view come to depends on the handles that are out on its
root, whatever became of the views between, and the root dies with the last of them.  Once it is
gone it is so for ever after, for the view and for every view that was or will be made of it. -/
theorem Unfolds.answers_view [DecidableEq ρ] [ObjectIdentity α] {depth : Nat}
    {w₀ w w' : LedgerWorld ρ σ} {h r : HandlerRef} (hbare : w₀.Bare)
    (hw : w₀.Unfolds α depth w) (hw' : w.Unfolds α depth w') (hview : w.ledger.ViewOf h r) :
    (∀ obs : Observers ρ (σ × Ledger) α, obs.Clerical → w.Answers obs h r) ∧
      (r ∈ w.ledger.held → w.ledger.out.count r = 1 → ¬ (w.drop r).isLive r) ∧
      (r ∉ w.ledger.out → r ∉ w'.ledger.out) ∧
      ∀ u, w'.ledger.Stems u h → w'.ledger.ViewOf u r ∧
        ∀ obs : Observers ρ (σ × Ledger) α, obs.Clerical → w'.Answers obs u r := by
  have hkept := hw.leads.kept hbare.kept
  have hfollows := hw'.leads.follows hkept
  refine ⟨fun obs hobs => hkept.answers hview hobs, fun hheld hlast hlive => ?_,
    hfollows.gone r (hkept.root r hview.root).1, fun u hu => ?_⟩
  · rw [isLive, handler_drop, handles_release, if_pos rfl, hkept.counted, hlast] at hlive
    simp at hlive
  have hview' := (hview.mono hfollows.roots hfollows.views).of_stems hu
  exact ⟨hview', fun obs hobs => (hw'.leads.kept hkept).answers hview' hobs⟩

/-- A party that drops a handle on the root when it is asked.  Below one root there is a view and a
view of it, and the view between is dropped.  The inner view still reaches the root, also while it
asks for the first time; that call drops the last handle on the root, and the next one fails. -/
theorem Unfolds.answers_view_orphaned :
    let obs : Observers Nat (Unit × Ledger) Int :=
      ⟨fun _ e w => (true, if e.handler ∈ w.ledger.held then w.drop e.handler else w),
        fun _ _ w => w, fun _ => id, fun _ => id⟩
    let w₀ : LedgerWorld Nat Unit :=
      { hooks := #[.managed ⟨[⟨0, .changing⟩], [], {}⟩], outside := ((), {}) }
    let planted := (w₀.rootOver ⟨0⟩ {}).2.enter (.withRoot ⟨0⟩)
    let watched := (planted.bind obs ⟨0⟩ ⟨1⟩ .collection).2
    let outer := (watched.makeRangeView obs ⟨0⟩ 1 4).2.enter (.withView ⟨1⟩ ⟨0⟩)
    let served := (outer.bind obs ⟨1⟩ ⟨2⟩ .collection).2
    let inner := (served.makeRangeView obs ⟨1⟩ 2 3).2.enter (.withView ⟨2⟩ ⟨1⟩)
    let w := (inner.bind obs ⟨2⟩ ⟨3⟩ .collection).2.drop ⟨1⟩
    let asked := w.during ⟨2⟩ (·.propose obs ⟨2⟩ .clear 5)
    (w.root? ⟨2⟩ = some ⟨0⟩ ∧ asked.1 = .ok true ∧
      (asked.2.during ⟨2⟩ (·.propose obs ⟨2⟩ .clear 5)).1 = .error .rootDetached) ∧
    (∀ obs : Observers Nat (Unit × Ledger) Int, obs.Clerical → w.Answers obs ⟨2⟩ ⟨0⟩) ∧
      (⟨0⟩ ∈ w.ledger.held → w.ledger.out.count ⟨0⟩ = 1 → ¬ (w.drop ⟨0⟩).isLive ⟨0⟩) ∧
      (⟨0⟩ ∉ w.ledger.out → ⟨0⟩ ∉ asked.2.ledger.out) ∧
      ∀ u, asked.2.ledger.Stems u ⟨2⟩ → asked.2.ledger.ViewOf u ⟨0⟩ ∧
        ∀ obs : Observers Nat (Unit × Ledger) Int, obs.Clerical → asked.2.Answers obs u ⟨0⟩ := by
  intro obs w₀ planted watched outer served inner w asked
  have hclerical : obs.Clerical := fun _ _ _ => rfl
  have hobs : obs.Deals 0 := by
    refine ⟨hclerical, fun party e v => ?_, fun _ _ _ => .refl⟩
    by_cases hheld : e.handler ∈ v.ledger.held
    · simp only [obs, if_pos hheld]
      exact .single (.drop v e.handler hheld)
    · simp only [obs, if_neg hheld]
      exact .refl
  have hplanted : w₀.Unfolds Int 0 planted := .single (.root w₀ ⟨0⟩ {})
  have hwatched : w₀.Unfolds Int 0 watched :=
    hplanted.tail (.bind obs hclerical planted ⟨0⟩ ⟨1⟩ .collection (by decide +kernel +zetaReduce))
  have houter : w₀.Unfolds Int 0 outer := by
    have hmade : (watched.makeRangeView obs ⟨0⟩ 1 4).1 = .ok ⟨1⟩ := by decide +kernel +zetaReduce
    exact hwatched.tail (.rangeView obs hclerical watched _ ⟨0⟩ ⟨1⟩ 1 4
      (by decide +kernel +zetaReduce) (by rw [← hmade]))
  have hserved : w₀.Unfolds Int 0 served :=
    houter.tail (.bind obs hclerical outer ⟨1⟩ ⟨2⟩ .collection (by decide +kernel +zetaReduce))
  have hinner : w₀.Unfolds Int 0 inner := by
    have hmade : (served.makeRangeView obs ⟨1⟩ 2 3).1 = .ok ⟨2⟩ := by decide +kernel +zetaReduce
    exact hserved.tail (.rangeView obs hclerical served _ ⟨1⟩ ⟨2⟩ 2 3
      (by decide +kernel +zetaReduce) (by rw [← hmade]))
  have hbound : w₀.Unfolds Int 0 (inner.bind obs ⟨2⟩ ⟨3⟩ .collection).2 :=
    hinner.tail (.bind obs hclerical inner ⟨2⟩ ⟨3⟩ .collection (by decide +kernel +zetaReduce))
  have hw : w₀.Unfolds Int 0 w := hbound.tail (.drop _ ⟨1⟩ (by decide +kernel +zetaReduce))
  have hheld : ⟨2⟩ ∈ w.ledger.out := by decide +kernel +zetaReduce
  have hw' : w.Unfolds Int 0 asked.2 := .single (.propose obs hobs w ⟨2⟩ .clear 5 hheld)
  have hviews : w.ledger.views = [(⟨2⟩, ⟨1⟩), (⟨1⟩, ⟨0⟩)] := by decide +kernel +zetaReduce
  have hroot : ⟨0⟩ ∈ w.ledger.roots := by decide +kernel +zetaReduce
  have hstems : w.ledger.Stems ⟨2⟩ ⟨0⟩ := by
    rw [Ledger.Stems, hviews]
    exact .tail (.single (b := ⟨1⟩) (by decide)) (by decide)
  have hview : w.ledger.ViewOf ⟨2⟩ ⟨0⟩ := ⟨⟨⟨1⟩, hviews ▸ List.mem_cons_self⟩, hroot, hstems⟩
  exact ⟨by decide +kernel +zetaReduce, Unfolds.answers_view ⟨rfl, rfl⟩ hw hw' hview⟩

end World

end WatchedContainers
