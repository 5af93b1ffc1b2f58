import Mathlib
import WatchedContainers.Event.Text

/-!
# Events are read off their texts

The one-line text of an event leaves out what does not apply and what goes without saying.  It can
still be read: no word has a space in it, so the words are found again (`words_inj`), and what may
be left out starts with a letter of its own, so a part that is missing is not taken for the next one
(`Opens.split`).  In each word a sign that is no digit ends the number in front of it.

* `Event.text_eq_iff`: **two texts are equal if and only if the events agree** in all that the text
  is about.
-/

namespace WatchedContainers

variable {α β : Type}

/-! ### Numbers -/

theorem not_mem_repr {c : Char} (hc : c.isDigit = false) (n : Nat) : c ∉ n.repr.toList := by
  intro hmem
  rw [Nat.toList_repr] at hmem
  have hdigit := Nat.isDigit_of_mem_toDigits (by decide) (by decide) hmem
  rw [hc] at hdigit
  cases hdigit

/-- Two numbers are read apart at the sign between them, if it starts with no digit. -/
theorem repr_append_inj {sign : String} {c : Char} {rest : List Char}
    (hsign : sign.toList = c :: rest) (hc : c.isDigit = false) (hrest : c ∉ rest)
    {m n m' n' : Nat} (h : m.repr ++ sign ++ n.repr = m'.repr ++ sign ++ n'.repr) :
    m = m' ∧ n = n' := by
  have hlists := congrArg String.toList h
  simp only [String.toList_append, hsign, List.append_assoc, List.cons_append] at hlists
  have hright : c ∉ rest ++ n.repr.toList := fun hmem =>
    (List.mem_append.1 hmem).elim hrest (not_mem_repr hc n)
  obtain ⟨hm, -, hn⟩ := (List.append_cons_inj_of_notMem (not_mem_repr hc m) hright).1 hlists
  exact ⟨Nat.repr_inj.1 (String.toList_inj.1 hm),
    Nat.repr_inj.1 (String.toList_inj.1 (List.append_cancel_left hn))⟩

/-! ### Words -/

/-- A text that may stand between two spaces. -/
def IsWord (s : String) : Prop := ' ' ∉ s.toList

instance (s : String) : Decidable (IsWord s) := inferInstanceAs (Decidable (¬ ' ' ∈ s.toList))

@[simp] theorem isWord_append {s t : String} : IsWord (s ++ t) ↔ IsWord s ∧ IsWord t := by
  simp [IsWord]

@[simp] theorem isWord_repr (n : Nat) : IsWord n.repr := not_mem_repr (by decide) n

/-- **Words are found again** in a text that joins them by spaces. -/
theorem words_inj {ws ws' : List String} (hws : ∀ w ∈ ws, IsWord w) (hws' : ∀ w ∈ ws', IsWord w)
    (hne : ws ≠ []) (hne' : ws' ≠ []) (h : " ".intercalate ws = " ".intercalate ws') :
    ws = ws' := by
  have hsplit : ∀ {ws : List String}, (∀ w ∈ ws, IsWord w) → ws ≠ [] →
      (" ".intercalate ws).toList.splitOn ' ' = ws.map String.toList := by
    intro ws hws hne
    rw [String.toList_intercalate]
    refine List.splitOn_intercalate ' ' ?_ (by simpa using hne)
    intro l hl
    obtain ⟨w, hw, rfl⟩ := List.mem_map.1 hl
    exact hws w hw
  have hmap : ws.map String.toList = ws'.map String.toList := by
    rw [← hsplit hws hne, h, hsplit hws' hne']
  exact List.map_injective_iff.2 (fun _ _ => String.toList_inj.1) hmap

/-! ### Parts that may be missing -/

/-- The letter that a row of words starts with. -/
def mark? (row : List String) : Option Char := row.head?.bind (·.toList.head?)

/-- A row that is empty, or has `n` words and starts with the letter `c`. -/
def Opens (c : Char) (n : Nat) (row : List String) : Prop :=
  row = [] ∨ row.length = n ∧ mark? row = some c

theorem mark?_append {row rest : List String} {c : Char} (h : mark? row = some c) :
    mark? (row ++ rest) = some c := by
  cases row with
  | nil => cases h
  | cons w row => exact h

/-- The letter in front is that of the first part, or it is among those of the other parts. -/
theorem Opens.mark_mem {c : Char} {n : Nat} {row rest : List String} {letters : List Char}
    (h : Opens c n row) (hrest : ∃ x ∈ letters, mark? rest = some x) :
    ∃ x ∈ c :: letters, mark? (row ++ rest) = some x := by
  rcases h with rfl | ⟨-, hc⟩
  · obtain ⟨x, hx, hmark⟩ := hrest
    exact ⟨x, List.mem_cons_of_mem _ hx, hmark⟩
  · exact ⟨c, List.mem_cons_self, mark?_append hc⟩

/-- **A part that is missing is not taken for the next one.** -/
theorem Opens.split {c : Char} {n : Nat} {row row' rest rest' : List String} {letters : List Char}
    (h : Opens c n row) (h' : Opens c n row') (hrest : ∃ x ∈ letters, mark? rest = some x)
    (hrest' : ∃ x ∈ letters, mark? rest' = some x) (hc : c ∉ letters)
    (heq : row ++ rest = row' ++ rest') : row = row' ∧ rest = rest' := by
  have hne : ∀ {r r₁ : List String}, mark? r = some c → (∃ x ∈ letters, mark? (r ++ r₁) = some x) →
      False := by
    rintro r r₁ hr ⟨x, hx, hmark⟩
    rw [mark?_append hr] at hmark
    exact hc (Option.some.inj hmark ▸ hx)
  rcases h with rfl | ⟨hlen, hmark⟩ <;> rcases h' with rfl | ⟨hlen', hmark'⟩
  · exact ⟨rfl, heq⟩
  · rw [List.nil_append] at heq
    exact (hne hmark' (heq ▸ hrest)).elim
  · rw [List.nil_append] at heq
    exact (hne hmark (heq ▸ hrest')).elim
  · exact List.append_inj heq (hlen.trans hlen'.symm)

/-! ### The words of an event -/

namespace Kind

theorem find?_name (k : Kind) : (all.find? fun x => x.name == k.name) = some k := by
  cases k <;> rfl

theorem name_inj {k k' : Kind} (h : k.name = k'.name) : k = k' := by
  have hfind := k.find?_name
  rw [h, k'.find?_name] at hfind
  exact (Option.some.inj hfind).symm

theorem isWord_name (k : Kind) : IsWord k.name := by cases k <;> decide

end Kind

theorem Phase.word_inj {p p' : Phase} (h : p.word = p'.word) : p = p' := by
  cases p <;> cases p' <;> simp_all [Phase.word]

theorem Phase.isWord_word (p : Phase) : IsWord p.word := by cases p <;> decide

theorem ContainerId.isWord_text (id : ContainerId) : IsWord id.text :=
  isWord_append.2 ⟨by decide, isWord_repr id.number⟩

theorem ContainerId.text_inj {id id' : ContainerId} (h : id.text = id'.text) : id = id' := by
  obtain ⟨n⟩ := id
  obtain ⟨n'⟩ := id'
  exact congrArg ContainerId.mk (Nat.repr_inj.1 ((String.append_right_inj "#").1 h))

theorem describe_bool_inj {b b' : Bool} (h : describe b = describe b') : b = b' := by
  revert b b'
  decide

namespace Event

/-! #### Parts -/

section Parts

variable (e : Event α)

theorem isWord_of_mem_words : ∀ w ∈ e.words, IsWord w := by
  have hindex : ∀ w ∈ e.indexWords, IsWord w := by
    unfold indexWords
    split <;> simp +decide
  have hrepetition : ∀ w ∈ e.repetitionWords, IsWord w := by
    unfold repetitionWords
    split <;> simp +decide
  have hbatch : ∀ w ∈ e.batchWords, IsWord w := by
    unfold batchWords
    split <;> simp +decide
  have hview : ∀ w ∈ e.viewWords, IsWord w := by
    unfold viewWords
    split <;> simp +decide [ContainerId.isWord_text]
  have hsize : ∀ w ∈ e.sizeWords, IsWord w := by
    have hflag : ∀ b : Bool, IsWord (describe b) := by decide
    unfold sizeWords
    split <;> simp +decide [hflag]
  simp only [words, List.forall_mem_append]
  refine ⟨⟨⟨⟨⟨?_, hindex⟩, hrepetition⟩, hbatch⟩, hview⟩, hsize⟩
  simp +decide [Kind.isWord_name, Phase.isWord_word, ContainerId.isWord_text]

theorem opens_indexWords : Opens 'a' 2 e.indexWords := by
  unfold indexWords
  split
  · exact .inr ⟨rfl, rfl⟩
  · exact .inl rfl

theorem opens_repetitionWords : Opens 'x' 1 e.repetitionWords := by
  unfold repetitionWords
  split
  · exact .inl rfl
  · exact .inr ⟨rfl, by simp [mark?]⟩

theorem opens_batchWords : Opens 'b' 1 e.batchWords := by
  unfold batchWords
  split
  · exact .inr ⟨rfl, by simp [mark?]⟩
  · exact .inl rfl

theorem opens_viewWords : Opens 'v' 3 e.viewWords := by
  unfold viewWords
  split
  · exact .inr ⟨rfl, rfl⟩
  · exact .inl rfl

theorem mark_sizeWords : ∃ x ∈ ['s'], mark? e.sizeWords = some x := by
  refine ⟨'s', List.mem_cons_self, ?_⟩
  unfold sizeWords
  split <;> simp [mark?]

end Parts

/-! #### What each part tells -/

section Readings

variable {e : Event α} {e' : Event β}

theorem indexWords_eq_iff : e.indexWords = e'.indexWords ↔ e.index? = e'.index? := by
  unfold indexWords
  cases e.index? <;> cases e'.index? <;> simp [Nat.repr_inj]

theorem repetitionWords_eq_iff :
    e.repetitionWords = e'.repetitionWords ↔ e.repetitions = e'.repetitions := by
  unfold repetitionWords
  constructor
  · intro h
    split at h <;> split at h
    next hone hone' => rw [hone, hone']
    next => cases h
    next => cases h
    next => exact Nat.repr_inj.1 ((String.append_right_inj "x").1 (List.singleton_inj.1 h))
  · intro h
    rw [h]

theorem batchWords_eq_iff :
    e.batchWords = e'.batchWords ↔ e.batch?.map List.length = e'.batch?.map List.length := by
  unfold batchWords
  cases e.batch? <;> cases e'.batch? <;> simp [Nat.repr_inj]

theorem viewWords_eq_iff : e.viewWords = e'.viewWords ↔ e.view = e'.view := by
  unfold viewWords
  cases e.view with
  | none => cases e'.view <;> simp
  | some v =>
    cases e'.view with
    | none => simp
    | some v' =>
      simp only [List.cons.injEq, true_and, and_true, Option.some.injEq]
      constructor
      · intro h
        obtain ⟨⟨id⟩, offset⟩ := v
        obtain ⟨⟨id'⟩, offset'⟩ := v'
        simp only [ContainerId.text, String.append_assoc, String.append_right_inj] at h
        rw [← String.append_assoc, ← String.append_assoc] at h
        obtain ⟨rfl, rfl⟩ := repr_append_inj rfl (by decide) (by decide) h
        rfl
      · rintro rfl
        rfl

theorem sizeWords_eq_iff : e.sizeWords = e'.sizeWords ↔
    e.preSize = e'.preSize ∧ e.postSize? = e'.postSize? ∧ e.modified? = e'.modified? := by
  unfold sizeWords postSize? modified?
  cases e.aftermath with
  | none =>
    cases e'.aftermath with
    | none => simp [Nat.repr_inj]
    | some a' => simp
  | some a =>
    cases e'.aftermath with
    | none => simp
    | some a' =>
      simp only [List.cons.injEq, String.append_right_inj, and_true, Option.map_some,
        Option.some.injEq]
      constructor
      · rintro ⟨hsizes, hmodified⟩
        simp only [String.append_assoc, String.append_right_inj] at hsizes
        rw [← String.append_assoc, ← String.append_assoc] at hsizes
        obtain ⟨hpre, hpost⟩ := repr_append_inj rfl (by decide) (by decide) hsizes
        exact ⟨hpre, hpost, describe_bool_inj hmodified⟩
      · rintro ⟨hpre, hpost, hmodified⟩
        rw [hpre, hpost, hmodified]
        exact ⟨rfl, rfl⟩

end Readings

/-! ### The result -/

/-- **Two texts are equal if and only if the events agree** in all that the text is about: the kind,
the phase and the container, the position, the number of copies, the length of the batch and the
view, each of them or that there is none, the sizes and whether anything changed.  The events may be
of different elements. -/
theorem text_eq_iff (e : Event α) (e' : Event β) :
    e.text = e'.text ↔
      e.kind = e'.kind ∧ e.phase = e'.phase ∧ e.observed = e'.observed ∧ e.index? = e'.index? ∧
        e.repetitions = e'.repetitions ∧
        e.batch?.map List.length = e'.batch?.map List.length ∧ e.view = e'.view ∧
        e.preSize = e'.preSize ∧ e.postSize? = e'.postSize? ∧ e.modified? = e'.modified? := by
  constructor
  · intro h
    have hwords : e.words = e'.words :=
      words_inj e.isWord_of_mem_words e'.isWord_of_mem_words (by simp [words]) (by simp [words]) h
    simp only [words, List.cons_append, List.nil_append, List.append_assoc, List.cons.injEq,
      true_and] at hwords
    obtain ⟨hkind, hphase, hobserved, hparts⟩ := hwords
    -- the parts are taken off from the front, each before the letters of those to come
    have hviews := e.opens_viewWords.mark_mem e.mark_sizeWords
    have hviews' := e'.opens_viewWords.mark_mem e'.mark_sizeWords
    have hbatches := e.opens_batchWords.mark_mem hviews
    have hbatches' := e'.opens_batchWords.mark_mem hviews'
    have hcopies := e.opens_repetitionWords.mark_mem hbatches
    have hcopies' := e'.opens_repetitionWords.mark_mem hbatches'
    obtain ⟨hindex, hparts⟩ :=
      e.opens_indexWords.split e'.opens_indexWords hcopies hcopies' (by decide) hparts
    obtain ⟨hrepetition, hparts⟩ :=
      e.opens_repetitionWords.split e'.opens_repetitionWords hbatches hbatches' (by decide) hparts
    obtain ⟨hbatch, hparts⟩ :=
      e.opens_batchWords.split e'.opens_batchWords hviews hviews' (by decide) hparts
    obtain ⟨hview, hsizes⟩ :=
      e.opens_viewWords.split e'.opens_viewWords e.mark_sizeWords e'.mark_sizeWords (by decide)
        hparts
    exact ⟨Kind.name_inj hkind, Phase.word_inj hphase, ContainerId.text_inj hobserved,
      indexWords_eq_iff.1 hindex, repetitionWords_eq_iff.1 hrepetition, batchWords_eq_iff.1 hbatch,
      viewWords_eq_iff.1 hview, sizeWords_eq_iff.1 hsizes⟩
  · rintro ⟨hkind, hphase, hobserved, hindex, hrepetition, hbatch, hview, hsizes⟩
    unfold text words
    rw [hkind, hphase, hobserved, indexWords_eq_iff.2 hindex, repetitionWords_eq_iff.2 hrepetition,
      batchWords_eq_iff.2 hbatch, viewWords_eq_iff.2 hview, sizeWords_eq_iff.2 hsizes]

example (h : HandlerRef) :
    (Event.before ⟨3⟩ h (.addCopies 7 2) (some ⟨⟨5⟩, 4⟩) 6 : Event Int).text =
      "AddNCopies pre on #3 x2 via view #5+4 size=6" := by
  cbv

end Event

end WatchedContainers
