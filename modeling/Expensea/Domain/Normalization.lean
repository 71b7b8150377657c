import Expensea.Store

namespace Expensea

/-!
# Normalization

What `normalize_display_text` and `casefold` do to the length of a text and to the characters
PostgreSQL text cannot hold.

* `Unicode.Lawful` — what is known of the Unicode tables;
* `foldedWidth` — the length of a text's lookup key, counted on the text;
* `all_display`, `all_casefold` — NUL and surrogates stay where they are.
-/

/-- What the Unicode tables are known to do: case folding works character by character, on at
    most three characters each; no character folds to a space but the space itself; NUL and the
    surrogates are what they are in every form; and the normal form of words stays one when they
    are joined by spaces. -/
structure Unicode.Lawful (U : Unicode) : Prop where
  nfkc_display : ∀ s, U.nfkc (normalizeDisplayText U s) = normalizeDisplayText U s
  nfkc_special : ∀ s c, storableChar c = false → (c ∈ U.nfkc s ↔ c ∈ s)
  casefold_flatMap : ∀ s, U.casefold s = s.flatMap fun c => U.casefold [c]
  casefold_ne_nil : ∀ c, U.casefold [c] ≠ []
  casefold_length : ∀ c, (U.casefold [c]).length ≤ 3
  casefold_space : U.casefold [space] = [space]
  casefold_nonspace : ∀ c, c ≠ space → space ∉ U.casefold [c]
  casefold_special : ∀ c d, storableChar d = false → (d ∈ U.casefold [c] ↔ d = c)

/-! ### Words -/

/-- The words of a text. -/
def Words (words : List PyStr) : Prop := ∀ w ∈ words, w ≠ [] ∧ ∀ c ∈ w, isSpace c = false

/-- The pieces of a text contain no white space. -/
theorem splitOnP_isSpace (s : PyStr) : ∀ w ∈ s.splitOnP isSpace, ∀ c ∈ w, isSpace c = false := by
  induction s with
  | nil =>
    intro w hw c hc
    rw [List.splitOnP_nil, List.mem_singleton] at hw
    rw [hw] at hc
    cases hc
  | cons a s ih =>
    rw [List.splitOnP_cons_eq_if_modifyHead]
    by_cases ha : isSpace a = true
    · rw [if_pos ha]
      exact List.forall_mem_cons.2 ⟨fun c hc => absurd hc List.not_mem_nil, ih⟩
    · rw [if_neg ha]
      -- the character is put before the first piece
      obtain ⟨w, rest, hsplit⟩ := List.exists_cons_of_ne_nil (List.splitOnP_ne_nil isSpace s)
      rw [hsplit] at ih ⊢
      rw [List.modifyHead_cons]
      rw [List.forall_mem_cons] at ih ⊢
      exact ⟨List.forall_mem_cons.2 ⟨by simpa using ha, ih.1⟩, ih.2⟩

theorem words_split (s : PyStr) : Words (split s) := by
  intro w hw
  rw [split, List.mem_filter] at hw
  exact ⟨by simpa using hw.2, splitOnP_isSpace s w hw.1⟩

/-- Words joined by spaces are split as they were. -/
theorem split_joinSpace {words : List PyStr} (h : Words words) : split (joinSpace words) = words := by
  have hspace : isSpace space = true := by decide
  induction words with
  | nil => rfl
  | cons w words ih =>
    obtain ⟨hw, hwords⟩ := List.forall_mem_cons.1 h
    cases words with
    | nil =>
      rw [joinSpace, List.intercalate_singleton, split, List.splitOnP_eq_singleton hw.2]
      simp [hw.1]
    | cons w' words =>
      rw [joinSpace, List.intercalate_cons_cons, List.append_assoc, split, List.singleton_append,
        List.splitOnP_append_cons_of_forall_mem hw.2 space hspace, List.filter_cons_of_pos (by simp [hw.1])]
      exact congrArg (w :: ·) (ih hwords)

variable {U : Unicode}

/-- Display text is in its final form. -/
theorem display_display (hU : U.Lawful) (s : PyStr) :
    normalizeDisplayText U (normalizeDisplayText U s) = normalizeDisplayText U s := by
  have hnfkc := hU.nfkc_display s
  rw [normalizeDisplayText, hnfkc, normalizeDisplayText, split_joinSpace (words_split _)]

/-! ### Characters that are kept -/

/-- Joined words hold a character that is no white space as their text does. -/
theorem mem_joinSpace_split {c : CodePoint} (hc : isSpace c = false) (s : PyStr) :
    c ∈ joinSpace (split s) ↔ c ∈ s := by
  have hne : c ≠ space := fun he => by
    rw [he] at hc
    exact absurd hc (by decide)
  have hjoin : ∀ words : List PyStr, c ∈ joinSpace words ↔ ∃ w ∈ words, c ∈ w := by
    intro words
    induction words with
    | nil => simp [joinSpace]
    | cons w words ih =>
      cases words with
      | nil => simp [joinSpace]
      | cons w' words =>
        rw [joinSpace, List.intercalate_cons_cons, List.mem_append, List.mem_append,
          List.mem_singleton]
        rw [joinSpace] at ih
        rw [ih]
        simp [hne]
  have hpieces : (∃ w ∈ s.splitOnP isSpace, c ∈ w) ↔ c ∈ s := by
    induction s with
    | nil => simp
    | cons a s ih =>
      rw [List.splitOnP_cons_eq_if_modifyHead, List.mem_cons, ← ih]
      by_cases ha : isSpace a = true
      · have hca : c ≠ a := fun he => by
          rw [he, ha] at hc
          cases hc
        rw [if_pos ha]
        simp [hca]
      · rw [if_neg ha]
        obtain ⟨w, rest, hsplit⟩ := List.exists_cons_of_ne_nil (List.splitOnP_ne_nil isSpace s)
        rw [hsplit, List.modifyHead_cons]
        simp [or_assoc]
  rw [hjoin, ← hpieces, split]
  constructor
  · rintro ⟨w, hw, hcw⟩
    exact ⟨w, List.mem_of_mem_filter hw, hcw⟩
  · rintro ⟨w, hw, hcw⟩
    exact ⟨w, List.mem_filter.2 ⟨hw, by simpa using List.ne_nil_of_mem hcw⟩, hcw⟩

/-- Two texts with the same NUL and surrogate characters are storable alike. -/
theorem all_storable_congr {s t : PyStr} (h : ∀ c, storableChar c = false → (c ∈ s ↔ c ∈ t)) :
    s.all storableChar = t.all storableChar := by
  have hdown : ∀ {s t : PyStr}, (∀ c, storableChar c = false → (c ∈ s ↔ c ∈ t)) →
      s.all storableChar = true → t.all storableChar = true := by
    intro s t h hs
    rw [List.all_eq_true] at hs ⊢
    intro c hc
    by_contra hchar
    rw [Bool.not_eq_true] at hchar
    exact absurd (hs c ((h c hchar).2 hc)) (by simp [hchar])
  rw [Bool.eq_iff_iff]
  exact ⟨hdown h, hdown fun c hc => (h c hc).symm⟩

theorem not_space_of_special {c : CodePoint} (hc : storableChar c = false) : isSpace c = false := by
  by_contra hspace
  rw [Bool.not_eq_false] at hspace
  -- white space lies between the two
  have hbounds : 0x09 ≤ c.val ∧ c.val ≤ 0x3000 := by
    simp only [isSpace, Bool.or_eq_true, Bool.and_eq_true, decide_eq_true_eq, beq_iff_eq,
      or_assoc] at hspace
    have hrange : ∀ a b : CodePoint, 0x09 ≤ a.val → b.val ≤ 0x3000 → a ≤ c ∧ c ≤ b →
        0x09 ≤ c.val ∧ c.val ≤ 0x3000 := fun a b ha hb h => ⟨ha.trans h.1, le_trans h.2 hb⟩
    rcases hspace with h | h | h | h | h | h | h | h | h | h | h
    all_goals first
      | exact hrange _ _ (by decide) (by decide) h
      | rw [h]; decide
  have hchar : c.val = 0 ∨ 0xD800 ≤ c.val := by
    rw [storableChar, Bool.and_eq_false_iff, bne_eq_false_iff_eq, Bool.not_eq_false', isSurrogate,
      Bool.and_eq_true, decide_eq_true_eq] at hc
    rcases hc with rfl | hc
    · exact .inl rfl
    · exact .inr hc.1
  omega

/-- Display text has the NUL and surrogate characters of its source. -/
theorem all_display (hU : U.Lawful) (s : PyStr) :
    (normalizeDisplayText U s).all storableChar = s.all storableChar :=
  all_storable_congr fun c hc => by
    rw [normalizeDisplayText, mem_joinSpace_split (not_space_of_special hc), hU.nfkc_special s c hc]

/-- So has a lookup key. -/
theorem all_casefold (hU : U.Lawful) (s : PyStr) :
    (U.casefold s).all storableChar = s.all storableChar :=
  all_storable_congr fun c hc => by
    rw [hU.casefold_flatMap, List.mem_flatMap]
    constructor
    · rintro ⟨d, hd, hmem⟩
      rwa [(hU.casefold_special d c hc).1 hmem]
    · exact fun hmem => ⟨c, hmem, (hU.casefold_special c c hc).2 rfl⟩

/-! ### Lengths -/

/-- The number of characters a character folds to. -/
def foldWidth (U : Unicode) (c : CodePoint) : Nat := (U.casefold [c]).length

/-- The length of a text's lookup key: its words in normal form, every character counted by what
    it folds to, and one space between words. -/
def foldedWidth (U : Unicode) (s : PyStr) : Nat :=
  ((split (U.nfkc s)).map fun w => (w.map (foldWidth U)).sum + 1).sum - 1

theorem length_casefold (hU : U.Lawful) (s : PyStr) :
    (U.casefold s).length = (s.map (foldWidth U)).sum := by
  rw [hU.casefold_flatMap, List.length_flatMap]
  rfl

theorem length_casefold_display (hU : U.Lawful) (s : PyStr) :
    (U.casefold (normalizeDisplayText U s)).length = foldedWidth U s := by
  have hspace : foldWidth U space = 1 := by rw [foldWidth, hU.casefold_space]; rfl
  rw [length_casefold hU, normalizeDisplayText, foldedWidth]
  -- one space less than words
  have hjoin : ∀ words : List PyStr, ((joinSpace words).map (foldWidth U)).sum =
      (words.map fun w => (w.map (foldWidth U)).sum + 1).sum - 1 := by
    intro words
    induction words with
    | nil => rfl
    | cons w words ih =>
      cases words with
      | nil => simp [joinSpace]
      | cons w' words =>
        rw [joinSpace, List.intercalate_cons_cons, List.map_append, List.map_append,
          List.sum_append, List.sum_append, List.map_singleton, List.sum_singleton, hspace]
        rw [joinSpace] at ih
        rw [ih]
        simp only [List.map_cons, List.sum_cons]
        omega
  exact hjoin _

/-- Splitting a text into words and joining them makes it no longer. -/
theorem length_joinSpace_split (s : PyStr) : (joinSpace (split s)).length ≤ s.length := by
  have hjoin : ∀ words : List PyStr,
      (joinSpace words).length = (words.map fun w => w.length + 1).sum - 1 := by
    intro words
    induction words with
    | nil => rfl
    | cons w words ih =>
      cases words with
      | nil => simp [joinSpace]
      | cons w' words =>
        rw [joinSpace, List.intercalate_cons_cons, List.length_append, List.length_append,
          List.length_singleton]
        rw [joinSpace] at ih
        rw [ih]
        simp only [List.map_cons, List.sum_cons]
        omega
  -- the pieces between white space, each with one separator
  have hpieces : ∀ s : PyStr, ((s.splitOnP isSpace).map fun w => w.length + 1).sum = s.length + 1 := by
    intro s
    induction s with
    | nil => rfl
    | cons a s ih =>
      rw [List.splitOnP_cons_eq_if_modifyHead, List.length_cons]
      by_cases ha : isSpace a = true
      · rw [if_pos ha, List.map_cons, List.sum_cons, ih]
        simp only [List.length_nil]
        omega
      · rw [if_neg ha]
        obtain ⟨w, rest, hsplit⟩ := List.exists_cons_of_ne_nil (List.splitOnP_ne_nil isSpace s)
        rw [hsplit, List.map_cons, List.sum_cons] at ih
        rw [hsplit, List.modifyHead_cons, List.map_cons, List.sum_cons, List.length_cons]
        omega
  have hfilter : ∀ words : List PyStr, ((words.filter (· ≠ [])).map fun w => w.length + 1).sum ≤
      (words.map fun w => w.length + 1).sum := by
    intro words
    induction words with
    | nil => exact Nat.le_refl _
    | cons w words ih =>
      rw [List.filter_cons, List.map_cons, List.sum_cons]
      split
      · rw [List.map_cons, List.sum_cons]
        omega
      · omega
  rw [hjoin, split]
  exact Nat.sub_le_iff_le_add.2 ((hfilter (s.splitOnP isSpace)).trans_eq (hpieces s))

/-- Display text of text in normal form is no longer. -/
theorem length_display_le {s : PyStr} (h : U.nfkc s = s) :
    (normalizeDisplayText U s).length ≤ s.length := by
  rw [normalizeDisplayText, h]
  exact length_joinSpace_split s

/-- Display text has the surrogates of its source. -/
theorem mem_display_surrogate (hU : U.Lawful) {c : CodePoint} (hc : isSurrogate c = true)
    (s : PyStr) : c ∈ normalizeDisplayText U s ↔ c ∈ s := by
  have hspecial : storableChar c = false := by
    rw [storableChar, hc]
    simp
  rw [normalizeDisplayText, mem_joinSpace_split (not_space_of_special hspecial),
    hU.nfkc_special s c hspecial]

theorem any_surrogate_display (hU : U.Lawful) (s : PyStr) :
    (normalizeDisplayText U s).any isSurrogate = s.any isSurrogate := by
  rw [Bool.eq_iff_iff, List.any_eq_true, List.any_eq_true]
  constructor
  · intro h
    obtain ⟨c, hc, hsurrogate⟩ := h
    exact ⟨c, (mem_display_surrogate hU hsurrogate s).1 hc, hsurrogate⟩
  · intro h
    obtain ⟨c, hc, hsurrogate⟩ := h
    exact ⟨c, (mem_display_surrogate hU hsurrogate s).2 hc, hsurrogate⟩

/-! ### Blank texts -/

/-- Display text that is not empty is not blank. -/
theorem notBlank_display {s : PyStr} (h : normalizeDisplayText U s ≠ []) :
    (normalizeDisplayText U s).any (fun c => c != space) = true := by
  rw [normalizeDisplayText] at h ⊢
  generalize hwords : split (U.nfkc s) = words at h ⊢
  cases words with
  | nil => exact absurd rfl h
  | cons w words =>
    obtain ⟨hne, hclear⟩ := words_split (U.nfkc s) w (hwords ▸ List.mem_cons_self)
    obtain ⟨c, hc⟩ := List.exists_mem_of_ne_nil w hne
    have hmem : c ∈ joinSpace (w :: words) := by
      cases words with
      | nil => simpa [joinSpace] using hc
      | cons w' words =>
        rw [joinSpace, List.intercalate_cons_cons]
        exact List.mem_append_left _ (List.mem_append_left _ hc)
    refine List.any_eq_true.2 ⟨c, hmem, ?_⟩
    rw [bne_iff_ne]
    rintro rfl
    exact absurd (hclear _ hc) (by decide)

/-- Case folding leaves no blank text. -/
theorem notBlank_casefold (hU : U.Lawful) {s : PyStr} (h : s.any (fun c => c != space) = true) :
    (U.casefold s).any (fun c => c != space) = true := by
  obtain ⟨c, hc, hne⟩ := List.any_eq_true.1 h
  obtain ⟨d, hd⟩ := List.exists_mem_of_ne_nil _ (hU.casefold_ne_nil c)
  refine List.any_eq_true.2 ⟨d, ?_, ?_⟩
  · rw [hU.casefold_flatMap]
    exact List.mem_flatMap.2 ⟨c, hc, hd⟩
  · rw [bne_iff_ne] at hne ⊢
    rintro rfl
    exact hU.casefold_nonspace c hne hd

end Expensea
