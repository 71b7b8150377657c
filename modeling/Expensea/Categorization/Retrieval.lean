import Expensea.Categorization.Repository

namespace Expensea.Categorization

open DecimalArith

/-!
# Retrieval

What `retrieval_assignment` picks, in terms of the exact similarity of word sets.

* `similarity` — the Jaccard similarity of two texts, `score` the same to four decimals;
* `jaccard_eq_score` — the quotient of 28 digits rounds to the exact one's four decimals;
* `retrieval_unique_best` — the category of the best examples, where they agree.
-/

/-- `sys.maxsize`: no `str` is longer. -/
def MAXSIZE : Nat := 2 ^ 63 - 1

/-- A text whose case-folded form is a `str`. -/
structure Foldable (U : Unicode) where
  text : PyStr
  fits : (U.casefold text).length ≤ MAXSIZE

section Similarity

variable (U : Unicode)

/-- The words of a text. -/
def wordSet (value : PyStr) : Finset PyStr := (normalizedWords U value).toFinset

/-- The Jaccard similarity of the words of two texts. -/
def similarity (left right : PyStr) : ℚ :=
  (wordSet U left ∩ wordSet U right).card / (wordSet U left ∪ wordSet U right).card

/-- The similarity taken to four decimals. -/
def score (left right : PyStr) : ℚ := quantizeHalfEven (similarity U left right)

end Similarity

/-! ### The score -/

/-- A text has no more words than characters, and one. -/
theorem length_split_le (s : PyStr) : (split s).length ≤ s.length + 1 := by
  have hpieces : ∀ s : PyStr, (s.splitOnP isSpace).length ≤ s.length + 1 := by
    intro s
    induction s with
    | nil => exact Nat.le_refl _
    | cons a s ih =>
      rw [List.splitOnP_cons_eq_if_modifyHead, List.length_cons]
      by_cases ha : isSpace a = true
      · rw [if_pos ha, List.length_cons]
        omega
      · rw [if_neg ha, List.length_modifyHead]
        omega
  exact (List.length_filter_le _ _).trans (hpieces s)

theorem length_normalizedWords_le (U : Unicode) (value : PyStr) :
    (normalizedWords U value).length ≤ (U.casefold value).length + 1 := by
  rw [normalizedWords]
  exact ((List.dedup_sublist _).length_le.trans (List.length_filter_le _ _)).trans
    (length_split_le _)

variable {U : Unicode}

/-- The words in common and all words are counted as the sets are. -/
theorem length_words (left right : PyStr) :
    (normalizedWords U left ∩ normalizedWords U right).length =
        (wordSet U left ∩ wordSet U right).card ∧
      (normalizedWords U left ∪ normalizedWords U right).length =
        (wordSet U left ∪ wordSet U right).card := by
  have hleft : (normalizedWords U left).Nodup := List.nodup_dedup _
  have hright : (normalizedWords U right).Nodup := List.nodup_dedup _
  have hinter : (normalizedWords U left ∩ normalizedWords U right).Nodup := hleft.filter _
  have hunion : (normalizedWords U left ∪ normalizedWords U right).Nodup := hright.union _
  constructor
  · rw [← List.toFinset_card_of_nodup hinter]
    congr 1
    ext word
    rw [List.mem_toFinset, List.mem_inter_iff, Finset.mem_inter, wordSet, wordSet,
      List.mem_toFinset, List.mem_toFinset]
  · rw [← List.toFinset_card_of_nodup hunion]
    congr 1
    ext word
    rw [List.mem_toFinset, List.mem_union_iff, Finset.mem_union, wordSet, wordSet,
      List.mem_toFinset, List.mem_toFinset]

theorem similarity_le_one (left right : PyStr) : similarity U left right ≤ 1 := by
  have hsub : wordSet U left ∩ wordSet U right ⊆ wordSet U left ∪ wordSet U right :=
    Finset.inter_subset_left.trans Finset.subset_union_left
  rw [similarity]
  apply div_le_one_of_le₀
  · exact_mod_cast Finset.card_le_card hsub
  · positivity

/-- The quotient that the code rounds twice is rounded to the four decimals of the exact one. -/
theorem quantize_decDiv {a b : ℕ} (hle : a ≤ b) (hb : 0 < b) (hsize : b ≤ 10 ^ 20) :
    quantizeHalfEven (decDiv a b) = quantizeHalfEven (a / b) := by
  have hb' : (0 : ℚ) < b := by exact_mod_cast hb
  have hone : (a / b : ℚ) < 10 ^ (1 : ℤ) := by
    rw [div_lt_iff₀ hb', zpow_one]
    have hcast : (a : ℚ) ≤ b := by exact_mod_cast hle
    linarith
  have hexponent : defaultContext.exponent (a / b : ℚ) ≤ -27 := by
    rw [Context.exponent, abs_of_nonneg (by positivity)]
    by_cases hzero : (a / b : ℚ) = 0
    · rw [hzero, Int.log_zero_right]
      decide
    · have hpos : (0 : ℚ) < a / b := lt_of_le_of_ne (by positivity) (Ne.symm hzero)
      have hlog : Int.log 10 (a / b : ℚ) < 1 :=
        (Int.lt_zpow_iff_log_lt (by norm_num) hpos).1 (by exact_mod_cast hone)
      refine max_le ?_ (by decide)
      rw [defaultContext]
      push_cast
      omega
  have hround : roundHalfEven (defaultContext.round (a / b : ℚ) * 10 ^ 4) =
      roundHalfEven ((a / b : ℚ) * 10 ^ 4) := by
    refine Context.roundHalfEven_round (by push_cast; omega) fun m hne => ?_
    have htie : (m * 10 ^ (-(((4 : ℕ) : ℤ) + 1)) : ℚ) = m / ((10 ^ 5 : ℕ) : ℚ) := by
      norm_num
      ring
    rw [htie] at hne ⊢
    rw [← Int.cast_natCast a] at hne
    have hgap := one_div_le_abs_sub hb (by norm_num) hne
    -- half a unit of 28 digits is less than two such fractions can be apart
    have hunit : (10 : ℚ) ^ defaultContext.exponent (a / b : ℚ) ≤ 10 ^ (-27 : ℤ) :=
      zpow_le_zpow_right₀ (by norm_num) hexponent
    have hinverse : (1 : ℚ) / (10 ^ 20 * (10 ^ 5 : ℕ)) ≤ 1 / ((b : ℚ) * (10 ^ 5 : ℕ)) := by
      apply one_div_le_one_div_of_le (by positivity)
      have hcast : (b : ℚ) ≤ 10 ^ 20 := by exact_mod_cast hsize
      exact mul_le_mul_of_nonneg_right hcast (by positivity)
    have hsmall : (1 / 2 * 10 ^ (-27 : ℤ) : ℚ) < 1 / (10 ^ 20 * (10 ^ 5 : ℕ)) := by
      norm_num
    rw [Int.cast_natCast] at hgap
    linarith
  rw [quantizeHalfEven, quantizeHalfEven, decDiv, hround]

/-- `jaccard` is the exact similarity taken to four decimals. -/
theorem jaccard_eq_score (left right : Foldable U) :
    jaccard U left.text right.text = score U left.text right.text := by
  obtain ⟨hinter, hunion⟩ := length_words (U := U) left.text right.text
  unfold jaccard score similarity
  dsimp only
  rw [hinter, hunion]
  by_cases hempty : normalizedWords U left.text ∪ normalizedWords U right.text = []
  · rw [hempty, List.length_nil] at hunion
    have hzero : roundHalfEven 0 = 0 := by simpa using roundHalfEven_intCast 0
    rw [if_pos hempty, ← hunion, Nat.cast_zero, div_zero, quantizeHalfEven, zero_mul, hzero,
      Int.cast_zero, zero_div]
  · rw [if_neg hempty]
    apply quantize_decDiv
    · exact Finset.card_le_card (Finset.inter_subset_left.trans Finset.subset_union_left)
    · rw [← hunion]
      exact List.length_pos_iff.2 hempty
    · have hcard : (wordSet U left.text ∪ wordSet U right.text).card ≤
          (normalizedWords U left.text).length + (normalizedWords U right.text).length :=
        (Finset.card_union_le _ _).trans
          (Nat.add_le_add (List.toFinset_card_le _) (List.toFinset_card_le _))
      have hleft := (length_normalizedWords_le U left.text).trans (Nat.succ_le_succ left.fits)
      have hright := (length_normalizedWords_le U right.text).trans (Nat.succ_le_succ right.fits)
      rw [MAXSIZE] at hleft hright
      omega

theorem score_le_one (left right : PyStr) : score U left right ≤ 1 := by
  have hmono : roundHalfEven (similarity U left right * 10 ^ 4) ≤ roundHalfEven (10 ^ 4 : ℤ) := by
    apply roundHalfEven_mono
    have hle := similarity_le_one (U := U) left right
    push_cast
    linarith
  rw [roundHalfEven_intCast] at hmono
  rw [score, quantizeHalfEven, div_le_one (by norm_num)]
  exact_mod_cast hmono

/-! ### The choice -/

/-- A list holds one value, however often. -/
theorem dedup_eq_singleton {α : Type} [DecidableEq α] {l : List α} {a : α} :
    l.dedup = [a] ↔ a ∈ l ∧ ∀ x ∈ l, x = a := by
  constructor
  · intro h
    have hmem : ∀ x, x ∈ l ↔ x = a := fun x => by
      rw [← List.mem_dedup, h, List.mem_singleton]
    exact ⟨(hmem a).2 rfl, fun x hx => (hmem x).1 hx⟩
  · intro h
    apply (List.perm_singleton).1
    rw [List.perm_ext_iff_of_nodup (List.nodup_dedup l) (List.nodup_singleton a)]
    intro x
    rw [List.mem_dedup, List.mem_singleton]
    exact ⟨h.2 x, fun hx => hx ▸ h.1⟩

/-- The running maximum is above every score, and is one of them or the start. -/
theorem foldl_max_spec (l : List (ℚ × Uuid)) : ∀ m : ℚ,
    m ≤ l.foldl (fun m s => max m s.1) m ∧ (∀ s ∈ l, s.1 ≤ l.foldl (fun m s => max m s.1) m) ∧
      (l.foldl (fun m s => max m s.1) m = m ∨ ∃ s ∈ l, s.1 = l.foldl (fun m s => max m s.1) m) := by
  induction l with
  | nil => exact fun m => ⟨le_rfl, nofun, .inl rfl⟩
  | cons s l ih =>
    intro m
    obtain ⟨hstart, hall, hone⟩ := ih (max m s.1)
    rw [List.foldl_cons]
    refine ⟨(le_max_left _ _).trans hstart,
      List.forall_mem_cons.2 ⟨(le_max_right _ _).trans hstart, hall⟩, ?_⟩
    rcases hone with hone | ⟨t, ht, hone⟩
    · rcases max_choice m s.1 with hmax | hmax
      · exact .inl (hone.trans hmax)
      · exact .inr ⟨s, List.mem_cons_self, (hone.trans hmax).symm⟩
    · exact .inr ⟨t, List.mem_cons_of_mem _ ht, hone⟩

/-- An assignment by retrieval. -/
def retrieved (categoryId : Uuid) (confidence : ℚ) : CategoryAssignment where
  categoryId := categoryId
  source := .retrieval
  version := CLASSIFIER_VERSION
  confidence := confidence

/-- The highest score among the examples is this one, it is eligible, and every example that has
    it is of one category. -/
structure Best (f : PyStr → ℚ) (examples : List (PyStr × Uuid)) (categoryId : Uuid) (best : ℚ) :
    Prop where
  eligible : RETRIEVAL_THRESHOLD ≤ best
  attained : ∃ e ∈ examples, f e.1 = best
  highest : ∀ e ∈ examples, f e.1 ≤ best
  agreed : ∀ e ∈ examples, f e.1 = best → e.2 = categoryId

/-- What the best of the examples is does not depend on their order or repetition. -/
theorem Best.congr {f : PyStr → ℚ} {examples examples' : List (PyStr × Uuid)} {categoryId : Uuid}
    {best : ℚ} (hmem : ∀ e, e ∈ examples ↔ e ∈ examples') (h : Best f examples categoryId best) :
    Best f examples' categoryId best := by
  obtain ⟨e, he, hscore⟩ := h.attained
  exact ⟨h.eligible, ⟨e, (hmem e).1 he, hscore⟩, fun e he => h.highest e ((hmem e).2 he),
    fun e he => h.agreed e ((hmem e).2 he)⟩

/-- `retrieval_assignment` returns the category of the best examples. -/
theorem retrievalAssignment_eq_some_iff {description : PyStr} {examples : List (PyStr × Uuid)}
    {a : CategoryAssignment} : retrievalAssignment U description examples = some a ↔
      ∃ categoryId best, a = retrieved categoryId best ∧
        Best (jaccard U description) examples categoryId best := by
  unfold retrievalAssignment
  dsimp only
  generalize hscored : (examples.map fun c => (jaccard U description c.1, c.2)) = scored
  generalize heligible : (scored.filter fun s => RETRIEVAL_THRESHOLD ≤ s.1) = eligible
  obtain ⟨-, hle, hone⟩ := foldl_max_spec eligible 0
  generalize hmax : eligible.foldl (fun m s => max m s.1) 0 = best at hle hone ⊢
  have hmem : ∀ s, s ∈ eligible ↔
      (∃ e ∈ examples, (jaccard U description e.1, e.2) = s) ∧ RETRIEVAL_THRESHOLD ≤ s.1 := by
    intro s
    rw [← heligible, List.mem_filter, decide_eq_true_eq, ← hscored, List.mem_map]
  have hbest : ∀ categoryId, categoryId ∈ (eligible.filter fun s => s.1 == best).map Prod.snd ↔
      (best, categoryId) ∈ eligible := by
    intro categoryId
    rw [List.mem_map]
    constructor
    · intro h
      obtain ⟨s, hs, hsnd⟩ := h
      obtain ⟨hs, hfst⟩ := List.mem_filter.1 hs
      rwa [← hsnd, ← beq_iff_eq.1 hfst]
    · intro h
      exact ⟨(best, categoryId), List.mem_filter.2 ⟨h, beq_self_eq_true _⟩, rfl⟩
  have hsingle : ∀ categoryId,
      ((eligible.filter fun s => s.1 == best).map Prod.snd).dedup = [categoryId] ↔
        Best (jaccard U description) examples categoryId best := by
    intro categoryId
    rw [dedup_eq_singleton]
    constructor
    · intro h
      obtain ⟨hin, hall⟩ := h
      obtain ⟨⟨e, he, hpair⟩, heligible⟩ := (hmem _).1 ((hbest _).1 hin)
      have hhighest : ∀ e ∈ examples, jaccard U description e.1 ≤ best := by
        intro e he
        by_cases hthreshold : RETRIEVAL_THRESHOLD ≤ jaccard U description e.1
        · exact hle _ ((hmem _).2 ⟨⟨e, he, rfl⟩, hthreshold⟩)
        · exact (not_le.1 hthreshold).le.trans heligible
      refine ⟨heligible, ⟨e, he, congrArg Prod.fst hpair⟩, hhighest, fun e he hscore => ?_⟩
      apply hall
      rw [hbest, hmem]
      exact ⟨⟨e, he, Prod.ext hscore rfl⟩, heligible⟩
    · intro h
      obtain ⟨e, he, hscore⟩ := h.attained
      have hin : ∀ e ∈ examples, jaccard U description e.1 = best → (best, e.2) ∈ eligible := by
        intro e he hscore
        exact (hmem _).2 ⟨⟨e, he, Prod.ext hscore rfl⟩, h.eligible⟩
      refine ⟨(hbest _).2 (h.agreed e he hscore ▸ hin e he hscore), fun c hc => ?_⟩
      obtain ⟨⟨e', he', hpair⟩, -⟩ := (hmem _).1 ((hbest c).1 hc)
      have hcategory := h.agreed e' he' (congrArg Prod.fst hpair)
      exact (congrArg Prod.snd hpair).symm.trans hcategory
  constructor
  · intro h
    split at h
    · rename_i categoryId hlist
      exact ⟨categoryId, best, (Option.some.inj h).symm, (hsingle categoryId).1 hlist⟩
    · cases h
  · intro h
    obtain ⟨categoryId, best', rfl, hspec⟩ := h
    -- the score of the specification is the running maximum
    have heq : best' = best := by
      obtain ⟨e, he, hscore⟩ := hspec.attained
      have hin : (best', e.2) ∈ eligible :=
        (hmem _).2 ⟨⟨e, he, Prod.ext hscore rfl⟩, hspec.eligible⟩
      apply le_antisymm (hle _ hin)
      rcases hone with hone | ⟨s, hs, hone⟩
      · have hpos : 0 ≤ best' := le_trans (by norm_num [RETRIEVAL_THRESHOLD]) hspec.eligible
        rw [hone]
        exact hpos
      · obtain ⟨⟨e', he', hpair⟩, -⟩ := (hmem s).1 hs
        rw [← hone, ← congrArg Prod.fst hpair]
        exact hspec.highest e' he'
    rw [heq] at hspec ⊢
    rw [(hsingle categoryId).2 hspec]
    rfl

/-- The text and the category of each example. -/
def rowsOf (examples : List (Foldable U × Uuid)) : List (PyStr × Uuid) :=
  examples.map fun e => (e.1.text, e.2)

/-- Over texts the runtime holds, the code's scores are the exact ones to four decimals. -/
theorem best_iff {description : Foldable U} {examples : List (Foldable U × Uuid)}
    {categoryId : Uuid} {best : ℚ} :
    Best (jaccard U description.text) (rowsOf examples) categoryId best ↔
      Best (score U description.text) (rowsOf examples) categoryId best := by
  have hscore : ∀ e ∈ rowsOf examples,
      jaccard U description.text e.1 = score U description.text e.1 := by
    intro e he
    obtain ⟨e', -, rfl⟩ := List.mem_map.1 he
    exact jaccard_eq_score description e'.1
  have hcongr : ∀ {f g : PyStr → ℚ}, (∀ e ∈ rowsOf examples, f e.1 = g e.1) →
      Best f (rowsOf examples) categoryId best → Best g (rowsOf examples) categoryId best := by
    intro f g hfg h
    obtain ⟨e, he, hattained⟩ := h.attained
    exact ⟨h.eligible, ⟨e, he, hfg e he ▸ hattained⟩, fun e he => hfg e he ▸ h.highest e he,
      fun e he hbest => h.agreed e he (hfg e he ▸ hbest)⟩
  exact ⟨hcongr hscore, hcongr fun e he => (hscore e he).symm⟩

/-- Retrieval returns the category of the most similar examples where they agree and are similar
    enough, whatever the order and repetition of the examples. -/
theorem retrieval_unique_best (U : Unicode) (description : Foldable U)
    (examples : List (Foldable U × Uuid)) :
    (∀ examples' : List (Foldable U × Uuid), (∀ e, e ∈ rowsOf examples' ↔ e ∈ rowsOf examples) →
      retrievalAssignment U description.text (rowsOf examples') =
        retrievalAssignment U description.text (rowsOf examples)) ∧
    (∀ categoryId, (∃ a, retrievalAssignment U description.text (rowsOf examples) = some a ∧
        a.categoryId = categoryId) ↔
      ∃ best, Best (score U description.text) (rowsOf examples) categoryId best) ∧
    ∀ a, retrievalAssignment U description.text (rowsOf examples) = some a →
      Best (score U description.text) (rowsOf examples) a.categoryId a.confidence ∧
        6 / 10 ≤ a.confidence ∧ a.confidence ≤ 1 := by
  have hresult : ∀ (examples : List (Foldable U × Uuid)) a,
      retrievalAssignment U description.text (rowsOf examples) = some a ↔
        ∃ categoryId best, a = retrieved categoryId best ∧
          Best (score U description.text) (rowsOf examples) categoryId best := by
    intro examples a
    rw [retrievalAssignment_eq_some_iff]
    exact exists_congr fun _ => exists_congr fun _ => and_congr_right fun _ => best_iff
  refine ⟨fun examples' hmem => ?_, fun categoryId => ?_, fun a h => ?_⟩
  · apply Option.ext
    intro a
    rw [hresult, hresult]
    constructor
    · intro h
      obtain ⟨categoryId, best, ha, hbest⟩ := h
      exact ⟨categoryId, best, ha, hbest.congr hmem⟩
    · intro h
      obtain ⟨categoryId, best, ha, hbest⟩ := h
      exact ⟨categoryId, best, ha, hbest.congr fun e => (hmem e).symm⟩
  · constructor
    · intro h
      obtain ⟨a, ha, hcategory⟩ := h
      obtain ⟨categoryId', best, rfl, hbest⟩ := (hresult examples a).1 ha
      exact ⟨best, hcategory ▸ hbest⟩
    · intro h
      obtain ⟨best, hbest⟩ := h
      exact ⟨retrieved categoryId best, (hresult examples _).2 ⟨categoryId, best, rfl, hbest⟩, rfl⟩
  · obtain ⟨categoryId, best, rfl, hbest⟩ := (hresult examples a).1 h
    obtain ⟨e, -, hscore⟩ := hbest.attained
    have hle : best ≤ 1 := hscore ▸ score_le_one description.text e.1
    exact ⟨hbest, hbest.eligible, hle⟩

end Expensea.Categorization
