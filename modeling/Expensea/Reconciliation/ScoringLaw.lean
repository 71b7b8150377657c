import Expensea.Reconciliation.Matching

namespace Expensea.Reconciliation

open DecimalArith

/-!
# The law of scores

What `score_candidate` and `reconcile_candidates` promise for every policy, whatever its weights.

* `ReconciliationPolicy.weigh`, `closeness` — the weighed similarities before they are rounded;
* `scoreCandidate_weighed` and its siblings — the score and decision of a candidate, by case;
* `closeness_range`, `closeness_antitone` — the weighing stays near `[0, 1]` and falls with
  distance in time, through every rounding;
* `reconcileCandidates_best` — the chosen candidate comes before all others;
* `scoring_law` — the law.
-/

/-- The policy's weighing of the three similarities, before it is rounded to four places. -/
def ReconciliationPolicy.weigh (policy : ReconciliationPolicy) (time merchant description : ℚ) : ℚ :=
  decAdd (decAdd (decAdd policy.amountWeight (decMul policy.timeWeight time))
    (decMul policy.merchantWeight merchant)) (decMul policy.descriptionWeight description)

/-- What the policy decides at a score. -/
def ReconciliationPolicy.decisionAt (policy : ReconciliationPolicy) (score : ℚ) :
    ReconciliationDecision :=
  if policy.autoMergeThreshold ≤ score then .merge
  else if policy.possibleDuplicateThreshold ≤ score then .possibleDuplicate
  else .newTransaction

/-- The event and the candidate have the same amount, currency and type. -/
def Agrees (event : NormalizedFinancialEvent) (candidate : CandidateTransaction) : Prop :=
  event.amount = some candidate.amount ∧ event.currency = some candidate.currency ∧
    event.eventKind.transactionType = some candidate.transactionType

/-- The event and the candidate have a payment identifier in common. -/
def Shares (event : NormalizedFinancialEvent) (candidate : CandidateTransaction) : Prop :=
  ∃ identifier ∈ event.paymentIdentifiers, identifier ∈ candidate.paymentIdentifiers

/-- How close an event of that time and a candidate are by the policy's weights. -/
def closeness (U : Unicode) (policy : ReconciliationPolicy) (event : NormalizedFinancialEvent)
    (occurredAt : Instant) (candidate : CandidateTransaction) : ℚ :=
  policy.weigh (timeSimilarity policy occurredAt candidate.transactionDate)
    (textSimilarity U event.merchantName candidate.merchantName)
    (textSimilarity U (some event.description) (some candidate.description))

/-! ### Scores by case -/

section Cases

variable {U : Unicode} {policy : ReconciliationPolicy} {event : NormalizedFinancialEvent}
  {candidate : CandidateTransaction} {occurredAt : Instant}

theorem sameMoney_iff : sameMoney event candidate = true ↔ Agrees event candidate := by
  simp [sameMoney, Agrees, and_assoc]

theorem shares_iff : event.paymentIdentifiers.any candidate.paymentIdentifiers.contains = true ↔
    Shares event candidate := by
  simp [Shares]

/-- An event without a time, or a candidate of other money or type. -/
theorem scoreCandidate_mismatch (h : event.occurredAt = none ∨ ¬ Agrees event candidate) :
    (scoreCandidate U policy event candidate).score = 0 ∧
      (scoreCandidate U policy event candidate).decision = .newTransaction := by
  unfold scoreCandidate
  cases ht : event.occurredAt with
  | none => exact ⟨rfl, rfl⟩
  | some t =>
    have hmoney : sameMoney event candidate = false := by
      rw [← Bool.not_eq_true, sameMoney_iff]
      exact h.resolve_left (by rw [ht]; exact Option.some_ne_none t)
    simp [hmoney, candidateResult]

/-- A shared identifier bypasses the weights. -/
theorem scoreCandidate_shared (ht : event.occurredAt = some occurredAt)
    (hagrees : Agrees event candidate) (hshares : Shares event candidate) :
    (scoreCandidate U policy event candidate).score = 1 ∧
      (scoreCandidate U policy event candidate).decision = .merge := by
  rw [← sameMoney_iff] at hagrees
  rw [← shares_iff] at hshares
  simp [scoreCandidate, ht, hagrees, hshares, candidateResult]

/-- Otherwise the score is the rounded closeness, and the thresholds decide. -/
theorem scoreCandidate_weighed (ht : event.occurredAt = some occurredAt)
    (hagrees : Agrees event candidate) (hshares : ¬ Shares event candidate) :
    (scoreCandidate U policy event candidate).score =
        quantizeHalfUp (closeness U policy event occurredAt candidate) ∧
      (scoreCandidate U policy event candidate).decision =
        policy.decisionAt (quantizeHalfUp (closeness U policy event occurredAt candidate)) := by
  rw [← sameMoney_iff] at hagrees
  rw [← shares_iff, Bool.not_eq_true] at hshares
  simp only [scoreCandidate, ht, hagrees, hshares, Bool.not_true, Bool.false_eq_true, if_false,
    candidateResult]
  rw [show decAdd (decAdd (decAdd policy.amountWeight (decMul policy.timeWeight
      (timeSimilarity policy occurredAt candidate.transactionDate))) (decMul policy.merchantWeight
      (textSimilarity U event.merchantName candidate.merchantName))) (decMul
      policy.descriptionWeight (textSimilarity U (some event.description)
      (some candidate.description))) = closeness U policy event occurredAt candidate from rfl]
  rw [ReconciliationPolicy.decisionAt]
  by_cases hmerge : policy.autoMergeThreshold ≤
      quantizeHalfUp (closeness U policy event occurredAt candidate)
  · rw [if_pos hmerge, if_pos hmerge]
    exact ⟨rfl, rfl⟩
  · rw [if_neg hmerge, if_neg hmerge]
    by_cases hflag : policy.possibleDuplicateThreshold ≤
        quantizeHalfUp (closeness U policy event occurredAt candidate)
    · rw [if_pos hflag, if_pos hflag]
      exact ⟨rfl, rfl⟩
    · rw [if_neg hflag, if_neg hflag]
      exact ⟨rfl, rfl⟩

end Cases

/-! ### Ranges -/

section Ranges

/-- A number of some ten-thousandths between zero and one. -/
def IsScore (score : ℚ) : Prop := ∃ n : ℕ, n ≤ 10000 ∧ score = n / 10 ^ 4

theorem IsScore.nonneg {score : ℚ} (h : IsScore score) : 0 ≤ score := by
  obtain ⟨n, -, rfl⟩ := h
  positivity

theorem IsScore.le_one {score : ℚ} (h : IsScore score) : score ≤ 1 := by
  obtain ⟨n, hn, rfl⟩ := h
  have hn' : (n : ℚ) ≤ 10000 := by exact_mod_cast hn
  rw [div_le_one (by norm_num)]
  linarith

theorem isScore_zero : IsScore 0 := ⟨0, by omega, by norm_num⟩

theorem isScore_one : IsScore 1 := ⟨10000, le_refl _, by norm_num⟩

theorem quantizeHalfUp_mono {x y : ℚ} (h : x ≤ y) : quantizeHalfUp x ≤ quantizeHalfUp y := by
  rw [quantizeHalfUp, quantizeHalfUp]
  have hle := roundHalfUp_mono (mul_le_mul_of_nonneg_right h (by norm_num : (0 : ℚ) ≤ 10 ^ 4))
  have hcast : ((roundHalfUp (x * 10 ^ 4) : ℤ) : ℚ) ≤ ((roundHalfUp (y * 10 ^ 4) : ℤ) : ℚ) := by
    exact_mod_cast hle
  exact div_le_div_of_nonneg_right hcast (by norm_num)

/-- Rounding to four places what is not more than half a place above one. -/
theorem isScore_quantize {x : ℚ} (hpos : 0 ≤ x) (hlt : x < 1 + 1 / 20000) :
    IsScore (quantizeHalfUp x) := by
  have hunits : roundHalfUp (x * 10 ^ 4) = ⌊x * 10 ^ 4 + 1 / 2⌋ := by
    rw [roundHalfUp, if_pos (by positivity)]
  have hlow : 0 ≤ ⌊x * 10 ^ 4 + 1 / 2⌋ := by
    rw [Int.floor_nonneg]
    positivity
  have hhigh : ⌊x * 10 ^ 4 + 1 / 2⌋ < 10001 := by
    rw [Int.floor_lt]
    push_cast
    linarith
  refine ⟨⌊x * 10 ^ 4 + 1 / 2⌋.toNat, by omega, ?_⟩
  have hcast : ((⌊x * 10 ^ 4 + 1 / 2⌋.toNat : ℕ) : ℚ) = ((⌊x * 10 ^ 4 + 1 / 2⌋ : ℤ) : ℚ) := by
    exact_mod_cast congrArg (Int.cast : ℤ → ℚ) (Int.toNat_of_nonneg hlow)
  rw [quantizeHalfUp, hunits, hcast]

/-- Rounded to one: half a place below it, or more. -/
theorem quantize_eq_one_iff {x : ℚ} (hpos : 0 ≤ x) (hlt : x < 1 + 1 / 20000) :
    quantizeHalfUp x = 1 ↔ 99995 / 100000 ≤ x := by
  have hunits : roundHalfUp (x * 10 ^ 4) = ⌊x * 10 ^ 4 + 1 / 2⌋ := by
    rw [roundHalfUp, if_pos (by positivity)]
  rw [quantizeHalfUp, hunits, div_eq_one_iff_eq (by norm_num)]
  have hcast : ((⌊x * 10 ^ 4 + 1 / 2⌋ : ℤ) : ℚ) = 10 ^ 4 ↔ ⌊x * 10 ^ 4 + 1 / 2⌋ = 10000 := by
    constructor
    · intro h
      have h' : ((⌊x * 10 ^ 4 + 1 / 2⌋ : ℤ) : ℚ) = ((10000 : ℤ) : ℚ) := by
        rw [h]
        norm_num
      exact_mod_cast h'
    · intro h
      rw [h]
      norm_num
  rw [hcast, Int.floor_eq_iff]
  push_cast
  constructor
  · intro h
    linarith [h.1]
  · intro h
    constructor <;> linarith

/-- The context keeps the unit interval. -/
theorem round_unit {x : ℚ} (hpos : 0 ≤ x) (hle : x ≤ 1) :
    0 ≤ defaultContext.round x ∧ defaultContext.round x ≤ 1 := by
  refine ⟨Context.round_nonneg hpos, ?_⟩
  have hone := Context.round_mono (c := defaultContext) (by decide) hpos hle
  have hexact : defaultContext.round 1 = 1 := by decide +kernel
  rwa [hexact] at hone

/-- Below ten, the context moves a number by less than a unit in the 27th place. -/
theorem round_near {x : ℚ} (h : |x| < 10) :
    |x - defaultContext.round x| ≤ 1 / 10 ^ 27 := by
  refine (Context.abs_sub_round_le (c := defaultContext) (s := 1) (by simpa using h) (by decide)
    (by decide)).trans ?_
  norm_num [defaultContext]

/-- `time_similarity` is in the unit interval. -/
theorem timeSimilarity_range (policy : ReconciliationPolicy) (occurredAt transactionDate : Instant) :
    0 ≤ timeSimilarity policy occurredAt transactionDate ∧
      timeSimilarity policy occurredAt transactionDate ≤ 1 := by
  rw [timeSimilarity]
  generalize hq : decDiv (|occurredAt - transactionDate| / 1000000)
    (policy.candidateWindow / 1000000) = q
  have hnonneg : 0 ≤ q := by
    have hwindow : (0 : ℚ) ≤ policy.candidateWindow := by
      have hminutes := policy.window_range.1
      have : (0 : ℤ) ≤ policy.candidateWindow := by
        rw [ReconciliationPolicy.candidateWindow, MINUTE]
        omega
      exact_mod_cast this
    rw [← hq, decDiv]
    apply Context.round_nonneg
    positivity
  refine ⟨le_max_left _ _, max_le (by norm_num) ?_⟩
  rw [decSub]
  by_cases hle : q ≤ 1
  · exact (round_unit (by linarith) (by linarith)).2
  · exact (Context.round_nonpos (by linarith)).trans (by norm_num)

/-- `_text_similarity` is a number of ten-thousandths in the unit interval. -/
theorem textSimilarity_range (U : Unicode) (left right : Option PyStr) :
    IsScore (textSimilarity U left right) := by
  unfold textSimilarity
  split
  · dsimp only
    split
    · exact isScore_zero
    split
    · exact isScore_one
    rename_i left right _ _
    generalize U.casefold (normalizeDisplayText U left) = l
    generalize U.casefold (normalizeDisplayText U right) = r
    have htokens : 0 ≤ (if (split l).dedup ∪ (split r).dedup = [] then (0 : ℚ)
          else decDiv ((split l).dedup ∩ (split r).dedup).length
            ((split l).dedup ∪ (split r).dedup).length) ∧
        (if (split l).dedup ∪ (split r).dedup = [] then (0 : ℚ)
          else decDiv ((split l).dedup ∩ (split r).dedup).length
            ((split l).dedup ∪ (split r).dedup).length) ≤ 1 := by
      split
      · norm_num
      · rename_i hne
        have hle : ((split l).dedup ∩ (split r).dedup).length ≤
            ((split l).dedup ∪ (split r).dedup).length := by
          have hsub : (split l).dedup ∩ (split r).dedup ⊆ (split l).dedup ∪ (split r).dedup :=
            fun token htoken => List.mem_union_iff.2 (.inr (List.mem_inter_iff.1 htoken).2)
          have hnodup : ((split l).dedup ∩ (split r).dedup).Nodup :=
            (List.nodup_dedup (split l)).filter _
          exact (hnodup.subperm hsub).length_le
        have hpos : 0 < ((split l).dedup ∪ (split r).dedup).length :=
          List.length_pos_iff.2 hne
        generalize ((split l).dedup ∩ (split r).dedup).length = p at hle ⊢
        generalize ((split l).dedup ∪ (split r).dedup).length = q at hle hpos ⊢
        have hpos' : (0 : ℚ) < q := by exact_mod_cast hpos
        apply round_unit
        · positivity
        · rw [div_le_one hpos']
          exact_mod_cast hle
    have hratio := similarityRatio_range l r
    refine isScore_quantize (le_max_of_le_left hratio.1) ?_
    exact lt_of_le_of_lt (max_le hratio.2 htokens.2) (by norm_num)
  · exact isScore_zero

/-- The weights, exactly: they miss one by less than three units in the 27th place. -/
theorem weights_near (policy : ReconciliationPolicy) :
    |1 - (policy.amountWeight + policy.timeWeight + policy.merchantWeight +
      policy.descriptionWeight)| ≤ 3 / 10 ^ 27 := by
  obtain ⟨ha, ha'⟩ := policy.unit_range policy.amountWeight (by simp)
  obtain ⟨ht, ht'⟩ := policy.unit_range policy.timeWeight (by simp)
  obtain ⟨hm, hm'⟩ := policy.unit_range policy.merchantWeight (by simp)
  obtain ⟨hd, hd'⟩ := policy.unit_range policy.descriptionWeight (by simp)
  have htotal := policy.weight_total
  rw [decAdd] at htotal
  have h₁ := round_near (x := policy.amountWeight + policy.timeWeight)
    (by rw [abs_lt]; constructor <;> linarith)
  rw [← decAdd] at h₁
  generalize decAdd policy.amountWeight policy.timeWeight = s₁ at h₁ htotal
  rw [abs_le] at h₁
  have h₂ := round_near (x := s₁ + policy.merchantWeight)
    (by rw [abs_lt]; constructor <;> linarith)
  rw [← decAdd] at h₂
  generalize decAdd s₁ policy.merchantWeight = s₂ at h₂ htotal
  rw [abs_le] at h₂
  have h₃ := round_near (x := s₂ + policy.descriptionWeight)
    (by rw [abs_lt]; constructor <;> linarith)
  rw [htotal, abs_le] at h₃
  rw [abs_le]
  constructor <;> linarith

/-- The weighing of similarities in the unit interval is not negative, and hardly exceeds one. -/
theorem weigh_range (policy : ReconciliationPolicy) {time merchant description : ℚ}
    (htime : 0 ≤ time ∧ time ≤ 1) (hmerchant : 0 ≤ merchant ∧ merchant ≤ 1)
    (hdescription : 0 ≤ description ∧ description ≤ 1) :
    0 ≤ policy.weigh time merchant description ∧
      policy.weigh time merchant description < 1 + 1 / 20000 := by
  obtain ⟨ha, ha'⟩ := policy.unit_range policy.amountWeight (by simp)
  obtain ⟨ht, ht'⟩ := policy.unit_range policy.timeWeight (by simp)
  obtain ⟨hm, hm'⟩ := policy.unit_range policy.merchantWeight (by simp)
  obtain ⟨hd, hd'⟩ := policy.unit_range policy.descriptionWeight (by simp)
  have hweights := (abs_le.1 (weights_near policy)).1
  have hproduct : ∀ {w s : ℚ}, 0 ≤ w → 0 ≤ s ∧ s ≤ 1 → w ≤ 1 →
      0 ≤ decMul w s ∧ decMul w s ≤ w + 1 / 10 ^ 27 := by
    intro w s hw hs hw'
    have hle : w * s ≤ w := mul_le_of_le_one_right hw hs.2
    have hpos : 0 ≤ w * s := mul_nonneg hw hs.1
    have hnear := (abs_le.1 (round_near (x := w * s) (by rw [abs_lt]; constructor <;> linarith))).1
    exact ⟨Context.round_nonneg hpos, by rw [decMul]; linarith⟩
  obtain ⟨hp₁, hq₁⟩ := hproduct ht htime ht'
  obtain ⟨hp₂, hq₂⟩ := hproduct hm hmerchant hm'
  obtain ⟨hp₃, hq₃⟩ := hproduct hd hdescription hd'
  rw [ReconciliationPolicy.weigh]
  generalize decMul policy.timeWeight time = p₁ at hp₁ hq₁ ⊢
  generalize decMul policy.merchantWeight merchant = p₂ at hp₂ hq₂ ⊢
  generalize decMul policy.descriptionWeight description = p₃ at hp₃ hq₃ ⊢
  have hsum : ∀ {x y : ℚ}, 0 ≤ x → 0 ≤ y → x + y < 10 →
      0 ≤ decAdd x y ∧ decAdd x y ≤ x + y + 1 / 10 ^ 27 := by
    intro x y hx hy hlt
    have hnear := (abs_le.1 (round_near (x := x + y) (by rw [abs_lt]; constructor <;> linarith))).1
    exact ⟨Context.round_nonneg (add_nonneg hx hy), by rw [decAdd]; linarith⟩
  obtain ⟨hs₁, hr₁⟩ := hsum ha hp₁ (by linarith)
  generalize decAdd policy.amountWeight p₁ = s₁ at hs₁ hr₁ ⊢
  obtain ⟨hs₂, hr₂⟩ := hsum hs₁ hp₂ (by linarith)
  generalize decAdd s₁ p₂ = s₂ at hs₂ hr₂ ⊢
  obtain ⟨hs₃, hr₃⟩ := hsum hs₂ hp₃ (by linarith)
  refine ⟨hs₃, ?_⟩
  linarith

end Ranges

section Law

variable {U : Unicode} {policy : ReconciliationPolicy} {event : NormalizedFinancialEvent}
  {candidate : CandidateTransaction} {occurredAt : Instant}

theorem closeness_range : 0 ≤ closeness U policy event occurredAt candidate ∧
    closeness U policy event occurredAt candidate < 1 + 1 / 20000 := by
  have hmerchant := textSimilarity_range U event.merchantName candidate.merchantName
  have hdescription := textSimilarity_range U (some event.description) (some candidate.description)
  exact weigh_range policy (timeSimilarity_range _ _ _) ⟨hmerchant.nonneg, hmerchant.le_one⟩
    ⟨hdescription.nonneg, hdescription.le_one⟩

/-- Every score is a number of ten-thousandths between zero and one. -/
theorem scoreCandidate_range : IsScore (scoreCandidate U policy event candidate).score := by
  by_cases hmatch : event.occurredAt = none ∨ ¬ Agrees event candidate
  · rw [(scoreCandidate_mismatch hmatch).1]
    exact isScore_zero
  rw [not_or, not_not] at hmatch
  obtain ⟨occurredAt, ht⟩ := Option.ne_none_iff_exists'.1 hmatch.1
  by_cases hshares : Shares event candidate
  · rw [(scoreCandidate_shared ht hmatch.2 hshares).1]
    exact isScore_one
  · rw [(scoreCandidate_weighed ht hmatch.2 hshares).1]
    exact isScore_quantize closeness_range.1 closeness_range.2

/-- The thresholds decide, of an event that has a time and a candidate that agrees with it. -/
theorem scoreCandidate_decision (ht : event.occurredAt = some occurredAt)
    (hagrees : Agrees event candidate) :
    (scoreCandidate U policy event candidate).decision =
      policy.decisionAt (scoreCandidate U policy event candidate).score := by
  by_cases hshares : Shares event candidate
  · have hcase : (scoreCandidate U policy event candidate).score = 1 ∧
        (scoreCandidate U policy event candidate).decision = .merge :=
      scoreCandidate_shared ht hagrees hshares
    obtain ⟨hscore, hdecision⟩ := hcase
    have hauto := (policy.unit_range policy.autoMergeThreshold (by simp)).2
    rw [hscore, hdecision, ReconciliationPolicy.decisionAt, if_pos hauto]
  · rw [(scoreCandidate_weighed ht hagrees hshares).2, (scoreCandidate_weighed ht hagrees hshares).1]

/-- The decisions by their thresholds. -/
theorem decisionAt_iff (policy : ReconciliationPolicy) (score : ℚ) :
    (policy.decisionAt score = .merge ↔ policy.autoMergeThreshold ≤ score) ∧
    (policy.decisionAt score = .possibleDuplicate ↔
      score < policy.autoMergeThreshold ∧ policy.possibleDuplicateThreshold ≤ score) := by
  rw [ReconciliationPolicy.decisionAt]
  by_cases hmerge : policy.autoMergeThreshold ≤ score
  · rw [if_pos hmerge]
    simp [hmerge]
  · by_cases hflag : policy.possibleDuplicateThreshold ≤ score
    · rw [if_neg hmerge, if_pos hflag]
      simp [hmerge, hflag, not_le.1 hmerge]
    · rw [if_neg hmerge, if_neg hflag]
      simp [hmerge, hflag]

/-! ### Distance in time -/

/-- A later or earlier time is not more similar. -/
theorem timeSimilarity_antitone {near far : Instant}
    (h : |occurredAt - near| ≤ |occurredAt - far|) :
    timeSimilarity policy occurredAt far ≤ timeSimilarity policy occurredAt near := by
  rw [timeSimilarity, timeSimilarity]
  have hwindow : (0 : ℚ) < policy.candidateWindow / 1000000 := by
    have hminutes := policy.window_range.1
    have hpos : (0 : ℤ) < policy.candidateWindow := by
      rw [ReconciliationPolicy.candidateWindow, MINUTE]
      omega
    have hpos' : (0 : ℚ) < policy.candidateWindow := by exact_mod_cast hpos
    positivity
  have hdistance : ((|occurredAt - near| : ℤ) : ℚ) / 1000000 ≤
      ((|occurredAt - far| : ℤ) : ℚ) / 1000000 := by
    have hcast : ((|occurredAt - near| : ℤ) : ℚ) ≤ ((|occurredAt - far| : ℤ) : ℚ) := by
      exact_mod_cast h
    exact div_le_div_of_nonneg_right hcast (by norm_num)
  have hquotient : decDiv (|occurredAt - near| / 1000000) (policy.candidateWindow / 1000000) ≤
      decDiv (|occurredAt - far| / 1000000) (policy.candidateWindow / 1000000) := by
    rw [decDiv, decDiv]
    refine Context.round_mono (by decide) (by positivity) ?_
    exact div_le_div_of_nonneg_right hdistance hwindow.le
  generalize decDiv (|occurredAt - near| / 1000000) (policy.candidateWindow / 1000000) = q
    at hquotient ⊢
  generalize decDiv (|occurredAt - far| / 1000000) (policy.candidateWindow / 1000000) = q'
    at hquotient ⊢
  refine max_le (le_max_left _ _) ?_
  by_cases hle : q' ≤ 1
  · refine le_max_of_le_right ?_
    rw [decSub, decSub]
    exact Context.round_mono (by decide) (by linarith) (by linarith)
  · refine le_max_of_le_left ?_
    rw [decSub]
    exact Context.round_nonpos (by linarith)

/-- A greater similarity in time does not weigh less. -/
theorem weigh_mono {time time' merchant description : ℚ} (htime : 0 ≤ time) (hle : time ≤ time')
    (hmerchant : 0 ≤ merchant) (hdescription : 0 ≤ description) :
    policy.weigh time merchant description ≤ policy.weigh time' merchant description := by
  have ha := (policy.unit_range policy.amountWeight (by simp)).1
  have ht := (policy.unit_range policy.timeWeight (by simp)).1
  have hm := (policy.unit_range policy.merchantWeight (by simp)).1
  have hd := (policy.unit_range policy.descriptionWeight (by simp)).1
  have hadd : ∀ {x x' y : ℚ}, 0 ≤ x → x ≤ x' → 0 ≤ y → decAdd x y ≤ decAdd x' y := by
    intro x x' y hx hxx' hy
    exact Context.round_mono (by decide) (add_nonneg hx hy) (by linarith)
  have hnonneg : ∀ {x y : ℚ}, 0 ≤ x → 0 ≤ y → 0 ≤ decAdd x y :=
    fun hx hy => Context.round_nonneg (add_nonneg hx hy)
  have hproduct : ∀ {w s : ℚ}, 0 ≤ w → 0 ≤ s → 0 ≤ decMul w s :=
    fun hw hs => Context.round_nonneg (mul_nonneg hw hs)
  have htimes : decMul policy.timeWeight time ≤ decMul policy.timeWeight time' :=
    Context.round_mono (by decide) (mul_nonneg ht htime) (mul_le_mul_of_nonneg_left hle ht)
  have hfirst : decAdd policy.amountWeight (decMul policy.timeWeight time) ≤
      decAdd policy.amountWeight (decMul policy.timeWeight time') :=
    Context.round_mono (by decide) (add_nonneg ha (hproduct ht htime)) (by linarith)
  rw [ReconciliationPolicy.weigh, ReconciliationPolicy.weigh]
  apply hadd
  · exact hnonneg (hnonneg ha (hproduct ht htime)) (hproduct hm hmerchant)
  · exact hadd (hnonneg ha (hproduct ht htime)) hfirst (hproduct hm hmerchant)
  · exact hproduct hd hdescription

theorem closeness_antitone {other : CandidateTransaction}
    (h : |occurredAt - candidate.transactionDate| ≤ |occurredAt - other.transactionDate|)
    (hmerchant : other.merchantName = candidate.merchantName)
    (hdescription : other.description = candidate.description) :
    closeness U policy event occurredAt other ≤ closeness U policy event occurredAt candidate := by
  rw [closeness, closeness, hmerchant, hdescription]
  exact weigh_mono (timeSimilarity_range _ _ _).1 (timeSimilarity_antitone h)
    (textSimilarity_range _ _ _).nonneg (textSimilarity_range _ _ _).nonneg

/-- All else equal, a candidate nearer in time never scores lower. -/
theorem scoreCandidate_antitone {other : CandidateTransaction}
    (hother : other = { candidate with
      id := other.id
      transactionDate := other.transactionDate })
    (h : ∀ occurredAt, event.occurredAt = some occurredAt →
      |occurredAt - candidate.transactionDate| ≤ |occurredAt - other.transactionDate|) :
    (scoreCandidate U policy event other).score ≤ (scoreCandidate U policy event candidate).score := by
  have hagrees : Agrees event other ↔ Agrees event candidate := by
    rw [hother]
    exact Iff.rfl
  have hshares : Shares event other ↔ Shares event candidate := by
    rw [hother]
    exact Iff.rfl
  by_cases hmatch : event.occurredAt = none ∨ ¬ Agrees event candidate
  · rw [(scoreCandidate_mismatch (hmatch.imp_right (mt hagrees.1))).1]
    exact scoreCandidate_range.nonneg
  rw [not_or, not_not] at hmatch
  obtain ⟨occurredAt, ht⟩ := Option.ne_none_iff_exists'.1 hmatch.1
  by_cases hshared : Shares event candidate
  · rw [(scoreCandidate_shared ht hmatch.2 hshared).1]
    exact scoreCandidate_range.le_one
  · rw [(scoreCandidate_weighed ht hmatch.2 hshared).1,
      (scoreCandidate_weighed ht (hagrees.2 hmatch.2) (mt hshares.1 hshared)).1]
    apply quantizeHalfUp_mono
    exact closeness_antitone (h occurredAt ht) (by rw [hother]) (by rw [hother])

end Law

/-! ### The chosen candidate -/

section Best

theorem rankedBefore_iff {a b : ReconciliationResult} : rankedBefore a b = true ↔
    b.score < a.score ∨ b.score = a.score ∧
      a.candidateTransactionId.getD 0 ≤ b.candidateTransactionId.getD 0 := by
  simp [rankedBefore]

theorem rankedBefore_refl (a : ReconciliationResult) : rankedBefore a a = true :=
  rankedBefore_iff.2 (.inr ⟨rfl, le_refl _⟩)

theorem rankedBefore_trans {a b c : ReconciliationResult} (hab : rankedBefore a b = true)
    (hbc : rankedBefore b c = true) : rankedBefore a c = true := by
  rw [rankedBefore_iff] at hab hbc ⊢
  rcases hab with hab | ⟨hab, hid⟩
  · rcases hbc with hbc | ⟨hbc, -⟩
    · exact .inl (hbc.trans hab)
    · exact .inl (hbc ▸ hab)
  · rcases hbc with hbc | ⟨hbc, hid'⟩
    · exact .inl (hab ▸ hbc)
    · exact .inr ⟨hbc.trans hab, hid.trans hid'⟩

/-- The better of two results is one of them and comes before both. -/
theorem better_spec (a b : ReconciliationResult) : (better a b = a ∨ better a b = b) ∧
    rankedBefore (better a b) a = true ∧ rankedBefore (better a b) b = true := by
  unfold better
  by_cases h : rankedBefore a b = true
  · rw [if_pos h]
    exact ⟨.inl rfl, rankedBefore_refl a, h⟩
  · rw [if_neg h]
    refine ⟨.inr rfl, ?_, rankedBefore_refl b⟩
    rw [rankedBefore_iff] at h ⊢
    rw [not_or, not_and] at h
    rcases (not_lt.1 h.1).lt_or_eq with hlt | heq
    · exact .inl hlt
    · exact .inr ⟨heq, (not_le.1 (h.2 heq.symm)).le⟩

/-- Going through some results keeps one of them that comes before all. -/
theorem foldl_better_best (results : List ReconciliationResult) :
    ∀ first, results.foldl better first ∈ first :: results ∧
      ∀ r ∈ first :: results, rankedBefore (results.foldl better first) r = true := by
  induction results with
  | nil =>
    intro first
    refine ⟨List.mem_singleton_self first, fun r hr => ?_⟩
    rw [List.mem_singleton.1 hr]
    exact rankedBefore_refl first
  | cons second results ih =>
    intro first
    obtain ⟨hone, hfirst, hsecond⟩ := better_spec first second
    obtain ⟨hmem, hbefore⟩ := ih (better first second)
    rw [List.foldl_cons]
    have hbest := hbefore (better first second) List.mem_cons_self
    constructor
    · rcases List.mem_cons.1 hmem with h | h
      · rw [h]
        rcases hone with hone | hone <;> simp [hone]
      · exact List.mem_cons_of_mem _ (List.mem_cons_of_mem _ h)
    · intro r hr
      rcases List.mem_cons.1 hr with rfl | hr
      · exact rankedBefore_trans hbest hfirst
      rcases List.mem_cons.1 hr with rfl | hr
      · exact rankedBefore_trans hbest hsecond
      · exact hbefore r (List.mem_cons_of_mem _ hr)

variable {U : Unicode} {policy : ReconciliationPolicy} {event : NormalizedFinancialEvent}
  {candidates : List CandidateTransaction}

/-- The chosen result is that of a candidate, and comes before those of all others. -/
theorem reconcileCandidates_best (U : Unicode) (policy : ReconciliationPolicy)
    (event : NormalizedFinancialEvent) (hne : candidates ≠ []) : ∃ c ∈ candidates,
    reconcileCandidates U policy event candidates = scoreCandidate U policy event c ∧
      ∀ c' ∈ candidates, rankedBefore (scoreCandidate U policy event c)
        (scoreCandidate U policy event c') = true := by
  cases candidates with
  | nil => exact absurd rfl hne
  | cons first rest =>
    obtain ⟨hmem, hbefore⟩ := foldl_better_best (rest.map (scoreCandidate U policy event))
      (scoreCandidate U policy event first)
    rw [← List.map_cons (f := scoreCandidate U policy event)] at hmem hbefore
    obtain ⟨c, hc, heq⟩ := List.mem_map.1 hmem
    refine ⟨c, hc, heq.symm, fun c' hc' => ?_⟩
    rw [heq]
    exact hbefore _ (List.mem_map_of_mem hc')

/-- No candidate scores more than the chosen one. -/
theorem rankedBefore_score {c c' : CandidateTransaction}
    (h : rankedBefore (scoreCandidate U policy event c) (scoreCandidate U policy event c') = true) :
    (scoreCandidate U policy event c').score ≤ (scoreCandidate U policy event c).score := by
  rcases rankedBefore_iff.1 h with h | ⟨h, -⟩
  · exact h.le
  · exact h.le

/-- Of equal scores the smaller identifier comes first. -/
theorem rankedBefore_id {c c' : CandidateTransaction}
    (h : rankedBefore (scoreCandidate U policy event c) (scoreCandidate U policy event c') = true)
    (heq : (scoreCandidate U policy event c).score = (scoreCandidate U policy event c').score) :
    c.id ≤ c'.id := by
  rcases rankedBefore_iff.1 h with h | ⟨-, h⟩
  · exact absurd heq.symm h.ne
  · rwa [scoreCandidate_id, scoreCandidate_id] at h

/-- The choice does not depend on the order of the candidates. -/
theorem reconcileCandidates_perm {candidates' : List CandidateTransaction}
    (hperm : candidates.Perm candidates') (hids : (candidates.map CandidateTransaction.id).Nodup) :
    reconcileCandidates U policy event candidates =
      reconcileCandidates U policy event candidates' := by
  by_cases hne : candidates = []
  · subst hne
    rw [hperm.nil_eq]
  have hne' : candidates' ≠ [] := fun h => hne (by rw [h] at hperm; exact hperm.eq_nil)
  obtain ⟨c, hc, heq, hbest⟩ := reconcileCandidates_best U policy event hne
  obtain ⟨c', hc', heq', hbest'⟩ := reconcileCandidates_best U policy event hne'
  -- each of the two comes before the other, so they have one identifier
  have hbefore := hbest c' (hperm.mem_iff.2 hc')
  have hbefore' := hbest' c (hperm.mem_iff.1 hc)
  have hscore := le_antisymm (rankedBefore_score hbefore') (rankedBefore_score hbefore)
  have hid := le_antisymm (rankedBefore_id hbefore hscore) (rankedBefore_id hbefore' hscore.symm)
  have hsame := List.inj_on_of_nodup_map hids hc (hperm.mem_iff.2 hc') hid
  rw [heq, heq', hsame]

theorem reconcileCandidates_range :
    IsScore (reconcileCandidates U policy event candidates).score := by
  by_cases hne : candidates = []
  · subst hne
    exact isScore_zero
  · obtain ⟨c, -, heq, -⟩ := reconcileCandidates_best U policy event hne
    rw [heq]
    exact scoreCandidate_range

end Best

/-- **The law of scores.**  The choice does not depend on the order of the candidates; scores are
    numbers of ten-thousandths between zero and one; a candidate of other money or type is never
    merged or flagged, and nothing is for an event without a time; for an event with a time and a
    candidate that agrees with it the thresholds decide; and all else equal, a candidate nearer
    in time never scores lower. -/
theorem scoring_law (U : Unicode) (policy : ReconciliationPolicy)
    (event : NormalizedFinancialEvent) :
    (∀ candidates candidates' : List CandidateTransaction, candidates.Perm candidates' →
      (candidates.map CandidateTransaction.id).Nodup →
      reconcileCandidates U policy event candidates =
        reconcileCandidates U policy event candidates') ∧
    (∀ candidates, ∃ n : ℕ, n ≤ 10000 ∧
      (reconcileCandidates U policy event candidates).score = n / 10 ^ 4) ∧
    ∀ candidate, (∃ n : ℕ, n ≤ 10000 ∧
        (scoreCandidate U policy event candidate).score = n / 10 ^ 4) ∧
      (event.occurredAt = none ∨ ¬ Agrees event candidate →
        (scoreCandidate U policy event candidate).decision = .newTransaction) ∧
      (event.occurredAt ≠ none → Agrees event candidate →
        ((scoreCandidate U policy event candidate).decision = .merge ↔
          policy.autoMergeThreshold ≤ (scoreCandidate U policy event candidate).score) ∧
        ((scoreCandidate U policy event candidate).decision = .possibleDuplicate ↔
          (scoreCandidate U policy event candidate).score < policy.autoMergeThreshold ∧
          policy.possibleDuplicateThreshold ≤ (scoreCandidate U policy event candidate).score)) ∧
      ∀ other : CandidateTransaction, other = { candidate with
          id := other.id
          transactionDate := other.transactionDate } →
        (∀ occurredAt, event.occurredAt = some occurredAt →
          |occurredAt - candidate.transactionDate| ≤ |occurredAt - other.transactionDate|) →
        (scoreCandidate U policy event other).score ≤
          (scoreCandidate U policy event candidate).score := by
  refine ⟨fun _ _ hperm hids => reconcileCandidates_perm hperm hids,
    fun _ => reconcileCandidates_range, fun candidate => ⟨scoreCandidate_range,
      fun h => (scoreCandidate_mismatch h).2, fun htime hagrees => ?_,
      fun _ hother h => scoreCandidate_antitone hother h⟩⟩
  obtain ⟨occurredAt, ht⟩ := Option.ne_none_iff_exists'.1 htime
  rw [scoreCandidate_decision ht hagrees]
  exact decisionAt_iff policy _

/-- A policy that flags every score below the automatic merge. -/
def flaggingPolicy : ReconciliationPolicy :=
  { ReconciliationPolicy.default with
    possibleDuplicateThreshold := 0
    unit_range := by decide +kernel
    thresholds := by decide +kernel }

/-- A coffee as an event. -/
def coffeeEvent (occurredAt : Option Instant) (paymentIdentifiers : List PyStr) :
    NormalizedFinancialEvent where
  id := 1
  userId := 1
  rawEventId := 1
  schemaVersion := "financial-event/v1"
  normalizerKey := "fixture"
  normalizerVersion := "1"
  eventKind := .expense
  amount := some ⟨35000, by norm_num⟩
  currency := some (py "EUR")
  description := py "coffee"
  occurredAt := occurredAt
  merchantName := some (py "cafe")
  counterparty := none
  categoryHint := none
  tags := []
  paymentIdentifiers := paymentIdentifiers
  confidence := none

/-- A coffee as a transaction. -/
def coffeeTransaction (id : Uuid) (transactionDate : Instant) (paymentIdentifiers : List PyStr) :
    CandidateTransaction where
  id := id
  amount := ⟨35000, by norm_num⟩
  currency := py "EUR"
  transactionType := .expense
  description := py "coffee"
  transactionDate := transactionDate
  merchantName := some (py "cafe")
  paymentIdentifiers := paymentIdentifiers

/-- The same coffee, an hour later and a minute later. -/
theorem scoring_law_hour :
    (scoreCandidate .plain .default (coffeeEvent (some 0) []) (coffeeTransaction 2 (60 * MINUTE) [])).score ≤
      (scoreCandidate .plain .default (coffeeEvent (some 0) []) (coffeeTransaction 1 MINUTE [])).score := by
  have hnearer : |(0 : ℤ) - MINUTE| ≤ |0 - 60 * MINUTE| := by decide
  refine ((scoring_law .plain .default (coffeeEvent (some 0) [])).2.2
    (coffeeTransaction 1 MINUTE [])).2.2.2 (coffeeTransaction 2 (60 * MINUTE) []) rfl ?_
  intro occurredAt ht
  obtain rfl := Option.some.inj ht
  exact hnearer

/-- Without a time, an event that agrees with a candidate is not flagged, though the score of zero
    reaches the threshold. -/
theorem timeless_not_flagged : Agrees (coffeeEvent none []) (coffeeTransaction 1 0 []) ∧
    ¬ ((scoreCandidate .plain flaggingPolicy (coffeeEvent none []) (coffeeTransaction 1 0 [])).decision =
          .possibleDuplicate ↔
        (scoreCandidate .plain flaggingPolicy (coffeeEvent none []) (coffeeTransaction 1 0 [])).score <
          flaggingPolicy.autoMergeThreshold ∧
        flaggingPolicy.possibleDuplicateThreshold ≤
          (scoreCandidate .plain flaggingPolicy (coffeeEvent none []) (coffeeTransaction 1 0 [])).score) := by
  refine ⟨⟨rfl, rfl, rfl⟩, fun hiff => ?_⟩
  have hbelow : (0 : ℚ) < flaggingPolicy.autoMergeThreshold ∧
      flaggingPolicy.possibleDuplicateThreshold ≤ 0 := by
    constructor
    · show (0 : ℚ) < 92 / 100
      norm_num
    · exact le_refl _
  have hflagged := hiff.2 hbelow
  cases hflagged

end Expensea.Reconciliation
