import Expensea.Reconciliation.ScoringLaw

namespace Expensea.Reconciliation

/-!
# Precedence and ambiguity

Shared payment identifiers score `1.0000` and so do candidates that agree in everything else; ties
are broken by the identifier of the transaction before the decision is taken.

* `Rivals` — the candidate scores as much as a shared identifier does;
* `precedence_iff` — when the chosen candidate shares an identifier;
* `Ambiguous` — two candidates match the event equally well, and well enough to merge;
* `ambiguity_reviewed_iff` — when a tie for the best score is not merged.
-/

section Ambiguity

variable (U : Unicode) (policy : ReconciliationPolicy) (event : NormalizedFinancialEvent)

/-- The weights bring the candidate to `1.0000` without an identifier, or the event has no time and
    every candidate has the same score. -/
def Rivals (candidate : CandidateTransaction) : Prop :=
  event.occurredAt = none ∨ ∃ occurredAt, event.occurredAt = some occurredAt ∧
    99995 / 100000 ≤ closeness U policy event occurredAt candidate

/-- Two different candidates have the same score, and none has more. -/
def TiesAtBest (candidates : List CandidateTransaction) : Prop :=
  ∃ c₁ ∈ candidates, ∃ c₂ ∈ candidates, c₁ ≠ c₂ ∧
    (scoreCandidate U policy event c₁).score = (scoreCandidate U policy event c₂).score ∧
    ∀ c ∈ candidates,
      (scoreCandidate U policy event c).score ≤ (scoreCandidate U policy event c₁).score

/-- Two different candidates agree with the event, and either one shares an identifier with it and
    the other does too or is brought to `1.0000` by the weights; or no candidate shares one, and
    the weights bring both to the same four places, as far as any other and to the threshold. -/
def Ambiguous (candidates : List CandidateTransaction) : Prop :=
  ∃ occurredAt, event.occurredAt = some occurredAt ∧
    ∃ c₁ ∈ candidates, ∃ c₂ ∈ candidates, c₁ ≠ c₂ ∧ Agrees event c₁ ∧ Agrees event c₂ ∧
      ((Shares event c₁ ∧
          (Shares event c₂ ∨ 99995 / 100000 ≤ closeness U policy event occurredAt c₂)) ∨
        (∀ c ∈ candidates, Agrees event c → ¬ Shares event c) ∧
          quantizeHalfUp (closeness U policy event occurredAt c₁) =
            quantizeHalfUp (closeness U policy event occurredAt c₂) ∧
          policy.autoMergeThreshold ≤ quantizeHalfUp (closeness U policy event occurredAt c₁) ∧
          ∀ c ∈ candidates, Agrees event c →
            quantizeHalfUp (closeness U policy event occurredAt c) ≤
              quantizeHalfUp (closeness U policy event occurredAt c₁))

variable {U policy event}

/-- A candidate that agrees scores `1.0000` if it shares an identifier or the weights bring it
    there. -/
theorem score_eq_one_iff {occurredAt : Instant} {c : CandidateTransaction}
    (ht : event.occurredAt = some occurredAt) (hagrees : Agrees event c) :
    (scoreCandidate U policy event c).score = 1 ↔
      Shares event c ∨ 99995 / 100000 ≤ closeness U policy event occurredAt c := by
  by_cases hshares : Shares event c
  · rw [(scoreCandidate_shared ht hagrees hshares).1]
    exact iff_of_true rfl (.inl hshares)
  · rw [(scoreCandidate_weighed ht hagrees hshares).1,
      quantize_eq_one_iff closeness_range.1 closeness_range.2]
    exact (or_iff_right hshares).symm

/-- A score that reaches the automatic merge is that of a candidate that agrees with an event that
    has a time. -/
theorem agrees_of_merge {c : CandidateTransaction}
    (h : policy.autoMergeThreshold ≤ (scoreCandidate U policy event c).score) :
    (∃ occurredAt, event.occurredAt = some occurredAt) ∧ Agrees event c := by
  by_contra hmatch
  have hmismatch : event.occurredAt = none ∨ ¬ Agrees event c := by
    by_cases ht : event.occurredAt = none
    · exact .inl ht
    · exact .inr fun hagrees => hmatch ⟨Option.ne_none_iff_exists'.1 ht, hagrees⟩
  rw [(scoreCandidate_mismatch hmismatch).1] at h
  have hpossible := (policy.unit_range policy.possibleDuplicateThreshold (by simp)).1
  have hthresholds := policy.thresholds
  linarith

/-- The decision is a merge exactly if the chosen candidate's score reaches the automatic merge. -/
theorem merge_iff {c : CandidateTransaction} :
    (scoreCandidate U policy event c).decision = .merge ↔
      policy.autoMergeThreshold ≤ (scoreCandidate U policy event c).score := by
  constructor
  · intro h
    have hsame : sameMoney event c = true ∧ event.occurredAt.isSome := by
      apply scoreCandidate_same
      rw [h]
      decide
    obtain ⟨hmoney, htime⟩ := hsame
    obtain ⟨occurredAt, ht⟩ := Option.isSome_iff_exists.1 htime
    rw [scoreCandidate_decision ht (sameMoney_iff.1 hmoney)] at h
    exact (decisionAt_iff policy _).1.1 h
  · intro h
    obtain ⟨⟨occurredAt, ht⟩, hagrees⟩ := agrees_of_merge h
    rw [scoreCandidate_decision ht hagrees]
    exact (decisionAt_iff policy _).1.2 h

/-! ### Identifiers take precedence -/

/-- Without a shared identifier, a candidate scores as much as one with, exactly if it rivals. -/
theorem rivals_iff {s c : CandidateTransaction} (hs : Agrees event s) (hshares : Shares event s)
    (hc : Agrees event c) (hnot : ¬ Shares event c) :
    (scoreCandidate U policy event s).score = (scoreCandidate U policy event c).score ↔
      Rivals U policy event c := by
  cases ht : event.occurredAt with
  | none =>
    rw [(scoreCandidate_mismatch (.inl ht)).1, (scoreCandidate_mismatch (.inl ht)).1]
    exact iff_of_true rfl (.inl ht)
  | some occurredAt =>
    rw [(scoreCandidate_shared ht hs hshares).1, eq_comm, score_eq_one_iff ht hc, Rivals, ht]
    rw [or_iff_right hnot]
    constructor
    · intro h
      exact .inr ⟨occurredAt, rfl, h⟩
    · intro h
      rcases h with h | ⟨t, h, hclose⟩
      · cases h
      · rwa [Option.some.inj h]

/-- No candidate that agrees scores more than one that shares an identifier. -/
theorem score_le_shared {s c : CandidateTransaction} (hs : Agrees event s)
    (hshares : Shares event s) :
    (scoreCandidate U policy event c).score ≤ (scoreCandidate U policy event s).score := by
  cases ht : event.occurredAt with
  | none =>
    rw [(scoreCandidate_mismatch (.inl ht)).1, (scoreCandidate_mismatch (.inl ht)).1]
  | some occurredAt =>
    rw [(scoreCandidate_shared ht hs hshares).1]
    exact scoreCandidate_range.le_one

/-- **When exact identifiers take precedence.**  If some candidate shares an identifier with the
    event, the chosen one does if and only if every rival without a shared identifier has a later
    transaction identifier than some candidate with one. -/
theorem precedence_iff {candidates : List CandidateTransaction}
    (hids : (candidates.map CandidateTransaction.id).Nodup)
    (hagrees : ∀ c ∈ candidates, Agrees event c) (hshares : ∃ c ∈ candidates, Shares event c) :
    (∃ c ∈ candidates, Shares event c ∧
      (reconcileCandidates U policy event candidates).candidateTransactionId = some c.id) ↔
    ∀ c ∈ candidates, ¬ Shares event c → Rivals U policy event c →
      ∃ s ∈ candidates, Shares event s ∧ s.id < c.id := by
  obtain ⟨s, hs, hsshares⟩ := hshares
  obtain ⟨best, hbest, heq, hbefore⟩ := reconcileCandidates_best U policy event
      (List.ne_nil_of_mem hs)
  rw [heq, scoreCandidate_id]
  constructor
  · intro h c hc hnot hrivals
    obtain ⟨chosen, hchosen, hchosenShares, hid⟩ := h
    obtain rfl := List.inj_on_of_nodup_map hids hbest hchosen (Option.some.inj hid)
    have hscore := (rivals_iff (hagrees best hbest) hchosenShares (hagrees c hc) hnot).2 hrivals
    refine ⟨best, hbest, hchosenShares, lt_of_le_of_ne (rankedBefore_id (hbefore c hc) hscore) ?_⟩
    intro hsame
    rw [List.inj_on_of_nodup_map hids hbest hc hsame] at hchosenShares
    exact hnot hchosenShares
  · intro h
    by_contra hnone
    have hnot : ¬ Shares event best := fun hbestShares => hnone ⟨best, hbest, hbestShares, rfl⟩
    -- the chosen one is a rival, so a candidate with a shared identifier comes before it
    have hscore : ∀ s ∈ candidates, Shares event s →
        (scoreCandidate U policy event s).score = (scoreCandidate U policy event best).score :=
      fun s hs hshares => le_antisymm (rankedBefore_score (hbefore s hs))
        (score_le_shared (hagrees s hs) hshares)
    have hrivals := (rivals_iff (hagrees s hs) hsshares (hagrees best hbest) hnot).1
      (hscore s hs hsshares)
    obtain ⟨s', hs', hs'shares, hlt⟩ := h best hbest hnot hrivals
    have hle := rankedBefore_id (hbefore s' hs') (hscore s' hs' hs'shares).symm
    exact absurd hlt (not_lt.2 hle)

/-! ### Ambiguity goes to review -/

/-- **When ambiguity goes to review.**  A tie of two candidates for the best score is not merged,
    if and only if no two candidates are ambiguous. -/
theorem ambiguity_reviewed_iff (U : Unicode) (policy : ReconciliationPolicy)
    (event : NormalizedFinancialEvent) (candidates : List CandidateTransaction) :
    (TiesAtBest U policy event candidates →
      (reconcileCandidates U policy event candidates).decision ≠ .merge) ↔
    ¬ Ambiguous U policy event candidates := by
  constructor
  · intro h hambiguous
    obtain ⟨occurredAt, ht, c₁, h₁, c₂, h₂, hne, ha₁, ha₂, hcases⟩ := hambiguous
    obtain ⟨best, -, heq, hbefore⟩ := reconcileCandidates_best U policy event
      (List.ne_nil_of_mem h₁)
    -- either way the first of the two has the best score, and the second the same
    have htie : (scoreCandidate U policy event c₁).score = (scoreCandidate U policy event c₂).score ∧
        (∀ c ∈ candidates,
          (scoreCandidate U policy event c).score ≤ (scoreCandidate U policy event c₁).score) ∧
        policy.autoMergeThreshold ≤ (scoreCandidate U policy event c₁).score := by
      rcases hcases with ⟨hshares, hsecond⟩ | ⟨hnone, hequal, hauto, hmax⟩
      · have hone : (scoreCandidate U policy event c₁).score = 1 :=
          (score_eq_one_iff ht ha₁).2 (.inl hshares)
        rw [hone, (score_eq_one_iff ht ha₂).2 hsecond]
        exact ⟨rfl, fun c _ => scoreCandidate_range.le_one,
          (policy.unit_range policy.autoMergeThreshold (by simp)).2⟩
      · have hscore : ∀ c ∈ candidates, Agrees event c → (scoreCandidate U policy event c).score =
            quantizeHalfUp (closeness U policy event occurredAt c) :=
          fun c hc hc' => (scoreCandidate_weighed ht hc' (hnone c hc hc')).1
        rw [hscore c₁ h₁ ha₁, hscore c₂ h₂ ha₂]
        refine ⟨hequal, fun c hc => ?_, hauto⟩
        by_cases hc' : Agrees event c
        · rw [hscore c hc hc']
          exact hmax c hc hc'
        · rw [(scoreCandidate_mismatch (.inr hc')).1, ← hscore c₁ h₁ ha₁]
          exact scoreCandidate_range.nonneg
    obtain ⟨hsame, hmax, hauto⟩ := htie
    apply h ⟨c₁, h₁, c₂, h₂, hne, hsame, hmax⟩
    rw [heq, merge_iff]
    exact hauto.trans (rankedBefore_score (hbefore c₁ h₁))
  · intro h hties hmerge
    obtain ⟨c₁, h₁, c₂, h₂, hne, hsame, hmax⟩ := hties
    obtain ⟨best, hbest, heq, -⟩ := reconcileCandidates_best U policy event
      (List.ne_nil_of_mem h₁)
    rw [heq, merge_iff] at hmerge
    have hauto := hmerge.trans (hmax best hbest)
    obtain ⟨⟨occurredAt, ht⟩, ha₁⟩ := agrees_of_merge hauto
    have ha₂ := (agrees_of_merge (hsame ▸ hauto)).2
    apply h
    by_cases hnone : ∀ c ∈ candidates, Agrees event c → ¬ Shares event c
    · have hscore : ∀ c ∈ candidates, Agrees event c → (scoreCandidate U policy event c).score =
          quantizeHalfUp (closeness U policy event occurredAt c) :=
        fun c hc hc' => (scoreCandidate_weighed ht hc' (hnone c hc hc')).1
      refine ⟨occurredAt, ht, c₁, h₁, c₂, h₂, hne, ha₁, ha₂, .inr ⟨hnone, ?_, ?_, ?_⟩⟩
      · rw [← hscore c₁ h₁ ha₁, ← hscore c₂ h₂ ha₂]
        exact hsame
      · rw [← hscore c₁ h₁ ha₁]
        exact hauto
      · intro c hc hc'
        rw [← hscore c hc hc', ← hscore c₁ h₁ ha₁]
        exact hmax c hc
    · -- some candidate shares an identifier, so the best score is one
      push Not at hnone
      obtain ⟨s, hs, hsagrees, hsshares⟩ := hnone
      have hshared : (scoreCandidate U policy event s).score = 1 :=
        (score_eq_one_iff ht hsagrees).2 (.inl hsshares)
      have hone : (scoreCandidate U policy event c₁).score = 1 :=
        le_antisymm scoreCandidate_range.le_one (hshared ▸ hmax s hs)
      have hfull₁ := (score_eq_one_iff ht ha₁).1 hone
      have hfull₂ := (score_eq_one_iff ht ha₂).1 (hsame.symm.trans hone)
      by_cases hs₁ : s = c₁
      · rw [hs₁] at hsshares
        exact ⟨occurredAt, ht, c₁, h₁, c₂, h₂, hne, ha₁, ha₂, .inl ⟨hsshares, hfull₂⟩⟩
      · exact ⟨occurredAt, ht, s, hs, c₁, h₁, hs₁, hsagrees, ha₁, .inl ⟨hsshares, hfull₁⟩⟩

end Ambiguity

/-! ### Coffees -/

/-- A transaction that shares the event's identifier and another, of another time, that does
    not. -/
theorem precedence_iff_later : ∃ c ∈ [coffeeTransaction 1 (600 * MINUTE) [],
      coffeeTransaction 2 0 [py "upi:1"]], Shares (coffeeEvent (some 0) [py "upi:1"]) c ∧
    (reconcileCandidates .plain .default (coffeeEvent (some 0) [py "upi:1"])
      [coffeeTransaction 1 (600 * MINUTE) [], coffeeTransaction 2 0 [py "upi:1"]]).candidateTransactionId =
        some c.id := by
  have hshares : Shares (coffeeEvent (some 0) [py "upi:1"]) (coffeeTransaction 2 0 [py "upi:1"]) :=
    ⟨py "upi:1", List.mem_singleton_self _, List.mem_singleton_self _⟩
  refine (precedence_iff (by decide) (fun c hc => ?_) ⟨_, by simp, hshares⟩).2 ?_
  · simp only [List.mem_cons, List.not_mem_nil, or_false] at hc
    rcases hc with rfl | rfl <;> exact ⟨rfl, rfl, rfl⟩
  · intro c hc hnot hrivals
    simp only [List.mem_cons, List.not_mem_nil, or_false] at hc
    rcases hc with rfl | rfl
    · rcases hrivals with h | ⟨t, ht, hclose⟩
      · cases h
      · obtain rfl := Option.some.inj ht
        have hfar : closeness .plain .default (coffeeEvent (some 0) [py "upi:1"]) 0
            (coffeeTransaction 1 (600 * MINUTE) []) < 99995 / 100000 := by decide +kernel
        exact absurd hclose (not_le.2 hfar)
    · exact absurd hshares hnot

/-- A coffee of the same minute without an identifier is chosen before the one that shares it. -/
theorem identifier_passed_over :
    Shares (coffeeEvent (some 0) [py "upi:1"]) (coffeeTransaction 2 0 [py "upi:1"]) ∧
    ¬ Shares (coffeeEvent (some 0) [py "upi:1"]) (coffeeTransaction 1 0 []) ∧
    (reconcileCandidates .plain .default (coffeeEvent (some 0) [py "upi:1"])
      [coffeeTransaction 1 0 [], coffeeTransaction 2 0 [py "upi:1"]]).candidateTransactionId =
        some 1 := by
  refine ⟨⟨py "upi:1", List.mem_singleton_self _, List.mem_singleton_self _⟩, ?_, by decide +kernel⟩
  intro h
  obtain ⟨identifier, -, h⟩ := h
  cases h

/-- Two coffees that match the event equally well tie. -/
theorem coffees_tie {before after : ℤ}
    (h : (scoreCandidate .plain .default (coffeeEvent (some 0) []) (coffeeTransaction 1 after [])).score =
      (scoreCandidate .plain .default (coffeeEvent (some 0) [])
        (coffeeTransaction 2 before [])).score) :
    TiesAtBest .plain .default (coffeeEvent (some 0) [])
      [coffeeTransaction 1 after [], coffeeTransaction 2 before []] := by
  have hne : coffeeTransaction 1 after [] ≠ coffeeTransaction 2 before [] := fun he =>
    absurd (congrArg CandidateTransaction.id he) (show (1 : Uuid) ≠ 2 by decide)
  refine ⟨coffeeTransaction 1 after [], by simp, coffeeTransaction 2 before [], by simp, hne, h,
    fun c hc => ?_⟩
  simp only [List.mem_cons, List.not_mem_nil, or_false] at hc
  rcases hc with rfl | rfl
  · exact le_refl _
  · exact h.ge

/-- Two coffees ten hours before and ten hours after the event match it equally well, and too
    badly for a merge. -/
theorem ambiguity_reviewed_iff_far :
    TiesAtBest .plain .default (coffeeEvent (some 0) [])
      [coffeeTransaction 1 (600 * MINUTE) [], coffeeTransaction 2 (-600 * MINUTE) []] ∧
    ¬ Ambiguous .plain .default (coffeeEvent (some 0) [])
      [coffeeTransaction 1 (600 * MINUTE) [], coffeeTransaction 2 (-600 * MINUTE) []] := by
  have hreviewed : (reconcileCandidates .plain .default (coffeeEvent (some 0) [])
      [coffeeTransaction 1 (600 * MINUTE) [], coffeeTransaction 2 (-600 * MINUTE) []]).decision ≠
        .merge := by decide +kernel
  exact ⟨coffees_tie (by decide +kernel), (ambiguity_reviewed_iff _ _ _ _).1 fun _ => hreviewed⟩

/-- Two coffees a minute before and a minute after the event match it equally well, and it is
    merged into one of them. -/
theorem tie_merged : TiesAtBest .plain .default (coffeeEvent (some 0) [])
      [coffeeTransaction 1 MINUTE [], coffeeTransaction 2 (-MINUTE) []] ∧
    (reconcileCandidates .plain .default (coffeeEvent (some 0) [])
      [coffeeTransaction 1 MINUTE [], coffeeTransaction 2 (-MINUTE) []]).decision = .merge :=
  ⟨coffees_tie (by decide +kernel), by decide +kernel⟩

end Expensea.Reconciliation
