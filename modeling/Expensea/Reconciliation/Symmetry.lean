import Expensea.Reconciliation.ScoringLaw

namespace Expensea.Reconciliation

/-!
# Matching in both directions

The same two payments, scored with either as the incoming event.  Money, time, identifiers and
tokens compare alike in both directions; the blocks of `SequenceMatcher` need not.

* `Payment` — the values of a payment that are compared, as an event or as a transaction;
* `Balanced` — two texts whose character ratio does not tell the directions apart;
* `matching_symmetric` — the score and the decision are the same in both directions.
-/

/-- The event kind that `_EVENT_TYPES` takes to a transaction type. -/
def eventKindOf : TransactionType → NormalizedEventKind
  | .expense => .expense
  | .income => .income
  | .transfer => .transfer
  | .refund => .refund
  | .sharedExpense => .sharedExpense

theorem transactionType_eventKindOf (t : TransactionType) :
    (eventKindOf t).transactionType = some t := by
  cases t <;> rfl

/-- What is known of a payment. -/
structure Payment where
  amount : Money
  currency : PyStr
  transactionType : TransactionType
  time : Instant
  merchantName : Option PyStr
  description : PyStr
  paymentIdentifiers : List PyStr

/-- The payment as an incoming event, with the other fields of `base`. -/
def Payment.incoming (payment : Payment) (base : NormalizedFinancialEvent) :
    NormalizedFinancialEvent :=
  { base with
    eventKind := eventKindOf payment.transactionType
    amount := some payment.amount
    currency := some payment.currency
    description := payment.description
    occurredAt := some payment.time
    merchantName := payment.merchantName
    paymentIdentifiers := payment.paymentIdentifiers }

/-- The payment as a transaction. -/
def Payment.stored (payment : Payment) (id : Uuid) : CandidateTransaction where
  id := id
  amount := payment.amount
  currency := payment.currency
  transactionType := payment.transactionType
  description := payment.description
  transactionDate := payment.time
  merchantName := payment.merchantName
  paymentIdentifiers := payment.paymentIdentifiers

/-- The part of the tokens of two texts that they have in common. -/
def tokenOverlap (left right : PyStr) : ℚ :=
  let leftTokens := (split left).dedup
  let rightTokens := (split right).dedup
  if leftTokens ∪ rightTokens = [] then 0
  else decDiv (leftTokens ∩ rightTokens).length (leftTokens ∪ rightTokens).length

section Symmetry

variable {U : Unicode}

/-- The two character ratios are the same, or the tokens outweigh both. -/
def Balanced (U : Unicode) (left right : Option PyStr) : Prop :=
  ∀ l r, left = some l → right = some r →
    similarityRatio (normalizeLookupText U l) (normalizeLookupText U r) =
      similarityRatio (normalizeLookupText U r) (normalizeLookupText U l) ∨
    similarityRatio (normalizeLookupText U l) (normalizeLookupText U r) ≤
        tokenOverlap (normalizeLookupText U l) (normalizeLookupText U r) ∧
      similarityRatio (normalizeLookupText U r) (normalizeLookupText U l) ≤
        tokenOverlap (normalizeLookupText U l) (normalizeLookupText U r)

/-- The tokens are compared as sets. -/
theorem tokenOverlap_comm (left right : PyStr) : tokenOverlap left right = tokenOverlap right left := by
  have hunion : ((split left).dedup ∪ (split right).dedup).Perm
      ((split right).dedup ∪ (split left).dedup) := by
    rw [List.perm_ext_iff_of_nodup]
    · intro token
      rw [List.mem_union_iff, List.mem_union_iff, or_comm]
    · exact (List.nodup_dedup _).union _
    · exact (List.nodup_dedup _).union _
  have hinter : ((split left).dedup ∩ (split right).dedup).Perm
      ((split right).dedup ∩ (split left).dedup) := by
    rw [List.perm_ext_iff_of_nodup]
    · intro token
      rw [List.mem_inter_iff, List.mem_inter_iff, and_comm]
    · exact (List.nodup_dedup _).filter _
    · exact (List.nodup_dedup _).filter _
  rw [tokenOverlap, tokenOverlap]
  by_cases hnone : (split left).dedup ∪ (split right).dedup = []
  · rw [if_pos hnone, if_pos (by rw [hnone] at hunion; exact hunion.nil_eq.symm)]
  · rw [if_neg hnone, if_neg fun h => hnone (by rw [h] at hunion; exact hunion.eq_nil),
      hunion.length_eq, hinter.length_eq]

/-- Texts that are balanced are as similar in either direction. -/
theorem textSimilarity_comm {left right : Option PyStr} (h : Balanced U left right) :
    textSimilarity U left right = textSimilarity U right left := by
  cases left with
  | none =>
    cases right with
    | none => rfl
    | some r => rfl
  | some l =>
    cases right with
    | none => rfl
    | some r =>
      have hratio := h l r rfl rfl
      rw [normalizeLookupText, normalizeLookupText] at hratio
      unfold textSimilarity
      dsimp only
      generalize U.casefold (normalizeDisplayText U l) = a at hratio ⊢
      generalize U.casefold (normalizeDisplayText U r) = b at hratio ⊢
      by_cases hblank : a = [] ∨ b = []
      · rw [if_pos hblank, if_pos hblank.symm]
      by_cases hsame : a = b
      · rw [hsame]
      rw [if_neg hblank, if_neg hsame, if_neg (mt Or.symm hblank), if_neg (Ne.symm hsame)]
      show quantizeHalfUp (max (similarityRatio a b) (tokenOverlap a b)) =
        quantizeHalfUp (max (similarityRatio b a) (tokenOverlap b a))
      rw [← tokenOverlap_comm a b]
      rcases hratio with hequal | ⟨hle, hle'⟩
      · rw [hequal]
      · rw [max_eq_right hle, max_eq_right hle']

theorem timeSimilarity_comm (policy : ReconciliationPolicy) (a b : Instant) :
    timeSimilarity policy a b = timeSimilarity policy b a := by
  have hdistance : |a - b| = |b - a| := abs_sub_comm a b
  rw [timeSimilarity, timeSimilarity]
  simp only [hdistance]

variable {policy : ReconciliationPolicy} {A B : Payment} {baseA baseB : NormalizedFinancialEvent}
  {idA idB : Uuid}

/-- Amount, currency and type are compared alike. -/
theorem agrees_comm : Agrees (B.incoming baseB) (A.stored idA) ↔ Agrees (A.incoming baseA) (B.stored idB) := by
  have htype : ∀ t t' : TransactionType, (eventKindOf t).transactionType = some t' ↔ t = t' := by
    intro t t'
    rw [transactionType_eventKindOf, Option.some.injEq]
  show some B.amount = some A.amount ∧ some B.currency = some A.currency ∧
      (eventKindOf B.transactionType).transactionType = some A.transactionType ↔
    some A.amount = some B.amount ∧ some A.currency = some B.currency ∧
      (eventKindOf A.transactionType).transactionType = some B.transactionType
  rw [htype, htype, Option.some.injEq, Option.some.injEq, Option.some.injEq, Option.some.injEq]
  exact and_congr eq_comm (and_congr eq_comm eq_comm)

/-- Identifiers are compared as sets. -/
theorem shares_comm : Shares (B.incoming baseB) (A.stored idA) ↔ Shares (A.incoming baseA) (B.stored idB) := by
  constructor
  · intro h
    obtain ⟨identifier, hB, hA⟩ := h
    exact ⟨identifier, hA, hB⟩
  · intro h
    obtain ⟨identifier, hA, hB⟩ := h
    exact ⟨identifier, hB, hA⟩

/-- **Matching is symmetric up to the character ratio.**  Two payments score the same, and are
    decided the same, in both directions, if they differ in amount, currency or type, or share an
    identifier, or their merchants and their descriptions are balanced. -/
theorem matching_symmetric
    (h : ¬ Agrees (A.incoming baseA) (B.stored idB) ∨ Shares (A.incoming baseA) (B.stored idB) ∨
      Balanced U A.merchantName B.merchantName ∧
        Balanced U (some A.description) (some B.description)) :
    (scoreCandidate U policy (B.incoming baseB) (A.stored idA)).score =
        (scoreCandidate U policy (A.incoming baseA) (B.stored idB)).score ∧
      (scoreCandidate U policy (B.incoming baseB) (A.stored idA)).decision =
        (scoreCandidate U policy (A.incoming baseA) (B.stored idB)).decision := by
  by_cases hagrees : Agrees (A.incoming baseA) (B.stored idB)
  · have hagrees' : Agrees (B.incoming baseB) (A.stored idA) := agrees_comm.2 hagrees
    by_cases hshares : Shares (A.incoming baseA) (B.stored idB)
    · have hshares' : Shares (B.incoming baseB) (A.stored idA) := shares_comm.2 hshares
      obtain ⟨hscore, hdecision⟩ := scoreCandidate_shared (U := U) rfl hagrees hshares
      rw [hscore, hdecision]
      exact scoreCandidate_shared rfl hagrees' hshares'
    · have hshares' : ¬ Shares (B.incoming baseB) (A.stored idA) := mt shares_comm.1 hshares
      obtain ⟨hmerchant, hdescription⟩ :=
        (h.resolve_left (not_not.2 hagrees)).resolve_left hshares
      have hclose : closeness U policy (B.incoming baseB) B.time (A.stored idA) =
          closeness U policy (A.incoming baseA) A.time (B.stored idB) := by
        show policy.weigh (timeSimilarity policy B.time A.time)
            (textSimilarity U B.merchantName A.merchantName)
            (textSimilarity U (some B.description) (some A.description)) =
          policy.weigh (timeSimilarity policy A.time B.time)
            (textSimilarity U A.merchantName B.merchantName)
            (textSimilarity U (some A.description) (some B.description))
        rw [timeSimilarity_comm policy B.time A.time, textSimilarity_comm hmerchant,
          textSimilarity_comm hdescription]
      rw [(scoreCandidate_weighed rfl hagrees hshares).1,
        (scoreCandidate_weighed rfl hagrees hshares).2,
        (scoreCandidate_weighed rfl hagrees' hshares').1,
        (scoreCandidate_weighed rfl hagrees' hshares').2, hclose]
      exact ⟨rfl, rfl⟩
  · have hagrees' : ¬ Agrees (B.incoming baseB) (A.stored idA) := mt agrees_comm.1 hagrees
    rw [(scoreCandidate_mismatch (.inr hagrees)).1, (scoreCandidate_mismatch (.inr hagrees)).2,
      (scoreCandidate_mismatch (.inr hagrees')).1, (scoreCandidate_mismatch (.inr hagrees')).2]
    exact ⟨rfl, rfl⟩

end Symmetry

/-- An expense of 3.50 EUR at no known merchant. -/
def plainPayment (description : PyStr) : Payment where
  amount := (coffeeTransaction 1 0 []).amount
  currency := py "EUR"
  transactionType := .expense
  time := 0
  merchantName := none
  description := description
  paymentIdentifiers := []

/-- Descriptions of the same words. -/
theorem matching_symmetric_words :
    (scoreCandidate .plain .default ((plainPayment (py "tea cake")).incoming (coffeeEvent none []))
        ((plainPayment (py "cake tea")).stored 1)).score =
      (scoreCandidate .plain .default ((plainPayment (py "cake tea")).incoming (coffeeEvent none []))
        ((plainPayment (py "tea cake")).stored 2)).score := by
  refine (matching_symmetric (.inr (.inr ⟨fun l r h => ?_, fun l r hl hr => .inr ?_⟩))).1
  · cases h
  · obtain rfl := Option.some.inj hl
    obtain rfl := Option.some.inj hr
    decide +kernel

/-- `diet` and `tide`: the event that arrives second is flagged or not, depending on which it
    is. -/
theorem matching_asymmetric :
    (scoreCandidate .plain .default ((plainPayment (py "diet")).incoming (coffeeEvent none []))
        ((plainPayment (py "tide")).stored 1)).score = 7 / 10 ∧
    (scoreCandidate .plain .default ((plainPayment (py "diet")).incoming (coffeeEvent none []))
        ((plainPayment (py "tide")).stored 1)).decision = .possibleDuplicate ∧
    (scoreCandidate .plain .default ((plainPayment (py "tide")).incoming (coffeeEvent none []))
        ((plainPayment (py "diet")).stored 2)).score = 65 / 100 ∧
    (scoreCandidate .plain .default ((plainPayment (py "tide")).incoming (coffeeEvent none []))
        ((plainPayment (py "diet")).stored 2)).decision = .newTransaction := by
  decide +kernel

end Expensea.Reconciliation
