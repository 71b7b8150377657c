import Expensea.Store
import Mathlib.Data.List.Dedup

namespace Expensea.Reconciliation

/-!
# Duplicate scoring

`app/reconciliation/policy.py` and `scoring.py`: the explainable score of a candidate
transaction for an event, and the choice of the best candidate.

* `ReconciliationPolicy` — bounds, weights and thresholds that passed their check;
* `similarityRatio` — `difflib.SequenceMatcher(None, a, b).ratio()`;
* `scoreCandidate`, `reconcileCandidates` — the score and the decision.
-/

/-- `ReconciliationPolicy`, after `__post_init__`. -/
structure ReconciliationPolicy where
  candidateWindowMinutes : ℤ
  maxCandidates : Nat
  possibleDuplicateThreshold : ℚ
  autoMergeThreshold : ℚ
  amountWeight : ℚ
  timeWeight : ℚ
  merchantWeight : ℚ
  descriptionWeight : ℚ
  window_range : 1 ≤ candidateWindowMinutes ∧ candidateWindowMinutes ≤ 10080
  candidates_range : 1 ≤ maxCandidates ∧ maxCandidates ≤ 100
  unit_range : ∀ value ∈ [possibleDuplicateThreshold, autoMergeThreshold, amountWeight, timeWeight,
    merchantWeight, descriptionWeight], 0 ≤ value ∧ value ≤ 1
  thresholds : possibleDuplicateThreshold < autoMergeThreshold
  weight_total : decAdd (decAdd (decAdd amountWeight timeWeight) merchantWeight)
    descriptionWeight = 1

/-- The default policy. -/
def ReconciliationPolicy.default : ReconciliationPolicy where
  candidateWindowMinutes := 1440
  maxCandidates := 20
  possibleDuplicateThreshold := 70 / 100
  autoMergeThreshold := 92 / 100
  amountWeight := 35 / 100
  timeWeight := 25 / 100
  merchantWeight := 20 / 100
  descriptionWeight := 20 / 100
  window_range := by decide
  candidates_range := by decide
  unit_range := by decide +kernel
  thresholds := by decide +kernel
  weight_total := by decide +kernel

/-- `candidate_window`, in microseconds. -/
def ReconciliationPolicy.candidateWindow (policy : ReconciliationPolicy) : ℤ :=
  policy.candidateWindowMinutes * MINUTE

/-- `SCORE_VERSION` -/
def SCORE_VERSION : String := "reconciliation-score/v1"

/-- `CandidateTransaction` -/
structure CandidateTransaction where
  id : Uuid
  amount : Money
  currency : PyStr
  transactionType : TransactionType
  description : PyStr
  transactionDate : Instant
  merchantName : Option PyStr
  paymentIdentifiers : List PyStr
  deriving DecidableEq

/-- `ReconciliationResult` -/
structure ReconciliationResult where
  candidateTransactionId : Option Uuid
  score : ℚ
  decision : ReconciliationDecision
  reasons : List String
  deriving DecidableEq

/-! ### Sequence matching -/

section SequenceMatcher

variable (a b : PyStr)

/-- The positions of a character in `b`, unless it is popular (`autojunk`). -/
def positions (c : CodePoint) : List Nat :=
  let found := (List.range b.length).filter fun j => b[j]? == some c
  if 200 ≤ b.length ∧ b.length / 100 + 1 < found.length then [] else found

/-- The best block so far: its start in `a`, its start in `b` and its size. -/
abbrev Block := Nat × Nat × Nat

/-- One row of `find_longest_match`: the runs that end at `i`, and the best block. -/
def matchRow (i : Nat) (blo bhi : Nat) (runs : List (Nat × Nat)) (best : Block) :
    List (Nat × Nat) × Block :=
  let js := match a[i]? with
    | some c => (positions b c).filter fun j => blo ≤ j ∧ j < bhi
    | none => []
  js.foldl (fun (acc : List (Nat × Nat) × Block) j =>
    let before := if j = 0 then 0 else ((runs.find? fun r => r.1 == j - 1).map Prod.snd).getD 0
    let k := before + 1
    (acc.1 ++ [(j, k)], if acc.2.2.2 < k then (i + 1 - k, j + 1 - k, k) else acc.2)) ([], best)

/-- Extend a block to the left while the characters agree. -/
def extendLeft (alo blo : Nat) : Nat → Block → Block
  | 0, block => block
  | fuel + 1, (i, j, k) =>
    if alo < i ∧ blo < j ∧ a[i - 1]? = b[j - 1]? then extendLeft alo blo fuel (i - 1, j - 1, k + 1)
    else (i, j, k)

/-- Extend a block to the right while the characters agree. -/
def extendRight (ahi bhi : Nat) : Nat → Block → Block
  | 0, block => block
  | fuel + 1, (i, j, k) =>
    if i + k < ahi ∧ j + k < bhi ∧ a[i + k]? = b[j + k]? then
      extendRight ahi bhi fuel (i, j, k + 1)
    else (i, j, k)

/-- `find_longest_match` -/
def findLongestMatch (alo ahi blo bhi : Nat) : Block :=
  let best := ((List.range ahi).drop alo).foldl (fun (acc : List (Nat × Nat) × Block) i =>
    matchRow a b i blo bhi acc.1 acc.2) ([], (alo, blo, 0))
  extendRight a b ahi bhi a.length (extendLeft a b alo blo a.length best.2)

/-- The total size of `get_matching_blocks`, left and right of the longest block in turn. -/
def matchedSize : Nat → Nat → Nat → Nat → Nat → Nat
  | 0, _, _, _, _ => 0
  | fuel + 1, alo, ahi, blo, bhi =>
    let (i, j, k) := findLongestMatch a b alo ahi blo bhi
    if k = 0 then 0
    else k + (if alo < i ∧ blo < j then matchedSize fuel alo i blo j else 0) +
      (if i + k < ahi ∧ j + k < bhi then matchedSize fuel (i + k) ahi (j + k) bhi else 0)

/-- `SequenceMatcher(None, a, b).ratio()`, exactly: rounding to four places later does not
    tell the double apart from it. -/
def similarityRatio : ℚ :=
  if a.length + b.length = 0 then 1
  else 2 * (matchedSize a b (a.length + 1) 0 a.length 0 b.length : ℚ) / (a.length + b.length : Nat)

end SequenceMatcher

/-! ### Scores -/

section Score

variable (U : Unicode) (policy : ReconciliationPolicy)

/-- `_text_similarity` -/
def textSimilarity (left right : Option PyStr) : ℚ :=
  match left, right with
  | some left, some right =>
    let normalizedLeft := U.casefold (normalizeDisplayText U left)
    let normalizedRight := U.casefold (normalizeDisplayText U right)
    if normalizedLeft = [] ∨ normalizedRight = [] then 0
    else if normalizedLeft = normalizedRight then 1
    else
      let leftTokens := (split normalizedLeft).dedup
      let rightTokens := (split normalizedRight).dedup
      let tokenUnion := leftTokens ∪ rightTokens
      let tokenRatio :=
        if tokenUnion = [] then 0
        else decDiv (leftTokens ∩ rightTokens).length tokenUnion.length
      quantizeHalfUp (max (similarityRatio normalizedLeft normalizedRight) tokenRatio)
  | _, _ => 0

/-- A result for one candidate. -/
def candidateResult (candidate : CandidateTransaction) (score : ℚ)
    (decision : ReconciliationDecision) (reasons : List String) : ReconciliationResult :=
  ⟨some candidate.id, score, decision, reasons⟩

/-- The event and the candidate are the same money and the same kind. -/
def sameMoney (event : NormalizedFinancialEvent) (candidate : CandidateTransaction) : Bool :=
  event.amount == some candidate.amount && event.currency == some candidate.currency &&
    event.eventKind.transactionType == some candidate.transactionType

/-- `time_similarity` -/
def timeSimilarity (occurredAt transactionDate : Instant) : ℚ :=
  let windowSeconds : ℚ := policy.candidateWindow / 1000000
  let deltaSeconds : ℚ := |occurredAt - transactionDate| / 1000000
  max 0 (decSub 1 (decDiv deltaSeconds windowSeconds))

/-- `score_candidate` -/
def scoreCandidate (event : NormalizedFinancialEvent) (candidate : CandidateTransaction) :
    ReconciliationResult :=
  match event.occurredAt with
  | none => candidateResult candidate 0 .newTransaction
      ["MONEY_OR_TYPE_MISMATCH", "SCORE_NEW_TRANSACTION"]
  | some occurredAt =>
    if !sameMoney event candidate then
      candidateResult candidate 0 .newTransaction
        ["MONEY_OR_TYPE_MISMATCH", "SCORE_NEW_TRANSACTION"]
    else if event.paymentIdentifiers.any candidate.paymentIdentifiers.contains then
      candidateResult candidate 1 .merge
        ["PAYMENT_IDENTIFIER_EXACT", "AMOUNT_CURRENCY_EXACT", "SCORE_AUTO_MERGE"]
    else
      let time := timeSimilarity policy occurredAt candidate.transactionDate
      let merchant := textSimilarity U event.merchantName candidate.merchantName
      let description := textSimilarity U (some event.description) (some candidate.description)
      let score := quantizeHalfUp (decAdd (decAdd (decAdd policy.amountWeight
        (decMul policy.timeWeight time)) (decMul policy.merchantWeight merchant))
        (decMul policy.descriptionWeight description))
      let reasons := ["AMOUNT_CURRENCY_EXACT"] ++
        [if 95 / 100 ≤ time then "TIME_CLOSE" else "TIME_WITHIN_WINDOW"] ++
        (if merchant = 1 then ["MERCHANT_EXACT"]
          else if 70 / 100 ≤ merchant then ["MERCHANT_SIMILAR"] else []) ++
        (if description = 1 then ["DESCRIPTION_EXACT"]
          else if 70 / 100 ≤ description then ["DESCRIPTION_SIMILAR"] else [])
      if policy.autoMergeThreshold ≤ score then
        candidateResult candidate score .merge (reasons ++ ["SCORE_AUTO_MERGE"])
      else if policy.possibleDuplicateThreshold ≤ score then
        candidateResult candidate score .possibleDuplicate (reasons ++ ["SCORE_POSSIBLE_DUPLICATE"])
      else candidateResult candidate score .newTransaction (reasons ++ ["SCORE_NEW_TRANSACTION"])

/-- `(-item.score, str(item.candidate_transaction_id))` in order: identifiers written in
    hexadecimal sort as numbers. -/
def rankedBefore (a b : ReconciliationResult) : Bool :=
  b.score < a.score || b.score == a.score &&
    a.candidateTransactionId.getD 0 ≤ b.candidateTransactionId.getD 0

/-- The better of two results, the first on a tie. -/
def better (a b : ReconciliationResult) : ReconciliationResult := if rankedBefore a b then a else b

/-- `reconcile_candidates` -/
def reconcileCandidates (event : NormalizedFinancialEvent)
    (candidates : List CandidateTransaction) : ReconciliationResult :=
  match candidates.map (scoreCandidate U policy event) with
  | [] => ⟨none, 0, .newTransaction, ["NO_CANDIDATES", "SCORE_NEW_TRANSACTION"]⟩
  | first :: rest => rest.foldl better first

end Score

/-- A merge or a possible duplicate names a candidate of the same money and kind. -/
theorem scoreCandidate_same {U : Unicode} {policy : ReconciliationPolicy}
    {event : NormalizedFinancialEvent} {c : CandidateTransaction}
    (h : (scoreCandidate U policy event c).decision ≠ .newTransaction) :
    sameMoney event c = true ∧ event.occurredAt.isSome := by
  unfold scoreCandidate at h
  cases ht : event.occurredAt with
  | none =>
    rw [ht] at h
    exact absurd rfl h
  | some t =>
    rw [ht] at h
    cases hm : sameMoney event c with
    | true => exact ⟨rfl, rfl⟩
    | false =>
      rw [hm] at h
      exact absurd rfl h

theorem scoreCandidate_id {U : Unicode} {policy : ReconciliationPolicy}
    {event : NormalizedFinancialEvent} {c : CandidateTransaction} :
    (scoreCandidate U policy event c).candidateTransactionId = some c.id := by
  unfold scoreCandidate
  cases event.occurredAt with
  | none => rfl
  | some t =>
    dsimp only
    split
    · rfl
    split
    · rfl
    split
    · rfl
    split <;> rfl

end Expensea.Reconciliation
