import Expensea.Ledger.Transactions
import Mathlib.Data.List.Sort

namespace Expensea.Categorization

open Txn
open Txn.Tx (reads modify acquire)

/-!
# Categorization — policy, repository and service

`app/categorization/policy.py`, `repository.py` and the correction workflow of
`service.py`.

* `classify` — the owner's rules, verified merchants, corrections and retrieval, in order;
* `correct` — the owner's correction of one transaction;
* `createRule` — a description rule of the owner.
-/

/-- `CLASSIFIER_VERSION` -/
def CLASSIFIER_VERSION : String := "categorization-v1"

/-- `RETRIEVAL_THRESHOLD` -/
def RETRIEVAL_THRESHOLD : ℚ := 6 / 10

/-- `CategoryAssignment` -/
structure CategoryAssignment where
  categoryId : Uuid
  source : CategorizationSource
  version : String
  confidence : ℚ
  overridden : Bool := false
  deriving DecidableEq

section Policy

variable (U : Unicode)

/-- `normalized_words` -/
def normalizedWords (value : PyStr) : List PyStr :=
  ((split (U.casefold value)).filter fun word => 1 < word.length).dedup

/-- `jaccard` -/
def jaccard (left right : PyStr) : ℚ :=
  let leftWords := normalizedWords U left
  let rightWords := normalizedWords U right
  let union := leftWords ∪ rightWords
  if union = [] then 0
  else quantizeHalfEven (decDiv (leftWords ∩ rightWords).length union.length)

/-- `retrieval_assignment` -/
def retrievalAssignment (description : PyStr) (candidates : List (PyStr × Uuid)) :
    Option CategoryAssignment :=
  let scored := candidates.map fun c => (jaccard U description c.1, c.2)
  let eligible := scored.filter fun s => RETRIEVAL_THRESHOLD ≤ s.1
  let best := eligible.foldl (fun m s => max m s.1) 0
  match ((eligible.filter fun s => s.1 == best).map Prod.snd).dedup with
  | [categoryId] => some {
      categoryId := categoryId
      source := .retrieval
      version := CLASSIFIER_VERSION
      confidence := best }
  | _ => none

end Policy

/-! ### Repository -/

/-- An assignment made with full confidence. -/
def certain (categoryId : Uuid) (source : CategorizationSource) : CategoryAssignment where
  categoryId := categoryId
  source := source
  version := CLASSIFIER_VERSION
  confidence := 1

/-- `ORDER BY priority, created_at, id` -/
def ruleBefore (a b : CategoryRule) : Bool :=
  a.priority < b.priority || a.priority == b.priority &&
    (a.createdAt < b.createdAt || a.createdAt == b.createdAt && a.id ≤ b.id)

/-- `ORDER BY created_at DESC, id DESC` -/
def correctionBefore (a b : UserCorrection) : Bool :=
  b.createdAt < a.createdAt || a.createdAt == b.createdAt && b.id ≤ a.id

/-- The owner's enabled rules by priority, age and identifier. -/
def rulesInOrder (userId : Uuid) (g : Db) : List CategoryRule :=
  (g.categoryRules.filter fun r => r.userId == userId && r.enabled).insertionSort fun a b =>
    ruleBefore a b = true

/-- The owner's corrections, newest first. -/
def correctionsInOrder (userId : Uuid) (g : Db) : List UserCorrection :=
  (g.userCorrections.filter fun c => c.userId == userId).insertionSort fun a b =>
    correctionBefore a b = true

/-- The verified category of a merchant for this owner. -/
def mappedCategory (userId merchantId : Uuid) (g : Db) : Option Uuid :=
  (g.merchantCategoryMaps.find? fun m =>
    m.userId == userId && m.merchantId == merchantId && m.verified).map (·.categoryId)

/-- The merchant with a lookup name, if one is given. -/
def namedMerchant (merchantNormalizedName : Option PyStr) : DbTx (Option Merchant) :=
  match merchantNormalizedName with
  | none => pure none
  | some name => if name = [] then pure none else reads (Ledger.merchantNamed name)

/-- The verified category of a merchant, if there is one. -/
def merchantMapping (userId : Uuid) : Option Merchant → DbTx (Option Uuid)
  | none => pure none
  | some m => reads (mappedCategory userId m.id)

/-- The newest correction of exactly this description, else the nearest ones. -/
def classifyByCorrections (U : Unicode) (userId : Uuid) (normalized : PyStr) :
    DbTx (Option CategoryAssignment) := do
  let exact ← reads fun g => (correctionsInOrder userId g).find? fun c =>
    c.normalizedDescription == normalized
  match exact with
  | some c => pure (some (certain c.correctedCategoryId .verifiedCorrection))
  | none => do
    let rows ← reads fun g => ((correctionsInOrder userId g).take 200).map fun c =>
      (c.normalizedDescription, c.correctedCategoryId)
    pure (retrievalAssignment U normalized rows)

/-- `classify` -/
def classify (U : Unicode) (userId : Uuid) (description : PyStr)
    (merchantNormalizedName : Option PyStr) : DbTx (Option CategoryAssignment) := do
  let normalized := U.casefold description
  let rules ← reads (rulesInOrder userId)
  match rules.find? fun r => contains r.normalizedPattern normalized with
  | some r => pure (some (certain r.categoryId .userRule))
  | none => do
    let merchant ← namedMerchant merchantNormalizedName
    let mapped ← merchantMapping userId merchant
    match mapped with
    | some categoryId => pure (some (certain categoryId .merchantMap))
    | none => classifyByCorrections U userId normalized

/-- Classification reads only. -/
theorem classify_readOnly {U : Unicode} {userId : Uuid} {description : PyStr}
    {merchant : Option PyStr} : (classify U userId description merchant).ReadOnly := by
  refine Tx.readOnly_bind (Tx.readOnly_reads _) fun rules => ?_
  cases rules.find? fun r => contains r.normalizedPattern (U.casefold description) with
  | some r => exact Tx.readOnly_pure _
  | none =>
    refine Tx.readOnly_bind ?_ fun found => Tx.readOnly_bind ?_ fun mapped => ?_
    · cases merchant with
      | none => exact Tx.readOnly_pure _
      | some name =>
        simp only [namedMerchant]
        split
        · exact Tx.readOnly_pure _
        · exact Tx.readOnly_reads _
    · cases found with
      | none => exact Tx.readOnly_pure _
      | some m => exact Tx.readOnly_reads _
    · cases mapped with
      | some c => exact Tx.readOnly_pure _
      | none =>
        refine Tx.readOnly_bind (Tx.readOnly_reads _) fun newest => ?_
        cases newest with
        | some c => exact Tx.readOnly_pure _
        | none => exact Tx.readOnly_bind (Tx.readOnly_reads _) fun _ => Tx.readOnly_pure _

/-- A transaction's category columns after the owner's choice. -/
def corrected (categoryId : Uuid) (t : LedgerTransaction) : LedgerTransaction :=
  { t with
    categoryId := some categoryId
    categorySource := some .userOverride
    categoryClassifierVersion := some CLASSIFIER_VERSION
    categoryConfidence := some .one
    categoryOverridden := true }

/-- `INSERT ... ON CONFLICT (user_id, merchant_id) DO UPDATE` of a verified mapping. -/
def mapMerchant (mapId userId merchantId categoryId : Uuid) (g : Db) : Db :=
  let same := fun m : MerchantCategoryMap => m.userId == userId && m.merchantId == merchantId
  if g.merchantCategoryMaps.any same then
    { g with merchantCategoryMaps := g.merchantCategoryMaps.map fun m =>
        if same m then { m with categoryId := categoryId, verified := true } else m }
  else
    { g with merchantCategoryMaps := g.merchantCategoryMaps ++
        [⟨mapId, userId, merchantId, categoryId, true⟩] }

/-- `correct` of the repository: the transaction corrected, or `none`. -/
def correctRow (U : Unicode) (correctionId mapId userId transactionId categoryId : Uuid) :
    DbTx (Option Uuid) := do
  let locked ← selectForUpdate Db.transactions .transactions LedgerTransaction.id fun t =>
    t.userId == userId && t.id == transactionId
  match locked with
  | none => pure none
  | some transaction => do
    modify fun g => match transaction.merchantId with
      | none => g
      | some merchantId => mapMerchant mapId userId merchantId categoryId g
    -- the flush: the transaction is updated, the correction inserted
    require (corrected categoryId transaction).categoryMetadataConsistent
      (.integrity Ledger.CATEGORY_METADATA_CONSISTENT)
    modify fun g => { g with
      transactions := Table.set LedgerTransaction.id transaction.id
        (corrected categoryId) g.transactions }
    let normalized := U.casefold transaction.description
    let now ← reads Db.clock
    require (fitsColumn 500 normalized) (.data "user_corrections")
    require (Ledger.notBlank normalized) (.integrity "ck_user_corrections_description_not_blank")
    insertChecked (.row .userCorrections correctionId)
      (fun g => if g.userCorrections.any fun c => c.id == correctionId then
        some (.integrity "pk_user_corrections") else none)
      (fun g => { g with userCorrections := g.userCorrections ++ [{
        id := correctionId
        userId := userId
        transactionId := transaction.id
        previousCategoryId := transaction.categoryId
        correctedCategoryId := categoryId
        merchantId := transaction.merchantId
        normalizedDescription := normalized
        classifierVersion := CLASSIFIER_VERSION
        confidence := .one
        createdAt := now }] })
    pure (some transaction.id)

/-- `correct` of the service. -/
def correct (U : Unicode) (correctionId mapId userId transactionId categoryId : Uuid) :
    DbTx Uuid := do
  let visible ← Ledger.categoryIsVisible userId categoryId
  require visible (.ledger ⟨.notFound, "CATEGORY_NOT_FOUND",
    "The selected category was not found.", some "categoryId"⟩)
  let value ← correctRow U correctionId mapId userId transactionId categoryId
  requireSome value (.ledger ⟨.notFound, "TRANSACTION_NOT_FOUND",
    "The transaction was not found.", some "transactionId"⟩)

/-! ### Rules -/

/-- `CategoryRuleView` -/
structure CategoryRuleView where
  id : Uuid
  pattern : PyStr
  categoryId : Uuid
  categoryName : Option PyStr
  priority : ℤ
  enabled : Bool
  deriving DecidableEq

/-- The constraints on a new row of `category_rules`. -/
def ruleViolation (id userId : Uuid) (pattern : PyStr) (g : Db) : Option AppError :=
  if !fitsColumn 120 pattern then some (.data "category_rules")
  else if !Ledger.notBlank pattern then some (.integrity "ck_category_rules_pattern_not_blank")
  else if g.categoryRules.any fun r => r.id == id then some (.integrity "pk_category_rules")
  else if g.categoryRules.any fun r => r.userId == userId && r.normalizedPattern == pattern then
    some (.integrity "uq_category_rules_user_pattern")
  else if !g.users.any fun u => u.id == userId then
    some (.integrity "fk_category_rules_user_id_users")
  else none

/-- `create_rule` of the repository. -/
def createRuleRow (id userId : Uuid) (pattern : PyStr) (categoryId : Uuid) (priority : ℤ) :
    DbTx CategoryRuleView := do
  acquire (.key .categoryRules [userId] [pattern])
  let now ← reads Db.clock
  insertChecked (.row .categoryRules id) (ruleViolation id userId pattern) fun g => { g with
    categoryRules := g.categoryRules ++ [⟨id, userId, pattern, categoryId, priority, true, now⟩] }
  let categoryName ← reads fun g =>
    (g.categories.find? fun c => c.id == categoryId).map Category.name
  pure ⟨id, pattern, categoryId, categoryName, priority, true⟩

/-- `create_rule` of the service. -/
def createRule (U : Unicode) (id userId : Uuid) (pattern : PyStr) (categoryId : Uuid)
    (priority : ℤ) : DbTx CategoryRuleView := do
  let parsed := U.casefold (normalizeDisplayText U pattern)
  require (!(parsed = [] ∨ 120 < parsed.length)) (.ledger ⟨.validation, "INVALID_RULE_PATTERN",
    "Rule pattern must contain 1 to 120 characters.", some "pattern"⟩)
  require (!(priority < 0 ∨ 1000 < priority)) (.ledger ⟨.validation, "INVALID_RULE_PRIORITY",
    "Rule priority must be between 0 and 1000.", some "priority"⟩)
  let visible ← Ledger.categoryIsVisible userId categoryId
  require visible (.ledger ⟨.notFound, "CATEGORY_NOT_FOUND",
    "The selected category was not found.", some "categoryId"⟩)
  createRuleRow id userId parsed categoryId priority

/-- A corrected transaction has consistent category metadata. -/
theorem corrected_consistent (categoryId : Uuid) (t : LedgerTransaction) :
    (corrected categoryId t).categoryMetadataConsistent = true := by
  simp [corrected, LedgerTransaction.categoryMetadataConsistent]

end Expensea.Categorization
