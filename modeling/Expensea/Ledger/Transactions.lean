import Expensea.Ledger.Commands

namespace Expensea.Ledger

open Txn
open Txn.Tx (reads modify acquire)

/-!
# Transactions — repository

The parts of `app/ledger/repository.py` that write transactions or are read on the way.

* `transactionRow` — the row a command becomes, or the first constraint it violates;
* `createTransaction` — the merchant upsert and the insert;
* `createTransaction_ok`, `createTransaction_error` — what it does, run alone.
-/

/-- `get_user` is not `None`. -/
def userExists (userId : Uuid) : DbTx Bool := reads fun g => g.users.any fun u => u.id == userId

/-- System categories and the owner's own. -/
def Visible (userId : Uuid) (c : Category) : Bool := c.userId.isNone || c.userId == some userId

/-- `category_is_visible` -/
def categoryIsVisible (userId categoryId : Uuid) : DbTx Bool :=
  reads fun g => g.categories.any fun c => c.id == categoryId && Visible userId c

/-- The category a lookup name resolves to: a system category before a private one. -/
def visibleCategoryId (userId : Uuid) (normalizedName : PyStr) (g : Db) : Option Uuid :=
  let named := g.categories.filter fun c => c.normalizedName == normalizedName && Visible userId c
  ((named.find? fun c => c.userId.isNone).or named.head?).map Category.id

/-- `find_visible_category_id` -/
def findVisibleCategoryId (userId : Uuid) (normalizedName : PyStr) : DbTx (Option Uuid) :=
  reads (visibleCategoryId userId normalizedName)

/-- The merchant with this lookup name. -/
def merchantNamed (normalizedName : PyStr) (g : Db) : Option Merchant :=
  g.merchants.find? fun m => m.normalizedName == normalizedName

/-- `_get_or_create_merchant`: an upsert on the lookup name that keeps an existing row. -/
def getOrCreateMerchant (merchantId : Uuid) (merchant : Option (PyStr × PyStr)) :
    DbTx (Option Uuid) :=
  match merchant with
  | none => pure none
  | some (displayName, normalizedName) => do
    require (fitsColumn 160 displayName && fitsColumn 160 normalizedName) (.data "merchants")
    require (notBlank displayName) (.integrity "ck_merchants_display_name_not_blank")
    require (notBlank normalizedName) (.integrity "ck_merchants_normalized_name_not_blank")
    acquire (.key .merchants [] [normalizedName])
    let existing ← reads (merchantNamed normalizedName)
    match existing with
    | some m => pure (some m.id)
    | none => do
      insertChecked (.row .merchants merchantId)
        (fun g => if g.merchants.any fun m => m.id == merchantId then
          some (.integrity "pk_merchants") else none)
        (fun g => { g with merchants := g.merchants ++ [⟨merchantId, normalizedName, displayName⟩] })
      pure (some merchantId)

/-- What a confidence column stores of an optional value. -/
def storeConfidence (ck : String) : Option ℚ → Except AppError (Option Confidence)
  | none => .ok none
  | some value =>
    match Confidence.store value with
    | none => .error (.integrity ck)
    | some confidence => .ok (some confidence)

/-- `ck_transactions_category_metadata_consistent` -/
def CATEGORY_METADATA_CONSISTENT : String := "ck_transactions_category_metadata_consistent"

/-- The row of a command, or the first violated constraint: column types first, then the
    checks in the order of their names. -/
def transactionRow (id userId : Uuid) (merchantId : Option Uuid)
    (command : CreateTransactionCommand) : Except AppError LedgerTransaction := do
  if !(fitsColumn 3 command.currency && fitsColumn 500 command.description) then
    throw (.data "transactions")
  match Money.store command.amount with
  | none => throw (.data "amount")
  | some amount =>
    if !(0 < amount.units) then throw (.integrity "ck_transactions_amount_positive")
    let categoryConfidence ←
      storeConfidence "ck_transactions_category_confidence_range" command.categoryConfidence
    if !command.categoryMetadataConsistent then throw (.integrity CATEGORY_METADATA_CONSISTENT)
    let confidence ← storeConfidence "ck_transactions_confidence_range" command.confidence
    if !currencyFormat command.currency then throw (.integrity "ck_transactions_currency_format")
    if !notBlank command.description then
      throw (.integrity "ck_transactions_description_not_blank")
    pure {
      id := id
      userId := userId
      amount := amount
      currency := command.currency
      transactionType := command.transactionType
      merchantId := merchantId
      categoryId := command.categoryId
      description := command.description
      transactionDate := command.transactionDate
      source := command.source
      confidence := confidence
      status := command.status
      categorySource := command.categorySource
      categoryClassifierVersion := command.categoryClassifierVersion
      categoryConfidence := categoryConfidence
      categoryOverridden := command.categoryOverridden }

/-- `TransactionView` -/
structure TransactionView where
  id : Uuid
  amount : ℚ
  currency : PyStr
  transactionType : TransactionType
  description : PyStr
  transactionDate : Instant
  status : TransactionStatus
  merchantName : Option PyStr
  categoryName : Option PyStr
  categorySource : Option CategorizationSource
  categoryClassifierVersion : Option String
  categoryConfidence : Option ℚ
  categoryOverridden : Bool
  deriving DecidableEq

/-- `_transaction_view` of the object the session created. -/
def transactionView (id : Uuid) (command : CreateTransactionCommand) (merchantId : Option Uuid)
    (g : Db) : TransactionView where
  id := id
  amount := command.amount
  currency := command.currency
  transactionType := command.transactionType
  description := command.description
  transactionDate := command.transactionDate
  status := command.status
  merchantName := (g.merchants.find? fun m => merchantId == some m.id).map Merchant.displayName
  categoryName := (g.categories.find? fun c => command.categoryId == some c.id).map Category.name
  categorySource := command.categorySource
  categoryClassifierVersion := command.categoryClassifierVersion
  categoryConfidence := command.categoryConfidence
  categoryOverridden := command.categoryOverridden

/-- Insert a transaction row. -/
def insertTransaction (row : LedgerTransaction) : DbTx Unit :=
  insertChecked (.row .transactions row.id)
    (fun g => if g.transactions.any fun t => t.id == row.id then
      some (.integrity "pk_transactions") else none)
    (fun g => { g with transactions := g.transactions ++ [row] })

/-- `create_transaction`, with the identifiers the two inserts draw. -/
def createTransaction (merchantId transactionId userId : Uuid)
    (command : CreateTransactionCommand) : DbTx TransactionView := do
  let merchant ← getOrCreateMerchant merchantId command.merchant
  let row ← ofExcept id (transactionRow transactionId userId merchant command)
  insertTransaction row
  reads (transactionView transactionId command merchant)

/-! ### What it does -/

section Spec

variable {merchantId transactionId userId : Uuid} {command : CreateTransactionCommand} {g g' : Db}

/-- The merchant upsert changes the merchants only. -/
theorem getOrCreateMerchant_ensures {merchant : Option (PyStr × PyStr)} :
    (getOrCreateMerchant merchantId merchant).Ensures g fun _ g' =>
      ∃ merchants, g' = { g with merchants := merchants } := by
  cases merchant with
  | none => exact Tx.ensures_pure.2 ⟨g.merchants, rfl⟩
  | some names =>
    simp only [getOrCreateMerchant, Tx.ensures_bind, ensures_require, Tx.ensures_acquire,
      Tx.ensures_reads]
    intro _ _ _
    cases merchantNamed names.2 g with
    | some m => exact Tx.ensures_pure.2 ⟨g.merchants, rfl⟩
    | none =>
      simp only [Tx.ensures_bind, ensures_insertChecked, Tx.ensures_pure]
      exact fun _ => ⟨_, rfl⟩

/-- A row carries over what the command says. -/
structure RowOf (id userId : Uuid) (command : CreateTransactionCommand)
    (row : LedgerTransaction) : Prop where
  id : row.id = id
  userId : row.userId = userId
  source : row.source = command.source
  status : row.status = command.status
  currency : row.currency = command.currency
  transactionType : row.transactionType = command.transactionType
  consistent : command.categoryMetadataConsistent = true

/-- Inversion of an accepted row: what it stores of the amount and of the confidences. -/
theorem transactionRow_inv {id : Uuid} {merchant : Option Uuid} {row : LedgerTransaction}
    (h : transactionRow id userId merchant command = .ok row) :
    command.categoryMetadataConsistent = true ∧ ∃ amount categoryConfidence confidence,
      Money.store command.amount = some amount ∧ row = {
        id := id
        userId := userId
        amount := amount
        currency := command.currency
        transactionType := command.transactionType
        merchantId := merchant
        categoryId := command.categoryId
        description := command.description
        transactionDate := command.transactionDate
        source := command.source
        confidence := confidence
        status := command.status
        categorySource := command.categorySource
        categoryClassifierVersion := command.categoryClassifierVersion
        categoryConfidence := categoryConfidence
        categoryOverridden := command.categoryOverridden } := by
  simp only [transactionRow, bind, Except.bind, throw, throwThe, MonadExceptOf.throw, pure,
    Except.pure] at h
  split at h
  · cases h
  split at h
  · cases h
  rename_i amount hamount
  split at h
  · cases h
  split at h
  · cases h
  split at h
  · cases h
  rename_i hconsistent
  split at h
  · cases h
  split at h
  · cases h
  split at h
  · cases h
  exact ⟨by simpa using hconsistent, amount, _, _, hamount, (Except.ok.inj h).symm⟩

theorem transactionRow_ok {id : Uuid} {merchant : Option Uuid} {row : LedgerTransaction}
    (h : transactionRow id userId merchant command = .ok row) : RowOf id userId command row := by
  obtain ⟨hconsistent, amount, categoryConfidence, confidence, -, rfl⟩ := transactionRow_inv h
  exact ⟨rfl, rfl, rfl, rfl, rfl, rfl, hconsistent⟩

/-- A created transaction is one new row, and nothing else but merchants changes. -/
theorem createTransaction_ensures :
    (createTransaction merchantId transactionId userId command).Ensures g fun view g' =>
      view.id = transactionId ∧ (∀ t ∈ g.transactions, t.id ≠ transactionId) ∧
      ∃ merchants row, RowOf transactionId userId command row ∧
        g' = { g with merchants := merchants, transactions := g.transactions ++ [row] } := by
  rw [createTransaction]
  refine getOrCreateMerchant_ensures.bind fun merchant g₁ hg₁ => ?_
  obtain ⟨merchants, rfl⟩ := hg₁
  simp only [Tx.ensures_bind, ensures_ofExcept, insertTransaction, ensures_insertChecked,
    Tx.ensures_reads]
  intro row hrow hfresh
  have hof := transactionRow_ok hrow
  refine ⟨rfl, ?_, merchants, row, hof, rfl⟩
  intro t ht hid
  rw [if_pos (List.any_eq_true.2 ⟨t, ht, by simp [hid, hof.id]⟩)] at hfresh
  cases hfresh

end Spec

end Expensea.Ledger
