import Expensea.Ledger.Commands
import Expensea.Lib.Recursive
import Expensea.Lib.Statement
import Expensea.Lib.Table

namespace Expensea.Database

/-!
# Categories and transactions in the database

The tables `categories` and `transactions` of the migrations with their constraints, and the
triggers of `_create_category_scope_triggers`.

* `enforceCategoryParentScope`, `enforceTransactionCategoryScope` — the two trigger functions;
* `Tables.write` — one row write: column types, the trigger if it fires, the checks and the keys;
* `Tables.foreignKeys` — what is checked at the end of a statement;
* `rules` — `INSERT` and `UPDATE` statements on the two tables;
* `write_category`, `write_transaction` — what one row write does.
-/

/-! ### Tables and columns -/

/-- The rows of the two tables, and the keys of the tables they refer to. -/
structure Tables where
  users : List Uuid
  merchants : List Uuid
  categories : List Category
  transactions : List LedgerTransaction
  deriving DecidableEq

/-- No categories and no transactions yet. -/
def Tables.empty (users merchants : List Uuid) : Tables := ⟨users, merchants, [], []⟩

/-- The columns of `categories`. -/
inductive CategoryColumn where
  | id
  | userId
  | name
  | normalizedName
  | parentCategoryId
  | createdAt
  | updatedAt
  deriving DecidableEq

/-- The columns of `transactions`. -/
inductive TransactionColumn where
  | id
  | userId
  | amount
  | currency
  | transactionType
  | merchantId
  | categoryId
  | description
  | transactionDate
  | source
  | confidence
  | status
  | categorySource
  | categoryClassifierVersion
  | categoryConfidence
  | categoryOverridden
  | createdAt
  | updatedAt
  deriving DecidableEq

/-- The row after `SET columns = values`. -/
def assignCategory (columns : List CategoryColumn) (values row : Category) : Category where
  id := if .id ∈ columns then values.id else row.id
  userId := if .userId ∈ columns then values.userId else row.userId
  name := if .name ∈ columns then values.name else row.name
  normalizedName := if .normalizedName ∈ columns then values.normalizedName else row.normalizedName
  parentCategoryId :=
    if .parentCategoryId ∈ columns then values.parentCategoryId else row.parentCategoryId

/-- The row after `SET columns = values`. -/
def assignTransaction (columns : List TransactionColumn) (values row : LedgerTransaction) :
    LedgerTransaction where
  id := if .id ∈ columns then values.id else row.id
  userId := if .userId ∈ columns then values.userId else row.userId
  amount := if .amount ∈ columns then values.amount else row.amount
  currency := if .currency ∈ columns then values.currency else row.currency
  transactionType :=
    if .transactionType ∈ columns then values.transactionType else row.transactionType
  merchantId := if .merchantId ∈ columns then values.merchantId else row.merchantId
  categoryId := if .categoryId ∈ columns then values.categoryId else row.categoryId
  description := if .description ∈ columns then values.description else row.description
  transactionDate :=
    if .transactionDate ∈ columns then values.transactionDate else row.transactionDate
  source := if .source ∈ columns then values.source else row.source
  confidence := if .confidence ∈ columns then values.confidence else row.confidence
  status := if .status ∈ columns then values.status else row.status
  categorySource := if .categorySource ∈ columns then values.categorySource else row.categorySource
  categoryClassifierVersion :=
    if .categoryClassifierVersion ∈ columns then values.categoryClassifierVersion
    else row.categoryClassifierVersion
  categoryConfidence :=
    if .categoryConfidence ∈ columns then values.categoryConfidence else row.categoryConfidence
  categoryOverridden :=
    if .categoryOverridden ∈ columns then values.categoryOverridden else row.categoryOverridden

/-! ### Checks -/

/-- The first check that fails is the error. -/
def require : List (Bool × String) → Except String Unit
  | [] => .ok ()
  | (condition, name) :: rest => if condition then require rest else .error name

/-- The column types of `categories`. -/
def categoryTypes (row : Category) : List (Bool × String) :=
  [(fitsColumn 80 row.name, "name"),
    (fitsColumn 80 row.normalizedName, "normalized_name")]

/-- The check constraints of `categories`. -/
def categoryChecks (row : Category) : List (Bool × String) :=
  [(Ledger.notBlank row.name, "ck_categories_name_not_blank"),
    (Ledger.notBlank row.normalizedName, "ck_categories_normalized_name_not_blank"),
    (row.parentCategoryId != some row.id, "ck_categories_parent_not_self")]

/-- The keys of `categories`, against the other rows. -/
def categoryKeys (others : List Category) (row : Category) : List (Bool × String) :=
  [(others.all fun c => c.id != row.id, "pk_categories"),
    (others.all fun c =>
        !(c.userId.isSome && c.userId == row.userId && c.normalizedName == row.normalizedName),
      "uq_categories_user_normalized_name"),
    (others.all fun c =>
        !(c.userId.isNone && row.userId.isNone && c.normalizedName == row.normalizedName),
      "uq_categories_system_normalized_name")]

/-- The column types of `transactions`. -/
def transactionTypes (row : LedgerTransaction) : List (Bool × String) :=
  [(fitsColumn 3 row.currency, "currency"),
    (fitsColumn 500 row.description, "description"),
    (row.categoryClassifierVersion.all fun v => fitsColumn 40 (py v), "category_classifier_version")]

/-- The check constraints of `transactions`. -/
def transactionChecks (row : LedgerTransaction) : List (Bool × String) :=
  [(0 < row.amount.units, "ck_transactions_amount_positive"),
    (row.categoryMetadataConsistent, "ck_transactions_category_metadata_consistent"),
    (Ledger.currencyFormat row.currency, "ck_transactions_currency_format"),
    (Ledger.notBlank row.description, "ck_transactions_description_not_blank")]

/-- The keys of `transactions`, against the other rows. -/
def transactionKeys (others : List LedgerTransaction) (row : LedgerTransaction) :
    List (Bool × String) :=
  [(others.all fun t => t.id != row.id, "pk_transactions"),
    (others.all fun t => !(t.id == row.id && t.userId == row.userId), "uq_transactions_id_user")]

/-- The foreign keys of both tables. -/
def foreignKeyChecks (t : Tables) : List (Bool × String) :=
  [(t.categories.all fun c => c.parentCategoryId.all fun parent =>
        t.categories.any fun c' => c'.id == parent,
      "fk_categories_parent_category_id_categories"),
    (t.categories.all fun c => c.userId.all fun user => t.users.contains user,
      "fk_categories_user_id_users"),
    (t.transactions.all fun r => r.categoryId.all fun category =>
        t.categories.any fun c => c.id == category,
      "fk_transactions_category_id_categories"),
    (t.transactions.all fun r => r.merchantId.all fun merchant => t.merchants.contains merchant,
      "fk_transactions_merchant_id_merchants"),
    (t.transactions.all fun r => t.users.contains r.userId, "fk_transactions_user_id_users")]

/-! ### Triggers -/

/-- The rows of `categories` as pairs `(id, parent_category_id)`. -/
def parentLinks (categories : List Category) : List (Uuid × Option Uuid) :=
  categories.map fun c => (c.id, c.parentCategoryId)

/-- `WITH RECURSIVE ancestors(id, parent_category_id)` from one category. -/
def ancestors (categories : List Category) (first : Uuid) : List (Uuid × Option Uuid) :=
  Recursive.query (parentLinks categories) (fun ancestor category => ancestor.2 == some category.1)
    ((parentLinks categories).filter fun category => category.1 == first)

/-- `spendgraph_enforce_category_parent_scope` -/
def enforceCategoryParentScope (categories : List Category) (row : Category) :
    Except String Unit :=
  match row.parentCategoryId with
  | none => .ok ()
  | some parent =>
    match Table.get Category.id parent categories with
    | none => .ok ()
    | some stored =>
      if stored.userId.isSome && stored.userId != row.userId then .error "ck_categories_parent_owner"
      else if (ancestors categories parent).any fun ancestor => ancestor.1 == row.id then
        .error "ck_categories_parent_cycle"
      else .ok ()

/-- `spendgraph_enforce_transaction_category_scope` -/
def enforceTransactionCategoryScope (categories : List Category) (row : LedgerTransaction) :
    Except String Unit :=
  match row.categoryId with
  | none => .ok ()
  | some category =>
    match Table.get Category.id category categories with
    | none => .ok ()
    | some stored =>
      if stored.userId.isSome && stored.userId != some row.userId then
        .error "ck_transactions_category_owner"
      else .ok ()

/-! ### Statements -/

/-- A statement; an `UPDATE` names the columns it sets and, for each row, the key and the values. -/
inductive Statement where
  | insertCategories (rows : List Category)
  | updateCategories (columns : List CategoryColumn) (changes : List (Uuid × Category))
  | insertTransactions (rows : List LedgerTransaction)
  | updateTransactions (columns : List TransactionColumn)
      (changes : List (Uuid × LedgerTransaction))

/-- A row write. -/
inductive Write where
  | insertCategory (row : Category)
  | updateCategory (columns : List CategoryColumn) (id : Uuid) (values : Category)
  | insertTransaction (row : LedgerTransaction)
  | updateTransaction (columns : List TransactionColumn) (id : Uuid) (values : LedgerTransaction)

/-- The row writes of a statement. -/
def Statement.writes : Statement → List Write
  | .insertCategories rows => rows.map .insertCategory
  | .updateCategories columns changes => changes.map fun c => .updateCategory columns c.1 c.2
  | .insertTransactions rows => rows.map .insertTransaction
  | .updateTransactions columns changes => changes.map fun c => .updateTransaction columns c.1 c.2

/-- An `UPDATE` changes stored rows, each of them once. -/
def Statement.selects (t : Tables) : Statement → Bool
  | .updateCategories _ changes => (changes.map Prod.fst).Nodup ∧
      ∀ c ∈ changes, c.1 ∈ t.categories.map Category.id
  | .updateTransactions _ changes => (changes.map Prod.fst).Nodup ∧
      ∀ c ∈ changes, c.1 ∈ t.transactions.map LedgerTransaction.id
  | _ => true

/-- A row trigger, if it fires. -/
def firing (fires : Bool) (trigger : Except String Unit) : Except String Unit :=
  if fires then trigger else .ok ()

/-- A row of `categories` as it is to be written, beside the other rows. -/
def allowCategory (t : Tables) (fires : Bool) (others : List Category) (row : Category) :
    Except String Unit := do
  require (categoryTypes row)
  firing fires (enforceCategoryParentScope t.categories row)
  require (categoryChecks row)
  require (categoryKeys others row)

/-- A row of `transactions` as it is to be written, beside the other rows. -/
def allowTransaction (t : Tables) (fires : Bool) (others : List LedgerTransaction)
    (row : LedgerTransaction) : Except String Unit := do
  require (transactionTypes row)
  firing fires (enforceTransactionCategoryScope t.categories row)
  require (transactionChecks row)
  require (transactionKeys others row)

/-- `trg_categories_parent_scope` fires on an `UPDATE OF user_id, parent_category_id`. -/
def parentScopeFires (columns : List CategoryColumn) : Bool :=
  .userId ∈ columns ∨ .parentCategoryId ∈ columns

/-- `trg_transactions_category_scope` fires on an `UPDATE OF user_id, category_id`. -/
def categoryScopeFires (columns : List TransactionColumn) : Bool :=
  .userId ∈ columns ∨ .categoryId ∈ columns

/-- One row write. -/
def Tables.write (t : Tables) : Write → Except String Tables
  | .insertCategory row => do
    allowCategory t true t.categories row
    pure { t with categories := t.categories ++ [row] }
  | .updateCategory columns id values =>
    match Table.get Category.id id t.categories with
    | none => .ok t
    | some stored => do
      let row := assignCategory columns values stored
      allowCategory t (parentScopeFires columns) (t.categories.filter fun c => c.id != id) row
      pure { t with categories := Table.set Category.id id (fun _ => row) t.categories }
  | .insertTransaction row => do
    allowTransaction t true t.transactions row
    pure { t with transactions := t.transactions ++ [row] }
  | .updateTransaction columns id values =>
    match Table.get LedgerTransaction.id id t.transactions with
    | none => .ok t
    | some stored => do
      let row := assignTransaction columns values stored
      allowTransaction t (categoryScopeFires columns) (t.transactions.filter fun r => r.id != id) row
      pure { t with transactions := Table.set LedgerTransaction.id id (fun _ => row) t.transactions }

/-- The statements on the two tables. -/
def rules : Rules Tables Statement Write String where
  admits := fun t q => q.selects t
  writes := Statement.writes
  write := Tables.write
  finish := fun t => require (foreignKeyChecks t)

/-! ### What a row write does -/

theorem require_ok {checks : List (Bool × String)} :
    require checks = .ok () ↔ ∀ c ∈ checks, c.1 = true := by
  induction checks with
  | nil => simp [require]
  | cons c rest ih =>
    obtain ⟨condition, name⟩ := c
    rw [require, List.forall_mem_cons]
    by_cases hcondition : condition = true
    · rw [if_pos hcondition, ih]
      exact (and_iff_right hcondition).symm
    · rw [if_neg hcondition]
      constructor
      · intro h
        cases h
      · intro h
        exact absurd h.1 hcondition

/-- The category a row write leaves, and the rows beside it. -/
def Write.category (t : Tables) : Write → Option (Category × List Category)
  | .insertCategory row => some (row, t.categories)
  | .updateCategory columns id values =>
    (Table.get Category.id id t.categories).map fun stored =>
      (assignCategory columns values stored, t.categories.filter fun c => c.id != id)
  | _ => none

/-- The transaction a row write leaves, and the rows beside it. -/
def Write.transaction (t : Tables) :
    Write → Option (LedgerTransaction × List LedgerTransaction)
  | .insertTransaction row => some (row, t.transactions)
  | .updateTransaction columns id values =>
    (Table.get LedgerTransaction.id id t.transactions).map fun stored =>
      (assignTransaction columns values stored, t.transactions.filter fun r => r.id != id)
  | _ => none

/-- An accepted write of a category: the trigger let it pass, or neither column that it looks at
    was set. -/
structure CategoryWritten (t : Tables) (row : Category) (others : List Category) (t' : Tables) :
    Prop where
  transactions : t'.transactions = t.transactions
  categories : ∀ c, c ∈ t'.categories ↔ c = row ∨ c ∈ others
  subset : ∀ c ∈ others, c ∈ t.categories
  fresh : ∀ c ∈ others, c.id ≠ row.id
  notSelf : row.parentCategoryId ≠ some row.id
  checked : enforceCategoryParentScope t.categories row = .ok () ∨
    ∃ stored ∈ t.categories, stored.userId = row.userId ∧
      stored.parentCategoryId = row.parentCategoryId ∧ ∀ c ∈ t.categories, c.id = stored.id ∨ c ∈ others

/-- An accepted write of a transaction: the trigger let it pass, or neither column that it looks
    at was set. -/
structure TransactionWritten (t : Tables) (row : LedgerTransaction)
    (others : List LedgerTransaction) (t' : Tables) : Prop where
  categories : t'.categories = t.categories
  transactions : ∀ r, r ∈ t'.transactions ↔ r = row ∨ r ∈ others
  subset : ∀ r ∈ others, r ∈ t.transactions
  checked : enforceTransactionCategoryScope t.categories row = .ok () ∨
    ∃ stored ∈ t.transactions, stored.userId = row.userId ∧ stored.categoryId = row.categoryId

theorem allowCategory_ok {t : Tables} {fires : Bool} {others : List Category} {row : Category}
    (h : allowCategory t fires others row = .ok ()) :
    (fires = true → enforceCategoryParentScope t.categories row = .ok ()) ∧
      row.parentCategoryId ≠ some row.id ∧ ∀ c ∈ others, c.id ≠ row.id := by
  rw [allowCategory, Rules.bind_eq_ok] at h
  obtain ⟨_, -, h⟩ := h
  obtain ⟨_, hfires, h⟩ := Rules.bind_eq_ok.1 h
  obtain ⟨_, hchecks, hkeys⟩ := Rules.bind_eq_ok.1 h
  have hself := require_ok.1 hchecks (row.parentCategoryId != some row.id, "ck_categories_parent_not_self")
    (by simp [categoryChecks])
  have hkey := require_ok.1 hkeys (others.all fun c => c.id != row.id, "pk_categories")
    (by simp [categoryKeys])
  refine ⟨fun hfire => ?_, bne_iff_ne.1 hself, fun c hc => bne_iff_ne.1 (List.all_eq_true.1 hkey c hc)⟩
  rw [firing, if_pos hfire] at hfires
  exact hfires

theorem allowTransaction_ok {t : Tables} {fires : Bool} {others : List LedgerTransaction}
    {row : LedgerTransaction} (h : allowTransaction t fires others row = .ok ()) (hfire : fires = true) :
    enforceTransactionCategoryScope t.categories row = .ok () := by
  rw [allowTransaction, Rules.bind_eq_ok] at h
  obtain ⟨_, -, h⟩ := h
  obtain ⟨_, hfires, -⟩ := Rules.bind_eq_ok.1 h
  rw [firing, if_pos hfire] at hfires
  exact hfires

section Replaced

variable {R : Type} {key : R → Uuid} {rows : List R} {id : Uuid} {stored row : R}

/-- The rows after one was replaced. -/
theorem mem_replaced (hstored : Table.get key id rows = some stored) (r : R) :
    r ∈ Table.set key id (fun _ => row) rows ↔ r = row ∨ r ∈ rows.filter fun r => key r != id := by
  have hmem := Table.mem_of_get hstored
  have hkey := Table.key_of_get hstored
  rw [Table.mem_set, List.mem_filter, bne_iff_ne]
  constructor
  · intro h
    obtain ⟨r₀, hr₀, rfl⟩ := h
    by_cases hid : key r₀ = id
    · exact .inl (if_pos hid)
    · rw [if_neg hid]
      exact .inr ⟨hr₀, hid⟩
  · intro h
    rcases h with rfl | ⟨hr, hid⟩
    · exact ⟨stored, hmem, (if_pos hkey).symm⟩
    · exact ⟨r, hr, (if_neg hid).symm⟩

end Replaced

/-- A write that its checks allow is done. -/
theorem written {allow : Except String Unit} {next t' : Tables}
    (h : (do allow; pure next) = Except.ok t') : allow = .ok () ∧ t' = next := by
  obtain ⟨_, hallow, hdone⟩ := Rules.bind_eq_ok.1 h
  exact ⟨hallow, (Except.ok.inj hdone).symm⟩

/-- **A category write**, if it is accepted. -/
theorem write_category {t t' : Tables} {w : Write} {row : Category} {others : List Category}
    (hw : w.category t = some (row, others)) (h : t.write w = .ok t') :
    CategoryWritten t row others t' := by
  cases w with
  | insertCategory inserted =>
    cases hw
    obtain ⟨hallow, rfl⟩ := written h
    obtain ⟨hfires, hself, hfresh⟩ := allowCategory_ok hallow
    refine ⟨rfl, fun c => ?_, fun c hc => hc, hfresh, hself, .inl (hfires rfl)⟩
    show c ∈ t.categories ++ [row] ↔ _
    rw [List.mem_append, List.mem_singleton, or_comm]
  | updateCategory columns id values =>
    rw [Write.category, Option.map_eq_some_iff] at hw
    obtain ⟨stored, hstored, hpair⟩ := hw
    cases hpair
    rw [Tables.write, hstored] at h
    obtain ⟨hallow, rfl⟩ := written h
    obtain ⟨hfires, hself, hfresh⟩ := allowCategory_ok hallow
    refine ⟨rfl, mem_replaced hstored, fun c hc => List.mem_of_mem_filter hc, hfresh, hself, ?_⟩
    by_cases hfire : parentScopeFires columns = true
    · exact .inl (hfires hfire)
    · -- neither column is set, so the row keeps its owner and its parent
      rw [parentScopeFires, decide_eq_true_iff, not_or] at hfire
      refine .inr ⟨stored, Table.mem_of_get hstored, (if_neg hfire.1).symm, (if_neg hfire.2).symm,
        fun c hc => ?_⟩
      by_cases hid : c.id = stored.id
      · exact .inl hid
      · rw [Table.key_of_get hstored] at hid
        exact .inr (List.mem_filter.2 ⟨hc, bne_iff_ne.2 hid⟩)
  | insertTransaction inserted => cases hw
  | updateTransaction columns id values => cases hw

/-- A write of no category leaves the categories. -/
theorem write_no_category {t t' : Tables} {w : Write} (hw : w.category t = none)
    (h : t.write w = .ok t') : t'.categories = t.categories := by
  cases w with
  | insertCategory inserted => cases hw
  | updateCategory columns id values =>
    rw [Write.category, Option.map_eq_none_iff] at hw
    rw [Tables.write, hw] at h
    cases h
    rfl
  | insertTransaction inserted =>
    obtain ⟨-, rfl⟩ := written h
    rfl
  | updateTransaction columns id values =>
    rw [Tables.write] at h
    cases hstored : Table.get LedgerTransaction.id id t.transactions with
    | none =>
      rw [hstored] at h
      cases h
      rfl
    | some stored =>
      rw [hstored] at h
      obtain ⟨-, rfl⟩ := written h
      rfl

/-- **A transaction write**, if it is accepted. -/
theorem write_transaction {t t' : Tables} {w : Write} {row : LedgerTransaction}
    {others : List LedgerTransaction} (hw : w.transaction t = some (row, others))
    (h : t.write w = .ok t') : TransactionWritten t row others t' := by
  cases w with
  | insertCategory inserted => cases hw
  | updateCategory columns id values => cases hw
  | insertTransaction inserted =>
    cases hw
    obtain ⟨hallow, rfl⟩ := written h
    refine ⟨rfl, fun r => ?_, fun r hr => hr, .inl (allowTransaction_ok hallow rfl)⟩
    show r ∈ t.transactions ++ [row] ↔ _
    rw [List.mem_append, List.mem_singleton, or_comm]
  | updateTransaction columns id values =>
    rw [Write.transaction, Option.map_eq_some_iff] at hw
    obtain ⟨stored, hstored, hpair⟩ := hw
    cases hpair
    rw [Tables.write, hstored] at h
    obtain ⟨hallow, rfl⟩ := written h
    refine ⟨rfl, mem_replaced hstored, fun r hr => List.mem_of_mem_filter hr, ?_⟩
    by_cases hfire : categoryScopeFires columns = true
    · exact .inl (allowTransaction_ok hallow hfire)
    · -- neither column is set, so the row keeps its owner and its category
      rw [categoryScopeFires, decide_eq_true_iff, not_or] at hfire
      exact .inr ⟨stored, Table.mem_of_get hstored, (if_neg hfire.1).symm, (if_neg hfire.2).symm⟩

/-- A write of no transaction leaves the transactions. -/
theorem write_no_transaction {t t' : Tables} {w : Write} (hw : w.transaction t = none)
    (h : t.write w = .ok t') : t'.transactions = t.transactions := by
  cases w with
  | insertCategory inserted =>
    obtain ⟨-, rfl⟩ := written h
    rfl
  | updateCategory columns id values =>
    rw [Tables.write] at h
    cases hstored : Table.get Category.id id t.categories with
    | none =>
      rw [hstored] at h
      cases h
      rfl
    | some stored =>
      rw [hstored] at h
      obtain ⟨-, rfl⟩ := written h
      rfl
  | insertTransaction inserted => cases hw
  | updateTransaction columns id values =>
    rw [Write.transaction, Option.map_eq_none_iff] at hw
    rw [Tables.write, hw] at h
    cases h
    rfl

/-! ### Foreign keys -/

/-- The foreign keys to `categories` hold. -/
theorem foreignKeys_ok {t : Tables} (h : require (foreignKeyChecks t) = .ok ()) :
    (∀ c ∈ t.categories, ∀ parent, c.parentCategoryId = some parent →
        ∃ c' ∈ t.categories, c'.id = parent) ∧
      ∀ r ∈ t.transactions, ∀ category, r.categoryId = some category →
        ∃ c ∈ t.categories, c.id = category := by
  have hall := require_ok.1 h
  constructor
  · intro c hc parent hparent
    have hcheck := hall (t.categories.all fun c => c.parentCategoryId.all fun parent =>
        t.categories.any fun c' => c'.id == parent,
      "fk_categories_parent_category_id_categories") (by simp [foreignKeyChecks])
    have hrow := List.all_eq_true.1 hcheck c hc
    rw [hparent, Option.all_some, List.any_eq_true] at hrow
    obtain ⟨c', hc', hid⟩ := hrow
    exact ⟨c', hc', beq_iff_eq.1 hid⟩
  · intro r hr category hcategory
    have hcheck := hall (t.transactions.all fun r => r.categoryId.all fun category =>
        t.categories.any fun c => c.id == category,
      "fk_transactions_category_id_categories") (by simp [foreignKeyChecks])
    have hrow := List.all_eq_true.1 hcheck r hr
    rw [hcategory, Option.all_some, List.any_eq_true] at hrow
    obtain ⟨c, hc, hid⟩ := hrow
    exact ⟨c, hc, beq_iff_eq.1 hid⟩

end Expensea.Database
