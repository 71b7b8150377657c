import Expensea.Domain.Normalization
import Expensea.Ledger.Obligations
import Expensea.Ledger.Service

namespace Expensea.Ledger

open Txn
open Txn.Tx (reads modify)

/-!
# Stored texts

The text values the ledger stores for an accepted command, and the columns they go to.

* `Column`, `Fits` — what a column accepts;
* `CreateTransactionCommand.texts` and its siblings — what is stored for a command;
* `Stores` — the inserts fail on exactly the texts that do not fit;
* `Clean` — what an accepted text must be like for its lookup key to fit as well;
* `accepted_fits_iff` — which accepted commands are storable.
-/

/-! ### Columns -/

/-- A text column: its length, and the check constraint on it. -/
structure Column where
  limit : Nat
  check : PyStr → Bool

/-- The column holds the text. -/
def Column.holds (column : Column) (text : PyStr) : Bool :=
  fitsColumn column.limit text && column.check text

/-- `currency` of `transactions`, the obligations, the settlements and the recurring payments -/
def currencyColumn : Column := ⟨3, currencyFormat⟩

/-- `description` of `transactions` and the obligations, `normalized_description` of
    `user_corrections` -/
def descriptionColumn : Column := ⟨500, notBlank⟩

/-- `category_classifier_version` of `transactions`, `classifier_version` of `user_corrections` -/
def versionColumn : Column := ⟨40, fun _ => true⟩

/-- `display_name` and `normalized_name` of `merchants` -/
def merchantColumn : Column := ⟨160, notBlank⟩

/-- `name` and `normalized_name` of `categories` -/
def categoryColumn : Column := ⟨80, notBlank⟩

/-- `name` and `normalized_name` of `people` -/
def personColumn : Column := ⟨120, notBlank⟩

/-- `note` of `obligation_settlements` -/
def noteColumn : Column := ⟨500, fun _ => true⟩

/-- Every text fits its column. -/
def Fits (texts : List (Column × PyStr)) : Prop := ∀ t ∈ texts, t.1.holds t.2 = true

theorem fits_nil : Fits [] := fun t ht => by cases ht

theorem fits_cons {column : Column} {text : PyStr} {texts : List (Column × PyStr)} :
    Fits ((column, text) :: texts) ↔ column.holds text = true ∧ Fits texts := by
  rw [Fits, List.forall_mem_cons]
  rfl

theorem fits_append {texts texts' : List (Column × PyStr)} :
    Fits (texts ++ texts') ↔ Fits texts ∧ Fits texts' := List.forall_mem_append

/-! ### What is stored for a command -/

/-- The display name and the lookup key of a merchant. -/
def merchantTexts (merchant : PyStr × PyStr) : List (Column × PyStr) :=
  [(merchantColumn, merchant.1), (merchantColumn, merchant.2)]

/-- What a later correction of the category stores of a transaction's description. -/
def correctionTexts (U : Unicode) (description : PyStr) : List (Column × PyStr) :=
  [(descriptionColumn, U.casefold description),
    (versionColumn, py Categorization.CLASSIFIER_VERSION)]

/-- The texts of a transaction and of its merchant. -/
def CreateTransactionCommand.rowTexts (c : CreateTransactionCommand) : List (Column × PyStr) :=
  c.merchant.toList.flatMap merchantTexts ++
    [(currencyColumn, c.currency), (descriptionColumn, c.description)]

/-- What is stored for a transaction, its correction included. -/
def CreateTransactionCommand.texts (U : Unicode) (c : CreateTransactionCommand) :
    List (Column × PyStr) :=
  c.rowTexts ++ c.categoryClassifierVersion.toList.map (fun v => (versionColumn, py v)) ++
    correctionTexts U c.description

/-- What is stored for a category. -/
def CreateCategoryCommand.texts (c : CreateCategoryCommand) : List (Column × PyStr) :=
  [(categoryColumn, c.name), (categoryColumn, c.normalizedName)]

/-- What is stored for a person. -/
def CreatePersonCommand.texts (c : CreatePersonCommand) : List (Column × PyStr) :=
  [(personColumn, c.name), (personColumn, c.normalizedName)]

/-- What is stored for an obligation. -/
def CreateObligationCommand.texts (c : CreateObligationCommand) : List (Column × PyStr) :=
  [(currencyColumn, c.currency), (descriptionColumn, c.description)]

/-- What is stored for a settlement. -/
def SettleObligationCommand.texts (c : SettleObligationCommand) : List (Column × PyStr) :=
  (currencyColumn, c.currency) :: c.note.toList.map fun note => (noteColumn, note)

/-- The texts of a recurring payment and of its merchant. -/
def CreateRecurringPaymentCommand.rowTexts (c : CreateRecurringPaymentCommand) :
    List (Column × PyStr) :=
  merchantTexts (c.merchantName, c.normalizedMerchantName) ++ [(currencyColumn, c.currency)]

/-- What is stored for a recurring payment, the expenses recorded for it and their corrections
    included. -/
def CreateRecurringPaymentCommand.texts (U : Unicode) (c : CreateRecurringPaymentCommand) :
    List (Column × PyStr) :=
  c.rowTexts ++ (descriptionColumn, py "Recurring payment: " ++ c.merchantName) ::
    correctionTexts U (py "Recurring payment: " ++ c.merchantName)

/-! ### The inserts -/

/-- The constraints on texts. -/
def TEXT_CONSTRAINTS : List String :=
  ["ck_merchants_display_name_not_blank", "ck_merchants_normalized_name_not_blank",
    "ck_transactions_currency_format", "ck_transactions_description_not_blank",
    "ck_user_corrections_description_not_blank", "ck_categories_name_not_blank",
    "ck_categories_normalized_name_not_blank", "ck_people_name_not_blank",
    "ck_people_normalized_name_not_blank", "ck_recurring_payments_currency_format",
    "currency_format", "description_not_blank"]

/-- A text failed its column. -/
def TextError : AppError → Prop
  | .data column => column ≠ "amount"
  | .integrity name => name ∈ TEXT_CONSTRAINTS
  | _ => False

instance : DecidablePred TextError := fun e => by
  cases e <;> unfold TextError <;> infer_instance

/-- In a store, a program stores exactly texts that fit: it does not fail because of them if
    they do, and does not succeed if they do not. -/
structure Stores {α : Type} (texts : List (Column × PyStr)) (x : DbTx α) (g : Db) : Prop where
  accepts : Fits texts → ¬ x.FailsWith TextError g
  rejects : ¬ Fits texts → ∃ e, x.run g = .error e

namespace Stores

variable {α β : Type} {texts texts' : List (Column × PyStr)} {g : Db}

/-- A program that cannot fail because of texts, and stores texts that fit. -/
theorem of_throws {x : DbTx α} (hf : Fits texts) (hx : x.Throws fun e => ¬ TextError e) :
    Stores texts x g := ⟨fun _ => hx.not_failsWith, fun h => absurd hf h⟩

/-- A check that holds where the texts fit. -/
theorem require {condition : Bool} {e : AppError} {k : Unit → DbTx β}
    (h : Fits texts → condition = true) (hk : condition = true → Stores texts (k ()) g) :
    Stores texts (require condition e >>= k) g := by
  cases condition with
  | true => exact hk rfl
  | false => exact ⟨fun hf => absurd (h hf) Bool.false_ne_true, fun _ => ⟨e, rfl⟩⟩

/-- A program that fails because of no text, before one that stores the texts. -/
theorem bind_right {x : DbTx α} {f : α → DbTx β} (hx : x.Throws fun e => ¬ TextError e)
    (hf : ∀ a g', x.run g = .ok (a, g') → Stores texts (f a) g') : Stores texts (x >>= f) g := by
  constructor
  · intro hfits hfails
    rcases Tx.failsWith_bind.1 hfails with h | ⟨a, g', hrun, h⟩
    · exact hx.not_failsWith h
    · exact (hf a g' hrun).accepts hfits h
  · intro hfits
    rw [Tx.run_bind]
    cases hrun : x.run g with
    | error e => exact ⟨e, rfl⟩
    | ok r => exact (hf r.1 r.2 hrun).rejects hfits

/-- What two parts store. -/
theorem bind {x : DbTx α} {f : α → DbTx β} (hx : Stores texts x g)
    (hf : ∀ a g', x.run g = .ok (a, g') → Stores texts' (f a) g') :
    Stores (texts ++ texts') (x >>= f) g := by
  constructor
  · intro hfits hfails
    rw [fits_append] at hfits
    rcases Tx.failsWith_bind.1 hfails with h | ⟨a, g', hrun, h⟩
    · exact hx.accepts hfits.1 h
    · exact (hf a g' hrun).accepts hfits.2 h
  · intro hfits
    rw [Tx.run_bind]
    cases hrun : x.run g with
    | error e => exact ⟨e, rfl⟩
    | ok r =>
      have hleft : Fits texts := by
        by_contra hleft
        obtain ⟨e, he⟩ := hx.rejects hleft
        rw [hrun] at he
        cases he
      exact (hf r.1 r.2 hrun).rejects fun hright => hfits (fits_append.2 ⟨hleft, hright⟩)

/-- An insert whose constraints say which texts fit. -/
theorem insertChecked {key : Lock} {violation : Db → Option AppError} {row : Db → Db}
    {k : Unit → DbTx β} (hfits : ∀ e, violation g = some e → Fits texts → ¬ TextError e)
    (hreject : violation g = none → Fits texts) (hk : (k ()).Throws fun e => ¬ TextError e) :
    Stores texts (insertChecked key violation row >>= k) g := by
  cases hviolation : violation g with
  | some e =>
    have hrun : (Expensea.insertChecked key violation row >>= k).run g = .error e := by
      rw [Tx.run_bind, run_insertChecked, hviolation]
    refine ⟨fun hf hfails => ?_, fun _ => ⟨e, hrun⟩⟩
    obtain ⟨e', he', htext⟩ := hfails
    rw [hrun] at he'
    exact hfits e hviolation hf (Except.error.inj he' ▸ htext)
  | none =>
    refine ⟨fun _ hfails => ?_, fun h => absurd (hreject hviolation) h⟩
    rw [Tx.failsWith_bind, run_insertChecked, hviolation] at hfails
    rcases hfails with ⟨e, he, -⟩ | ⟨_, _, _, h⟩
    · rw [run_insertChecked, hviolation] at he
      cases he
    · exact hk.not_failsWith h

end Stores

section Inserts

variable {id userId merchantId transactionId : Uuid} {g : Db}

theorem holds_iff {column : Column} {text : PyStr} : column.holds text = true ↔
    fitsColumn column.limit text = true ∧ column.check text = true := by
  rw [Column.holds, Bool.and_eq_true]

/-- Merchants. -/
theorem getOrCreateMerchant_stores (merchantId : Uuid) (merchant : Option (PyStr × PyStr)) :
    Stores (merchant.toList.flatMap merchantTexts) (getOrCreateMerchant merchantId merchant) g := by
  cases merchant with
  | none => exact .of_throws fits_nil (Tx.throws_pure none)
  | some names =>
    have hiff : Fits ((some names).toList.flatMap merchantTexts) ↔
        (fitsColumn 160 names.1 = true ∧ notBlank names.1 = true) ∧
          fitsColumn 160 names.2 = true ∧ notBlank names.2 = true := by
      show Fits [(merchantColumn, names.1), (merchantColumn, names.2)] ↔ _
      rw [fits_cons, fits_cons, holds_iff, holds_iff]
      simp [fits_nil, merchantColumn]
    rw [getOrCreateMerchant]
    refine .require (fun h => ?_) fun hlength => ?_
    · rw [(hiff.1 h).1.1, (hiff.1 h).2.1]
      rfl
    refine .require (fun h => (hiff.1 h).1.2) fun hdisplay => ?_
    refine .require (fun h => (hiff.1 h).2.2) fun hnormalized => ?_
    rw [Bool.and_eq_true] at hlength
    refine .of_throws (hiff.2 ⟨⟨hlength.1, hdisplay⟩, hlength.2, hnormalized⟩) ?_
    refine Tx.throws_bind (Tx.throws_acquire _) fun _ => Tx.throws_reads_bind fun g => ?_
    cases merchantNamed names.2 g with
    | some m => exact Tx.throws_pure _
    | none =>
      refine Tx.throws_bind (throws_insertChecked fun g e he => ?_) fun _ => Tx.throws_pure _
      split at he <;> cases he
      decide

/-- The row of a transaction is refused because of a text exactly where one does not fit. -/
theorem transactionRow_fits (id userId : Uuid) (merchant : Option Uuid)
    (command : CreateTransactionCommand) :
    (∀ e, transactionRow id userId merchant command = .error e →
      Fits [(currencyColumn, command.currency), (descriptionColumn, command.description)] →
      ¬ TextError e) ∧
    ∀ row, transactionRow id userId merchant command = .ok row →
      Fits [(currencyColumn, command.currency), (descriptionColumn, command.description)] := by
  have hiff : Fits [(currencyColumn, command.currency), (descriptionColumn, command.description)] ↔
      (fitsColumn 3 command.currency = true ∧ currencyFormat command.currency = true) ∧
        fitsColumn 500 command.description = true ∧ notBlank command.description = true := by
    rw [fits_cons, fits_cons, holds_iff, holds_iff]
    simp [fits_nil, currencyColumn, descriptionColumn]
  have hconfidence : ∀ {ck : String} {value : Option ℚ} {e : AppError},
      storeConfidence ck value = .error e → e = .integrity ck := by
    intro ck value e h
    unfold storeConfidence at h
    split at h
    · cases h
    · split at h
      · exact (Except.error.inj h).symm
      · cases h
  rw [hiff]
  simp only [transactionRow, bind, Except.bind, throw, throwThe, MonadExceptOf.throw, pure,
    Except.pure]
  split
  · rename_i htext
    refine ⟨fun e _ hf => ?_, fun row h => by cases h⟩
    rw [hf.1.1, hf.2.1] at htext
    cases htext
  rename_i htext
  split
  · exact ⟨fun e he _ => by rw [← Except.error.inj he]; decide, fun row h => by cases h⟩
  split
  · exact ⟨fun e he _ => by rw [← Except.error.inj he]; decide, fun row h => by cases h⟩
  split
  · rename_i hstore
    refine ⟨fun e he _ => ?_, fun row h => by cases h⟩
    rw [← Except.error.inj he, hconfidence hstore]
    decide
  split
  · exact ⟨fun e he _ => by rw [← Except.error.inj he]; decide, fun row h => by cases h⟩
  split
  · rename_i hstore
    refine ⟨fun e he _ => ?_, fun row h => by cases h⟩
    rw [← Except.error.inj he, hconfidence hstore]
    decide
  split
  · rename_i hformat
    refine ⟨fun e _ hf => ?_, fun row h => by cases h⟩
    rw [hf.1.2] at hformat
    cases hformat
  rename_i hformat
  split
  · rename_i hblank
    refine ⟨fun e _ hf => ?_, fun row h => by cases h⟩
    rw [hf.2.2] at hblank
    cases hblank
  rename_i hblank
  constructor
  · intro e he
    cases he
  · intro row _
    simp only [Bool.not_eq_true', Bool.not_eq_false, Bool.and_eq_true] at htext hformat hblank
    exact ⟨⟨htext.1, hformat⟩, htext.2, hblank⟩

/-- Transactions. -/
theorem createTransaction_stores (command : CreateTransactionCommand) :
    Stores command.rowTexts (createTransaction merchantId transactionId userId command) g := by
  rw [createTransaction]
  refine (getOrCreateMerchant_stores merchantId command.merchant).bind fun merchant g' _ => ?_
  obtain ⟨herror, hok⟩ := transactionRow_fits transactionId userId merchant command
  cases hrow : transactionRow transactionId userId merchant command with
  | error e =>
    refine ⟨fun hf hfails => ?_, fun _ => ⟨e, rfl⟩⟩
    obtain ⟨e', he', htext⟩ := hfails
    rw [← Except.error.inj he'] at htext
    exact herror e hrow hf htext
  | ok row =>
    refine .of_throws (hok row hrow) (Tx.throws_bind (Tx.throws_pure row) fun row => ?_)
    refine Tx.throws_bind (throws_insertChecked fun g e he => ?_) fun _ => Tx.throws_reads _
    split at he <;> cases he
    decide

/-- The correction of a transaction that is there. -/
theorem correctRow_stores {U : Unicode} {correctionId mapId categoryId : Uuid}
    {t : LedgerTransaction}
    (ht : g.transactions.find? (fun t => t.userId == userId && t.id == transactionId) = some t) :
    Stores (correctionTexts U t.description)
      (Categorization.correctRow U correctionId mapId userId transactionId categoryId) g := by
  have hiff : Fits (correctionTexts U t.description) ↔
      fitsColumn 500 (U.casefold t.description) = true ∧
        notBlank (U.casefold t.description) = true := by
    have hversion : versionColumn.holds (py Categorization.CLASSIFIER_VERSION) = true := by
      decide +kernel
    rw [correctionTexts, fits_cons, fits_cons, holds_iff, hversion]
    simp [fits_nil, descriptionColumn]
  rw [Categorization.correctRow]
  refine .bind_right (throws_selectForUpdate _ _ _ _) fun locked g' hrun => ?_
  rw [run_selectForUpdate, ht] at hrun
  obtain ⟨rfl, rfl⟩ := Prod.mk.inj (Except.ok.inj hrun)
  refine .bind_right (Tx.throws_modify _) fun _ g' _ => ?_
  refine .require (fun _ => Categorization.corrected_consistent categoryId t) fun _ => ?_
  refine .bind_right (Tx.throws_modify _) fun _ g' _ => ?_
  refine .bind_right (Tx.throws_reads _) fun now g' _ => ?_
  refine .require (fun h => (hiff.1 h).1) fun hlength => ?_
  refine .require (fun h => (hiff.1 h).2) fun hblank => ?_
  refine .of_throws (hiff.2 ⟨hlength, hblank⟩) ?_
  refine Tx.throws_bind (throws_insertChecked fun g e he => ?_) fun _ => Tx.throws_pure _
  split at he <;> cases he
  decide

/-- Categories. -/
theorem createCategoryRow_stores (command : CreateCategoryCommand) :
    Stores command.texts (createCategoryRow id userId command) g := by
  have hiff : Fits command.texts ↔
      (fitsColumn 80 command.name = true ∧ notBlank command.name = true) ∧
        fitsColumn 80 command.normalizedName = true ∧ notBlank command.normalizedName = true := by
    rw [CreateCategoryCommand.texts, fits_cons, fits_cons, holds_iff, holds_iff]
    simp [fits_nil, categoryColumn]
  rw [createCategoryRow]
  refine .bind_right (Tx.throws_acquire _) fun _ g' _ => ?_
  refine .insertChecked (fun e he hf => ?_) (fun he => ?_) (Tx.throws_pure id)
  · obtain ⟨⟨hlength, hblank⟩, hlength', hblank'⟩ := hiff.1 hf
    simp only [categoryViolation, hlength, hblank, hlength', hblank', Bool.and_self, Bool.not_true,
      Bool.false_eq_true, if_false] at he
    split at he
    · obtain rfl := Option.some.inj he
      decide
    split at he
    · obtain rfl := Option.some.inj he
      decide
    split at he
    · obtain rfl := Option.some.inj he
      decide
    · cases he
  · unfold categoryViolation at he
    split at he
    · cases he
    split at he
    · cases he
    split at he
    · cases he
    rename_i hlength hblank hblank'
    simp only [Bool.not_eq_true', Bool.not_eq_false, Bool.and_eq_true] at hlength hblank hblank'
    exact hiff.2 ⟨⟨hlength.1, hblank⟩, hlength.2, hblank'⟩

theorem createCategory_stores (command : CreateCategoryCommand) :
    Stores command.texts (createCategory id userId command) g := by
  rw [createCategory]
  refine .bind_right (Tx.throws_reads _) fun _ g' _ => ?_
  refine .bind_right (throws_require (by decide)) fun _ g' _ => ?_
  refine .bind_right (x := requireParent userId command.parentCategoryId) ?_ fun _ g' _ => ?_
  · cases command.parentCategoryId with
    | none => exact Tx.throws_pure _
    | some parent => exact Tx.throws_bind (Tx.throws_reads _) fun _ => throws_require (by decide)
  refine .bind_right (Tx.throws_reads _) fun _ g' _ => ?_
  refine .bind_right (throws_require (by decide)) fun _ g' _ => ?_
  exact createCategoryRow_stores command

/-- People. -/
theorem createPersonRow_stores (command : CreatePersonCommand) :
    Stores command.texts (createPersonRow id userId command) g := by
  have hiff : Fits command.texts ↔
      (fitsColumn 120 command.name = true ∧ notBlank command.name = true) ∧
        fitsColumn 120 command.normalizedName = true ∧ notBlank command.normalizedName = true := by
    rw [CreatePersonCommand.texts, fits_cons, fits_cons, holds_iff, holds_iff]
    simp [fits_nil, personColumn]
  rw [createPersonRow]
  refine .require (fun h => ?_) fun hlength => ?_
  · rw [(hiff.1 h).1.1, (hiff.1 h).2.1]
    rfl
  refine .require (fun h => (hiff.1 h).1.2) fun hblank => ?_
  refine .require (fun h => (hiff.1 h).2.2) fun hblank' => ?_
  rw [Bool.and_eq_true] at hlength
  refine .of_throws (hiff.2 ⟨⟨hlength.1, hblank⟩, hlength.2, hblank'⟩) ?_
  refine Tx.throws_bind (throws_insertOrIgnore fun g e he => ?_) fun _ => Tx.throws_pure _
  split at he <;> cases he
  decide

/-- Obligations. -/
theorem createObligationRow_stores {kind : ObligationKind} {asOf : Date}
    (command : CreateObligationCommand) :
    Stores command.texts (createObligationRow kind id userId command asOf) g := by
  have hiff : Fits command.texts ↔
      (fitsColumn 3 command.currency = true ∧ currencyFormat command.currency = true) ∧
        fitsColumn 500 command.description = true ∧ notBlank command.description = true := by
    rw [CreateObligationCommand.texts, fits_cons, fits_cons, holds_iff, holds_iff]
    simp [fits_nil, currencyColumn, descriptionColumn]
  rw [createObligationRow]
  refine .insertChecked (fun e he hf => ?_) (fun he => ?_)
    (Tx.throws_reads_bind fun g => throws_requireSome (by decide))
  · obtain ⟨⟨hlength, hformat⟩, hlength', hblank⟩ := hiff.1 hf
    simp only [obligationViolation, hlength, hformat, hlength', hblank, Bool.and_self, Bool.not_true,
      Bool.false_eq_true, if_false] at he
    split at he
    · obtain rfl := Option.some.inj he
      decide
    split at he
    · obtain rfl := Option.some.inj he
      decide
    split at he
    · obtain rfl := Option.some.inj he
      decide
    split at he
    · obtain rfl := Option.some.inj he
      decide
    · cases he
  · unfold obligationViolation at he
    split at he
    · cases he
    split at he
    · cases he
    rename_i hlength
    split at he
    · cases he
    split at he
    · cases he
    split at he
    · cases he
    rename_i hformat
    split at he
    · cases he
    rename_i hblank
    simp only [Bool.not_eq_true', Bool.not_eq_false, Bool.and_eq_true] at hlength hformat hblank
    exact hiff.2 ⟨⟨hlength.1, hformat⟩, hlength.2, hblank⟩

/-- Settlements. -/
theorem addSettlement_stores {kind : ObligationKind} {obligationId : Uuid} {amount : ℚ}
    (command : SettleObligationCommand) :
    Stores command.texts (addSettlement kind id userId obligationId command amount) g := by
  have hiff : Fits command.texts ↔
      (fitsColumn 3 command.currency = true ∧ currencyFormat command.currency = true) ∧
        optFitsColumn 500 command.note = true := by
    rw [SettleObligationCommand.texts, fits_cons, holds_iff]
    cases command.note with
    | none => simp [fits_nil, currencyColumn, optFitsColumn]
    | some note =>
      rw [Option.toList_some, List.map_singleton, fits_cons, holds_iff]
      simp [fits_nil, currencyColumn, noteColumn, optFitsColumn]
  rw [addSettlement]
  refine .insertChecked (fun e he hf => ?_) (fun he => ?_) (Tx.throws_pure _)
  · obtain ⟨⟨hlength, hformat⟩, hnote⟩ := hiff.1 hf
    simp only [settlementViolation, hlength, hformat, hnote, Bool.and_self, Bool.not_true,
      Bool.false_eq_true, if_false] at he
    split at he
    · obtain rfl := Option.some.inj he
      decide
    split at he
    · obtain rfl := Option.some.inj he
      decide
    split at he
    · obtain rfl := Option.some.inj he
      decide
    · cases he
  · unfold settlementViolation at he
    split at he
    · cases he
    split at he
    · cases he
    rename_i hlength
    split at he
    · cases he
    split at he
    · cases he
    split at he
    · cases he
    rename_i hformat
    simp only [Bool.not_eq_true', Bool.not_eq_false, Bool.and_eq_true] at hlength hformat
    exact hiff.2 ⟨⟨hlength.1, hformat⟩, hlength.2⟩

/-- Recurring payments. -/
theorem createRecurring_stores (command : CreateRecurringPaymentCommand) :
    Stores command.rowTexts (getOrCreateRecurringMerchant merchantId command >>= fun merchant =>
      createRecurringRow id userId merchant command) g := by
  have hiff : Fits [(currencyColumn, command.currency)] ↔
      fitsColumn 3 command.currency = true ∧ currencyFormat command.currency = true := by
    rw [fits_cons, holds_iff]
    simp [fits_nil, currencyColumn]
  have hmerchant : Stores (merchantTexts (command.merchantName, command.normalizedMerchantName))
      (getOrCreateRecurringMerchant merchantId command) g := by
    have h := getOrCreateMerchant_stores (g := g) merchantId
      (some (command.merchantName, command.normalizedMerchantName))
    have htexts : (some (command.merchantName, command.normalizedMerchantName)).toList.flatMap
        merchantTexts = merchantTexts (command.merchantName, command.normalizedMerchantName) := by
      simp
    rw [htexts] at h
    rw [← List.append_nil (merchantTexts _)]
    exact h.bind fun merchant g' _ => .of_throws fits_nil (throws_requireSome (by decide))
  refine hmerchant.bind fun merchant g' _ => ?_
  rw [createRecurringRow]
  refine .require (fun h => (hiff.1 h).1) fun hlength => ?_
  refine .bind_right (throws_requireSome (by decide)) fun amount g' _ => ?_
  refine .bind_right (throws_require (by decide)) fun _ g' _ => ?_
  refine .require (fun h => (hiff.1 h).2) fun hformat => ?_
  refine .of_throws (hiff.2 ⟨hlength, hformat⟩) ?_
  refine Tx.throws_bind (throws_insertChecked fun g e he => ?_) fun _ => Tx.throws_pure _
  split at he <;> cases he
  decide

end Inserts

/-! ### Accepted commands -/

/-- What a text must be like to be stored along with its lookup key: no character PostgreSQL
    cannot hold, and not too long once its characters are folded. -/
def Clean (U : Unicode) (limit : Nat) (text : PyStr) : Prop :=
  text.all storableChar = true ∧ foldedWidth U text ≤ limit

section Parsed

variable {U : Unicode} {text : PyStr} {limit : Nat}

/-- Display text within its column. -/
theorem holds_display (hU : U.Lawful) (hne : normalizeDisplayText U text ≠ [])
    (hle : (normalizeDisplayText U text).length ≤ limit) :
    (⟨limit, notBlank⟩ : Column).holds (normalizeDisplayText U text) = true ↔
      text.all storableChar = true := by
  have hblank : notBlank (normalizeDisplayText U text) = true := notBlank_display hne
  rw [holds_iff, fitsColumn, Bool.and_eq_true, decide_eq_true_eq, all_display hU]
  simp [hblank, hle]

/-- A lookup key within its column. -/
theorem holds_key (hU : U.Lawful) (hne : normalizeDisplayText U text ≠ []) :
    (⟨limit, notBlank⟩ : Column).holds (U.casefold (normalizeDisplayText U text)) = true ↔
      Clean U limit text := by
  have hblank : notBlank (U.casefold (normalizeDisplayText U text)) = true :=
    notBlank_casefold hU (notBlank_display hne)
  rw [holds_iff, fitsColumn, Bool.and_eq_true, decide_eq_true_eq, all_casefold hU, all_display hU,
    length_casefold_display hU, Clean]
  simp [hblank, and_comm]

/-- A text and its key. -/
theorem fits_named (hU : U.Lawful) (hne : normalizeDisplayText U text ≠ [])
    (hle : (normalizeDisplayText U text).length ≤ limit) :
    Fits [(⟨limit, notBlank⟩, normalizeDisplayText U text),
      (⟨limit, notBlank⟩, U.casefold (normalizeDisplayText U text))] ↔ Clean U limit text := by
  rw [fits_cons, fits_cons, holds_display hU hne hle, holds_key hU hne]
  exact ⟨fun h => h.2.1, fun h => ⟨h.1, h, fits_nil⟩⟩

/-- A text that is blank is clean. -/
theorem clean_of_blank (hU : U.Lawful) (h : normalizeDisplayText U text = []) :
    Clean U limit text := by
  constructor
  · rw [← all_display hU, h]
    rfl
  · rw [← length_casefold_display hU, h, hU.casefold_flatMap]
    exact Nat.zero_le _

/-- A parsed currency fits its columns. -/
theorem parseCurrency_holds {currency code : PyStr} (h : parseCurrency U currency = .ok code) :
    currencyColumn.holds code = true := by
  have hall : SUPPORTED_CURRENCIES.all currencyColumn.holds = true := by decide +kernel
  unfold parseCurrency at h
  split at h
  · cases h
  split at h
  · rename_i hmem
    obtain rfl := Except.ok.inj h
    exact List.all_eq_true.1 hall _ hmem
  · cases h

/-- The texts a transaction is parsed from. -/
theorem parseCreateTransaction_texts {input : TransactionInput} {command : CreateTransactionCommand}
    (h : parseCreateTransaction U input = .ok command) :
    parseCurrency U input.currency = .ok command.currency ∧
    normalizeDisplayText U input.description ≠ [] ∧
    (normalizeDisplayText U input.description).length ≤ 500 ∧
    command.description = normalizeDisplayText U input.description ∧
    parseOptionalMerchantName U input.merchantName = .ok command.merchant := by
  have hmap : ∀ {α : Type} {x : Except LedgerError α} {a : α},
      x.mapError AppError.ledger = .ok a → x = .ok a := by
    intro α x a hx
    cases x with
    | error e => cases hx
    | ok b => exact congrArg Except.ok (Except.ok.inj hx)
  simp only [parseCreateTransaction, bind, Except.bind, throw, throwThe, MonadExceptOf.throw, pure,
    Except.pure] at h
  split at h
  · cases h
  split at h
  · cases h
  rename_i hcurrency
  split at h
  · cases h
  rename_i hne
  split at h
  · cases h
  rename_i hle
  split at h
  · cases h
  split at h
  · cases h
  rename_i hmerchant
  split at h
  · cases h
  split at h
  · cases h
  obtain rfl := Except.ok.inj h
  exact ⟨hmap hcurrency, hne, not_lt.1 hle, rfl, hmap hmerchant⟩

/-- The merchant of a transaction. -/
theorem fits_merchant (hU : U.Lawful) {value : Option PyStr} {merchant : Option (PyStr × PyStr)}
    (h : parseOptionalMerchantName U value = .ok merchant) :
    Fits (merchant.toList.flatMap merchantTexts) ↔
      ∀ name, value = some name → Clean U 160 name := by
  cases value with
  | none =>
    obtain rfl := Except.ok.inj h
    exact iff_of_true fits_nil fun name hname => by cases hname
  | some name =>
    have hname : (∀ n, some name = some n → Clean U 160 n) ↔ Clean U 160 name :=
      ⟨fun hall => hall name rfl, fun hclean n hn => Option.some.inj hn ▸ hclean⟩
    rw [hname]
    unfold parseOptionalMerchantName at h
    dsimp only at h
    split at h
    · rename_i hblank
      obtain rfl := Except.ok.inj h
      exact iff_of_true fits_nil (clean_of_blank hU hblank)
    split at h
    · cases h
    rename_i hne hle
    obtain rfl := Except.ok.inj h
    show Fits [(⟨160, notBlank⟩, normalizeDisplayText U name),
      (⟨160, notBlank⟩, U.casefold (normalizeDisplayText U name))] ↔ _
    exact fits_named hU hne (not_lt.1 hle)

/-- What is stored of a correction. -/
theorem fits_correction (hU : U.Lawful) (hne : normalizeDisplayText U text ≠ []) :
    Fits (correctionTexts U (normalizeDisplayText U text)) ↔ Clean U 500 text := by
  have hversion : versionColumn.holds (py Categorization.CLASSIFIER_VERSION) = true := by
    decide +kernel
  rw [correctionTexts, descriptionColumn, fits_cons, fits_cons, holds_key hU hne]
  exact ⟨fun h => h.1, fun h => ⟨h, hversion, fits_nil⟩⟩

/-- Transactions. -/
theorem transaction_fits_iff (hU : U.Lawful) {input : TransactionInput}
    {command : CreateTransactionCommand} (h : parseCreateTransaction U input = .ok command) :
    Fits (command.texts U) ↔ Clean U 500 input.description ∧
      ∀ name, input.merchantName = some name → Clean U 160 name := by
  obtain ⟨hcurrency, hne, hle, hdescription, hmerchant⟩ := parseCreateTransaction_texts h
  have hversion : Fits (command.categoryClassifierVersion.toList.map fun v =>
      (versionColumn, py v)) := by
    have hconstant : versionColumn.holds (py "explicit-user-v1") = true := by decide +kernel
    rw [(parseCreateTransaction_ok h).2.2.2.2.2.1]
    cases input.categoryId with
    | none => exact fits_nil
    | some id => exact fits_cons.2 ⟨hconstant, fits_nil⟩
  rw [CreateTransactionCommand.texts, CreateTransactionCommand.rowTexts, hdescription, fits_append,
    fits_append, fits_append, fits_merchant hU hmerchant, fits_correction hU hne, fits_cons,
    fits_cons, descriptionColumn, holds_display hU hne hle]
  constructor
  · exact fun hfits => ⟨hfits.2, hfits.1.1.1⟩
  · exact fun hclean =>
      ⟨⟨⟨hclean.2, parseCurrency_holds hcurrency, hclean.1.1, fits_nil⟩, hversion⟩, hclean.1⟩

/-- Categories. -/
theorem category_fits_iff (hU : U.Lawful) {name : PyStr} {parent : Option Uuid}
    {command : CreateCategoryCommand} (h : parseCreateCategory U name parent = .ok command) :
    Fits command.texts ↔ Clean U 80 name := by
  unfold parseCreateCategory at h
  dsimp only at h
  split at h
  · cases h
  split at h
  · cases h
  rename_i hne hle
  obtain rfl := Except.ok.inj h
  exact fits_named hU hne (not_lt.1 hle)

/-- People. -/
theorem person_fits_iff (hU : U.Lawful) {name : PyStr} {command : CreatePersonCommand}
    (h : parseCreatePerson U name = .ok command) : Fits command.texts ↔ Clean U 120 name := by
  unfold parseCreatePerson at h
  dsimp only at h
  split at h
  · cases h
  split at h
  · cases h
  rename_i hne hle
  obtain rfl := Except.ok.inj h
  rw [CreatePersonCommand.texts, normalizeLookupText, display_display hU]
  exact fits_named hU hne (not_lt.1 hle)

/-- Obligations. -/
theorem obligation_fits_iff (hU : U.Lawful) {personId : Uuid} {amount currency description : PyStr}
    {issuedDate : Date} {dueDate : Option Date} {transactionId : Option Uuid}
    {command : CreateObligationCommand}
    (h : parseCreateObligation U personId amount currency description issuedDate dueDate
      transactionId = .ok command) :
    Fits command.texts ↔ description.all storableChar = true := by
  obtain ⟨parsed, parsedAmount, parsedCurrency, hparsed, -, -, hcurrency, rfl⟩ :=
    parseCreateObligation_ok h
  unfold parseDescription at hparsed
  dsimp only at hparsed
  split at hparsed
  · cases hparsed
  split at hparsed
  · cases hparsed
  rename_i hne hle
  obtain rfl := Except.ok.inj hparsed
  rw [CreateObligationCommand.texts, descriptionColumn, fits_cons, fits_cons,
    holds_display hU hne (not_lt.1 hle)]
  exact ⟨fun hfits => hfits.2.1, fun hall => ⟨parseCurrency_holds hcurrency, hall, fits_nil⟩⟩

/-- Settlements. -/
theorem settlement_fits_iff (hU : U.Lawful) {amount currency : PyStr} {settledAt : DateTime}
    {transactionId : Option Uuid} {note : Option PyStr} {command : SettleObligationCommand}
    (h : parseSettlement U amount currency settledAt transactionId note = .ok command) :
    Fits command.texts ↔ ∀ text, note = some text → text.all storableChar = true := by
  obtain ⟨-, -, -, hcurrency, hnote, hlength⟩ := parseSettlement_ok h
  rw [SettleObligationCommand.texts, fits_cons, hnote]
  cases note with
  | none =>
    refine iff_of_true ⟨parseCurrency_holds hcurrency, fits_nil⟩ fun text htext => ?_
    cases htext
  | some text =>
    have htext : (∀ t, some text = some t → t.all storableChar = true) ↔
        text.all storableChar = true :=
      ⟨fun hall => hall text rfl, fun hclean t ht => Option.some.inj ht ▸ hclean⟩
    rw [htext, ← all_display hU, Option.map_some]
    by_cases hblank : normalizeDisplayText U text = []
    · rw [Option.filter_some_neg (by simp [hblank]), hblank]
      exact iff_of_true ⟨parseCurrency_holds hcurrency, fits_nil⟩ rfl
    · rw [Option.map_some, Option.filter_some_pos (by simp [hblank])] at hnote
      have hholds : noteColumn.holds (normalizeDisplayText U text) = true ↔
          (normalizeDisplayText U text).all storableChar = true := by
        rw [holds_iff, noteColumn, fitsColumn, decide_eq_true (hlength _ hnote)]
        simp
      rw [Option.filter_some_pos (by simp [hblank]), Option.toList_some, List.map_singleton,
        fits_cons, hholds]
      exact ⟨fun hfits => hfits.2.1, fun hall => ⟨parseCurrency_holds hcurrency, hall, fits_nil⟩⟩

/-- Recurring payments. -/
theorem recurring_fits_iff (hU : U.Lawful) {amount currency merchantName : PyStr}
    {recurrenceRule : RecurrenceRule} {nextExpectedDate : Date}
    {command : CreateRecurringPaymentCommand}
    (h : parseCreateRecurringPayment U amount currency merchantName recurrenceRule
      nextExpectedDate = .ok command) :
    Fits (command.texts U) ↔ merchantName.all storableChar = true := by
  have hparts : parseCurrency U currency = .ok command.currency ∧
      normalizeDisplayText U merchantName ≠ [] ∧
      (normalizeDisplayText U merchantName).length ≤ 160 ∧ foldedWidth U merchantName ≤ 160 ∧
      command.merchantName = normalizeDisplayText U merchantName ∧
      command.normalizedMerchantName = U.casefold (normalizeDisplayText U merchantName) := by
    obtain ⟨hne, hle, value, code, -, hcode, rfl⟩ := parseCreateRecurringPayment_ok h
    dsimp only at hne hle ⊢
    rw [normalizeLookupText, display_display hU] at hne hle ⊢
    rw [not_or, not_lt, not_lt, length_casefold_display hU] at hle
    exact ⟨hcode, fun hblank => hne (.inl hblank), hle.1, hle.2, rfl, rfl⟩
  obtain ⟨hcurrency, hne, hle, hwidth, hname, hkey⟩ := hparts
  rw [CreateRecurringPaymentCommand.texts, CreateRecurringPaymentCommand.rowTexts, hname, hkey,
    fits_append, fits_append, merchantTexts, merchantColumn, fits_named hU hne hle]
  refine ⟨fun hfits => hfits.1.1.1, fun hall => ⟨⟨⟨hall, hwidth⟩, ?_⟩, ?_⟩⟩
  · exact fits_cons.2 ⟨parseCurrency_holds hcurrency, fits_nil⟩
  -- the description of an expense, and its folded form
  have hprefix : (py "Recurring payment: ").all storableChar = true ∧
      notBlank (py "Recurring payment: ") = true ∧ (py "Recurring payment: ").length = 19 := by
    decide +kernel
  have hversion : versionColumn.holds (py Categorization.CLASSIFIER_VERSION) = true := by
    decide +kernel
  have hblank : notBlank (py "Recurring payment: " ++ normalizeDisplayText U merchantName) = true := by
    rw [notBlank, List.any_append, Bool.or_eq_true]
    exact .inl hprefix.2.1
  have hstorable : (py "Recurring payment: " ++ normalizeDisplayText U merchantName).all
      storableChar = true := by
    rw [List.all_append, hprefix.1, all_display hU, hall]
    rfl
  have hfolded : (U.casefold (py "Recurring payment: " ++
      normalizeDisplayText U merchantName)).length ≤ 500 := by
    have hthree : ((py "Recurring payment: ").map (foldWidth U)).sum ≤ 19 * 3 := by
      have h := List.sum_le_card_nsmul ((py "Recurring payment: ").map (foldWidth U)) 3
        (List.forall_mem_map.2 fun c _ => hU.casefold_length c)
      rwa [List.length_map, hprefix.2.2] at h
    have hrest := length_casefold_display hU merchantName
    rw [length_casefold hU] at hrest ⊢
    rw [List.map_append, List.sum_append, hrest]
    omega
  rw [correctionTexts, fits_cons, fits_cons, fits_cons, holds_iff, holds_iff, descriptionColumn,
    fitsColumn, fitsColumn, hstorable, all_casefold hU, hstorable, List.length_append, hprefix.2.2,
    decide_eq_true (show 19 + (normalizeDisplayText U merchantName).length ≤ 500 by omega),
    decide_eq_true hfolded]
  exact ⟨⟨rfl, hblank⟩, ⟨rfl, notBlank_casefold hU hblank⟩, hversion, fits_nil⟩

end Parsed

/-- A correction of a transaction with this description stores the texts of a correction. -/
def CorrectionStores (U : Unicode) (description : PyStr) : Prop :=
  ∀ correctionId mapId userId transactionId categoryId t g,
    g.transactions.find? (fun t => t.userId == userId && t.id == transactionId) = some t →
    t.description = description → Stores (correctionTexts U description)
      (Categorization.correctRow U correctionId mapId userId transactionId categoryId) g

theorem correction_stores {U : Unicode} (description : PyStr) :
    CorrectionStores U description := by
  rintro correctionId mapId userId transactionId categoryId t g ht rfl
  exact correctRow_stores ht

/-- **What is accepted and storable.**  The texts stored for an accepted transaction, category or
    person fit their columns if and only if the texts it was parsed from are clean: without NUL
    and surrogates, and not longer than the column once their characters are folded.  For an
    obligation, a settlement or a recurring payment they do if and only if the text it was parsed
    from is without NUL and surrogates.  In every store, the inserts for a command and the
    corrections of its transaction fail because of a text if and only if one of these does not
    fit. -/
theorem accepted_fits_iff {U : Unicode} (hU : U.Lawful) :
    (∀ input command, parseCreateTransaction U input = .ok command →
      (Fits (command.texts U) ↔ Clean U 500 input.description ∧
        ∀ name, input.merchantName = some name → Clean U 160 name) ∧
      (∀ merchantId id userId g,
        Stores command.rowTexts (createTransaction merchantId id userId command) g) ∧
      CorrectionStores U command.description) ∧
    (∀ name parent command, parseCreateCategory U name parent = .ok command →
      (Fits command.texts ↔ Clean U 80 name) ∧
      ∀ id userId g, Stores command.texts (createCategory id userId command) g) ∧
    (∀ name command, parseCreatePerson U name = .ok command →
      (Fits command.texts ↔ Clean U 120 name) ∧
      ∀ id userId g, Stores command.texts (createPersonRow id userId command) g) ∧
    (∀ personId amount currency description issuedDate dueDate transactionId command,
      parseCreateObligation U personId amount currency description issuedDate dueDate
        transactionId = .ok command →
      (Fits command.texts ↔ description.all storableChar = true) ∧
      ∀ kind id userId asOf g,
        Stores command.texts (createObligationRow kind id userId command asOf) g) ∧
    (∀ amount currency settledAt transactionId note command,
      parseSettlement U amount currency settledAt transactionId note = .ok command →
      (Fits command.texts ↔ ∀ text, note = some text → text.all storableChar = true) ∧
      ∀ kind id userId obligationId applied g,
        Stores command.texts (addSettlement kind id userId obligationId command applied) g) ∧
    ∀ amount currency merchantName recurrenceRule nextExpectedDate command,
      parseCreateRecurringPayment U amount currency merchantName recurrenceRule
        nextExpectedDate = .ok command →
      (Fits (command.texts U) ↔ merchantName.all storableChar = true) ∧
      (∀ merchantId id userId g, Stores command.rowTexts
        (getOrCreateRecurringMerchant merchantId command >>= fun merchant =>
          createRecurringRow id userId merchant command) g) ∧
      (∀ payment transactionDate merchantId id userId g,
        Stores (recurringExpense payment command.merchantName transactionDate).rowTexts
          (createTransaction merchantId id userId
            (recurringExpense payment command.merchantName transactionDate)) g) ∧
      CorrectionStores U (py "Recurring payment: " ++ command.merchantName) := by
  refine ⟨fun input command h => ?_, fun name parent command h => ?_, fun name command h => ?_,
    fun personId amount currency description issuedDate dueDate transactionId command h => ?_,
    fun amount currency settledAt transactionId note command h => ?_,
    fun amount currency merchantName recurrenceRule nextExpectedDate command h => ?_⟩
  · exact ⟨transaction_fits_iff hU h, fun _ _ _ _ => createTransaction_stores command,
      correction_stores command.description⟩
  · exact ⟨category_fits_iff hU h, fun _ _ _ => createCategory_stores command⟩
  · exact ⟨person_fits_iff hU h, fun _ _ _ => createPersonRow_stores command⟩
  · exact ⟨obligation_fits_iff hU h, fun _ _ _ _ _ => createObligationRow_stores command⟩
  · exact ⟨settlement_fits_iff hU h, fun _ _ _ _ _ _ => addSettlement_stores command⟩
  · exact ⟨recurring_fits_iff hU h, fun _ _ _ _ => createRecurring_stores command,
      fun _ _ _ _ _ _ => createTransaction_stores _, correction_stores _⟩

/-! ### A name that grows -/

/-- Tables that fold `ß` to `ss` and leave every other character, as the standard ones do with
    the small letters from `a` to `z`. -/
def sharpTables : Unicode where
  nfkc := id
  casefold s := s.flatMap fun c => if c = 0xDF then py "ss" else [c]
  upper := id
  title := id
  digit := asciiDigit

theorem sharpTables_lawful : sharpTables.Lawful where
  nfkc_display _ := rfl
  nfkc_special _ _ _ := Iff.rfl
  casefold_flatMap s := by
    simp only [sharpTables, List.flatMap_cons, List.flatMap_nil, List.append_nil]
  casefold_ne_nil c := by
    simp only [sharpTables, List.flatMap_cons, List.flatMap_nil, List.append_nil]
    split
    · decide
    · exact List.cons_ne_nil _ _
  casefold_length c := by
    simp only [sharpTables, List.flatMap_cons, List.flatMap_nil, List.append_nil]
    split
    · decide
    · exact Nat.le_of_ble_eq_true rfl
  casefold_space := by decide
  casefold_nonspace c hc := by
    simp only [sharpTables, List.flatMap_cons, List.flatMap_nil, List.append_nil]
    split
    · decide
    · rw [List.mem_singleton]
      exact fun he => hc he.symm
  casefold_special c d hd := by
    simp only [sharpTables, List.flatMap_cons, List.flatMap_nil, List.append_nil]
    split
    · rename_i hc
      have hs : ∀ e ∈ py "ss", storableChar e = true := by
        rw [← List.all_eq_true]
        decide
      refine iff_of_false (fun hmem => ?_) fun he => ?_
      · rw [hs d hmem] at hd
        cases hd
      · rw [he, hc] at hd
        cases hd
    · exact List.mem_singleton

/-- A person named `straße` is stored under the key `strasse`: no text is why the insert
    fails. -/
theorem accepted_fits_iff_street :
    Clean sharpTables 120 (py "straße") ∧
      ¬ (createPersonRow 1 1 ⟨py "straße", py "strasse"⟩).FailsWith TextError (Db.empty 0) := by
  have hparsed : parseCreatePerson sharpTables (py "straße") = .ok ⟨py "straße", py "strasse"⟩ := by
    decide +kernel
  have hfits : Fits (⟨py "straße", py "strasse"⟩ : CreatePersonCommand).texts := by
    have hall : (⟨py "straße", py "strasse"⟩ : CreatePersonCommand).texts.all
        (fun t => t.1.holds t.2) = true := by decide +kernel
    exact List.all_eq_true.1 hall
  obtain ⟨hclean, hstores⟩ := (accepted_fits_iff sharpTables_lawful).2.2.1 _ _ hparsed
  exact ⟨hclean.1 hfits, (hstores 1 1 (Db.empty 0)).accepts hfits⟩

/-- A person named by 61 letters `ß` is accepted, but the lookup key of 122 letters does not fit
    its column, and the insert fails. -/
theorem accepted_name_outgrows : ∃ command : CreatePersonCommand,
    parseCreatePerson sharpTables (List.replicate 61 0xDF) = .ok command ∧ ¬ Fits command.texts ∧
      (createPersonRow 1 1 command).run (Db.empty 0) = .error (.data "people") := by
  refine ⟨⟨List.replicate 61 0xDF, List.replicate 122 0x73⟩, by decide +kernel, fun hfits => ?_, ?_⟩
  · have hkey := hfits (personColumn, List.replicate 122 0x73) (by
      rw [CreatePersonCommand.texts]
      exact List.mem_cons_of_mem _ List.mem_cons_self)
    have hlong : personColumn.holds (List.replicate 122 0x73) = false := by decide +kernel
    rw [hlong] at hkey
    cases hkey
  · have hlong : (fitsColumn 120 (List.replicate 61 0xDF) &&
        fitsColumn 120 (List.replicate 122 0x73)) = false := by decide +kernel
    rw [createPersonRow, Tx.run_bind, run_require, if_neg]
    rw [hlong]
    exact Bool.false_ne_true

end Expensea.Ledger
