import Expensea.Ledger.Service
import Mathlib.Data.Prod.Lex

namespace Expensea.Categorization

open Txn
open Txn.Tx (reads modify)

/-!
# What corrections are remembered for

Runs of the operations that write what `classify` reads: description rules, corrections and
manual transactions, one after another.

* `classification` — what `classify` answers, as a function of the database;
* `createRule_ensures`, `correct_ensures`, `createManualTransaction_ensures` — what one operation
  can change;
* `Consistent`, `consistent_step` — the constraints the tables keep;
* `Remembered`, `remembered_step` — a correction stays in force until it is overridden;
* `corrections_remembered` — the law over whole runs.
-/

/-! ### Classification as a function -/

/-- The verified category of a merchant by its lookup name. -/
def mappingOf (userId : Uuid) (merchantNormalizedName : Option PyStr) (g : Db) : Option Uuid :=
  ((merchantNormalizedName.filter (· ≠ [])).bind fun name => Ledger.merchantNamed name g).bind
    fun m => mappedCategory userId m.id g

/-- The newest correction of exactly this text. -/
def newestCorrection (userId : Uuid) (normalized : PyStr) (g : Db) : Option UserCorrection :=
  (correctionsInOrder userId g).find? fun c => c.normalizedDescription == normalized

/-- What `classify` answers. -/
def classification (U : Unicode) (userId : Uuid) (description : PyStr)
    (merchantNormalizedName : Option PyStr) (g : Db) : Option CategoryAssignment :=
  let normalized := U.casefold description
  match (rulesInOrder userId g).find? fun r => contains r.normalizedPattern normalized with
  | some r => some (certain r.categoryId .userRule)
  | none =>
    match mappingOf userId merchantNormalizedName g with
    | some categoryId => some (certain categoryId .merchantMap)
    | none =>
      match newestCorrection userId normalized g with
      | some c => some (certain c.correctedCategoryId .verifiedCorrection)
      | none => retrievalAssignment U normalized (((correctionsInOrder userId g).take 200).map
          fun c => (c.normalizedDescription, c.correctedCategoryId))

theorem run_namedMerchant (name : Option PyStr) (g : Db) : (namedMerchant name).run g =
    .ok ((name.filter (· ≠ [])).bind fun n => Ledger.merchantNamed n g, g) := by
  cases name with
  | none => rfl
  | some n =>
    by_cases hn : n = []
    · rw [namedMerchant, if_pos hn, hn]
      rfl
    · rw [namedMerchant, if_neg hn, Option.filter_some, if_pos (by simpa using hn)]
      rfl

theorem run_merchantMapping (userId : Uuid) (m : Option Merchant) (g : Db) :
    (merchantMapping userId m).run g = .ok (m.bind fun m => mappedCategory userId m.id g, g) := by
  cases m with
  | none => rfl
  | some m => rfl

/-- `classify` answers and changes nothing. -/
theorem run_classify (U : Unicode) (userId : Uuid) (description : PyStr) (name : Option PyStr)
    (g : Db) : (classify U userId description name).run g =
      .ok (classification U userId description name g, g) := by
  unfold classify classification
  simp only [Tx.run_bind, Tx.run_reads]
  cases (rulesInOrder userId g).find? fun r =>
      contains r.normalizedPattern (U.casefold description) with
  | some r => rfl
  | none =>
    simp only [Tx.run_bind, run_namedMerchant, run_merchantMapping]
    show (match mappingOf userId name g with
      | some categoryId => pure (some (certain categoryId .merchantMap))
      | none => classifyByCorrections U userId (U.casefold description) : DbTx _).run g = _
    cases mappingOf userId name g with
    | some categoryId => rfl
    | none =>
      simp only [classifyByCorrections, Tx.run_bind, Tx.run_reads]
      unfold newestCorrection
      cases (correctionsInOrder userId g).find? fun c =>
          c.normalizedDescription == U.casefold description with
      | some c => rfl
      | none => rfl

/-- What a classification depends on. -/
theorem classification_congr {U : Unicode} {userId : Uuid} {description : PyStr}
    {name : Option PyStr} {g g' : Db} (hrules : rulesInOrder userId g' = rulesInOrder userId g)
    (hmapping : mappingOf userId name g' = mappingOf userId name g)
    (hcorrections : correctionsInOrder userId g' = correctionsInOrder userId g) :
    classification U userId description name g' = classification U userId description name g := by
  unfold classification newestCorrection
  rw [hrules, hmapping, hcorrections]

/-! ### What one operation can change -/

section Operations

variable {U : Unicode} {g : Db}

/-- A rule is one new row of its owner. -/
theorem createRule_ensures {id userId categoryId : Uuid} {pattern : PyStr} {priority : ℤ} :
    (createRule U id userId pattern categoryId priority).Ensures g fun _ g' =>
      ∃ rule : CategoryRule, rule.userId = userId ∧
        g' = { g with categoryRules := g.categoryRules ++ [rule] } := by
  unfold createRule createRuleRow Ledger.categoryIsVisible
  simp only [Tx.ensures_bind, ensures_require, Tx.ensures_reads, Tx.ensures_acquire,
    ensures_insertChecked, Tx.ensures_pure]
  intro _ _ _ _
  exact ⟨_, rfl, rfl⟩

/-- The merchants that an upsert adds: none, or one with a new identifier and a new name. -/
def NewMerchants (g : Db) (merchants : List Merchant) : Prop :=
  merchants = [] ∨ ∃ m : Merchant, merchants = [m] ∧ m.normalizedName ≠ [] ∧
    ∀ m' ∈ g.merchants, m'.id ≠ m.id ∧ m'.normalizedName ≠ m.normalizedName

/-- The merchant upsert returns a merchant that is there. -/
theorem getOrCreateMerchant_adds {merchantId : Uuid} {merchant : Option (PyStr × PyStr)} :
    (Ledger.getOrCreateMerchant merchantId merchant).Ensures g fun found g' =>
      ∃ merchants, NewMerchants g merchants ∧
        (∀ id, found = some id → ∃ m ∈ g.merchants ++ merchants, m.id = id) ∧
        g' = { g with merchants := g.merchants ++ merchants } := by
  cases merchant with
  | none =>
    refine Tx.ensures_pure.2 ⟨[], .inl rfl, ?_, ?_⟩
    · intro id hid
      cases hid
    · rw [List.append_nil]
  | some names =>
    simp only [Ledger.getOrCreateMerchant, Tx.ensures_bind, ensures_require, Tx.ensures_acquire,
      Tx.ensures_reads]
    intro _ _ hblank
    cases hnamed : Ledger.merchantNamed names.2 g with
    | some m =>
      refine Tx.ensures_pure.2 ⟨[], .inl rfl, ?_, ?_⟩
      · intro id hid
        rw [List.append_nil]
        exact ⟨m, List.mem_of_find?_eq_some hnamed, Option.some.inj hid⟩
      · rw [List.append_nil]
    | none =>
      simp only [Tx.ensures_bind, ensures_insertChecked, Tx.ensures_pure]
      intro hfresh
      have hnew : ∀ m' ∈ g.merchants, m'.id ≠ merchantId ∧ m'.normalizedName ≠ names.2 := by
        intro m' hm'
        constructor
        · intro hid
          rw [if_pos (List.any_eq_true.2 ⟨m', hm', by simp [hid]⟩)] at hfresh
          cases hfresh
        · intro hname
          have hnot := List.find?_eq_none.1 hnamed m' hm'
          exact hnot (by simp [hname])
      have hname : names.2 ≠ [] := by
        intro hempty
        rw [hempty] at hblank
        exact absurd hblank (by decide)
      refine ⟨[⟨merchantId, names.2, names.1⟩], .inr ⟨_, rfl, hname, hnew⟩, ?_, rfl⟩
      intro id hid
      exact ⟨⟨merchantId, names.2, names.1⟩, by simp, Option.some.inj hid⟩

/-- A created transaction is one new row, whose merchant is there. -/
theorem createTransaction_adds {merchantId transactionId userId : Uuid}
    {command : Ledger.CreateTransactionCommand} :
    (Ledger.createTransaction merchantId transactionId userId command).Ensures g fun _ g' =>
      ∃ merchants row, NewMerchants g merchants ∧
        (∀ id, row.merchantId = some id → ∃ m ∈ g.merchants ++ merchants, m.id = id) ∧
        g' = { g with
          merchants := g.merchants ++ merchants
          transactions := g.transactions ++ [row] } := by
  rw [Ledger.createTransaction]
  refine getOrCreateMerchant_adds.bind fun merchant g₁ hg₁ => ?_
  obtain ⟨merchants, hnew, hthere, rfl⟩ := hg₁
  simp only [Tx.ensures_bind, ensures_ofExcept, Ledger.insertTransaction, ensures_insertChecked,
    Tx.ensures_reads]
  intro row hrow _
  obtain ⟨-, amount, categoryConfidence, confidence, -, rfl⟩ := Ledger.transactionRow_inv hrow
  exact ⟨merchants, _, hnew, hthere, rfl⟩

theorem createManualTransaction_ensures {merchantId transactionId userId : Uuid}
    {command : Ledger.CreateTransactionCommand} :
    (Ledger.createManualTransaction U merchantId transactionId userId command).Ensures g
      fun _ g' => ∃ merchants row, NewMerchants g merchants ∧
        (∀ id, row.merchantId = some id → ∃ m ∈ g.merchants ++ merchants, m.id = id) ∧
        g' = { g with
          merchants := g.merchants ++ merchants
          transactions := g.transactions ++ [row] } := by
  unfold Ledger.createManualTransaction Ledger.userExists
  simp only [Tx.ensures_bind, Tx.ensures_reads, ensures_require]
  intro _
  cases command.categoryId with
  | some categoryId =>
    simp only [Ledger.categoryIsVisible, Tx.ensures_bind, Tx.ensures_reads, ensures_require]
    exact fun _ => createTransaction_adds
  | none =>
    refine classify_readOnly.ensures_bind fun assignment => ?_
    cases assignment with
    | some assignment => exact createTransaction_adds
    | none => exact createTransaction_adds

/-- An upsert of a mapping changes the mappings only. -/
theorem mapMerchant_eq (mapId userId merchantId categoryId : Uuid) (g : Db) :
    ∃ maps, mapMerchant mapId userId merchantId categoryId g =
      { g with merchantCategoryMaps := maps } ∧
      ∀ r ∈ maps, r.merchantId = merchantId ∨
        ∃ r' ∈ g.merchantCategoryMaps, r'.merchantId = r.merchantId := by
  unfold mapMerchant
  dsimp only
  by_cases hany : (g.merchantCategoryMaps.any fun m =>
      m.userId == userId && m.merchantId == merchantId) = true
  · rw [if_pos hany]
    refine ⟨_, rfl, fun r hr => ?_⟩
    obtain ⟨r', hr', rfl⟩ := List.mem_map.1 hr
    refine .inr ⟨r', hr', ?_⟩
    split_ifs <;> rfl
  · rw [if_neg hany]
    refine ⟨_, rfl, fun r hr => ?_⟩
    rcases List.mem_append.1 hr with hr | hr
    · exact .inr ⟨r, hr, rfl⟩
    · rw [List.mem_singleton.1 hr]
      exact .inl rfl

/-- The mapping of the merchant is the one just written. -/
theorem mappedCategory_mapMerchant (mapId userId merchantId categoryId : Uuid) (g : Db) :
    mappedCategory userId merchantId (mapMerchant mapId userId merchantId categoryId g) =
      some categoryId := by
  unfold mapMerchant mappedCategory
  dsimp only
  by_cases hany : (g.merchantCategoryMaps.any fun m =>
      m.userId == userId && m.merchantId == merchantId) = true
  · rw [if_pos hany]
    obtain ⟨row, hrow, hsame⟩ := List.any_eq_true.1 hany
    dsimp only
    generalize hmaps : (g.merchantCategoryMaps.map fun m =>
      if (m.userId == userId && m.merchantId == merchantId) = true then
        { m with categoryId := categoryId, verified := true } else m) = maps
    cases hfind : maps.find? fun m =>
        m.userId == userId && m.merchantId == merchantId && m.verified with
    | none =>
      -- the updated row is there
      have hmem : { row with categoryId := categoryId, verified := true } ∈ maps := by
        rw [← hmaps]
        exact List.mem_map.2 ⟨row, hrow, if_pos hsame⟩
      have hnot := List.find?_eq_none.1 hfind _ hmem
      rw [Bool.and_eq_true] at hsame
      exact absurd (by simp [hsame.1, hsame.2]) hnot
    | some found =>
      have hmem := List.mem_of_find?_eq_some hfind
      have hfound := List.find?_some hfind
      rw [← hmaps] at hmem
      obtain ⟨r, -, rfl⟩ := List.mem_map.1 hmem
      by_cases hr : (r.userId == userId && r.merchantId == merchantId) = true
      · rw [if_pos hr]
        rfl
      · rw [if_neg hr] at hfound
        rw [Bool.and_eq_true] at hfound
        exact absurd hfound.1 hr
  · rw [if_neg hany]
    have hnone : (g.merchantCategoryMaps.find? fun m =>
        m.userId == userId && m.merchantId == merchantId && m.verified) = none := by
      rw [List.find?_eq_none]
      intro m hm hp
      rw [Bool.and_eq_true] at hp
      exact hany (List.any_eq_true.2 ⟨m, hm, hp.1⟩)
    dsimp only
    rw [List.find?_append, hnone]
    simp

/-- Other mappings are as they were. -/
theorem mappedCategory_mapMerchant_of_ne {mapId userId merchantId categoryId : Uuid} {g : Db}
    {owner merchant : Uuid} (hne : ¬ (owner = userId ∧ merchant = merchantId)) :
    mappedCategory owner merchant (mapMerchant mapId userId merchantId categoryId g) =
      mappedCategory owner merchant g := by
  have hdiffers : ∀ m : MerchantCategoryMap,
      (m.userId == owner && m.merchantId == merchant && m.verified) = true →
      ¬ (m.userId == userId && m.merchantId == merchantId) = true := by
    intro m hm hsame
    simp only [Bool.and_eq_true, beq_iff_eq] at hm hsame
    exact hne ⟨hm.1.1.symm.trans hsame.1, hm.1.2.symm.trans hsame.2⟩
  unfold mapMerchant mappedCategory
  dsimp only
  by_cases hany : (g.merchantCategoryMaps.any fun m =>
      m.userId == userId && m.merchantId == merchantId) = true
  · rw [if_pos hany]
    dsimp only
    generalize g.merchantCategoryMaps = maps
    clear hany
    induction maps with
    | nil => rfl
    | cons m maps ih =>
      rw [List.map_cons, List.find?_cons, List.find?_cons]
      by_cases hsame : (m.userId == userId && m.merchantId == merchantId) = true
      · -- a row of the updated mapping is not looked for, before or after
        have hnot : (m.userId == owner && m.merchantId == merchant) = false := by
          rw [Bool.and_eq_true, beq_iff_eq, beq_iff_eq] at hsame
          rw [Bool.and_eq_false_iff, beq_eq_false_iff_ne, beq_eq_false_iff_ne, hsame.1, hsame.2]
          by_cases howner : userId = owner
          · exact .inr fun hmerchant => hne ⟨howner.symm, hmerchant.symm⟩
          · exact .inl howner
        rw [if_pos hsame]
        dsimp only
        rw [hnot, Bool.false_and, Bool.false_and]
        exact ih
      · rw [if_neg hsame]
        cases (m.userId == owner && m.merchantId == merchant && m.verified) with
        | true => rfl
        | false => exact ih
  · rw [if_neg hany]
    dsimp only
    rw [List.find?_append]
    cases hfind : g.merchantCategoryMaps.find? fun m =>
        m.userId == owner && m.merchantId == merchant && m.verified with
    | some m => rfl
    | none =>
      rw [Option.none_or, List.find?_singleton, if_neg]
      intro hnew
      exact hdiffers _ hnew (by simp)

/-- What a correction records of a transaction. -/
structure CorrectionOf (U : Unicode) (userId categoryId : Uuid) (t : LedgerTransaction)
    (now : Instant) (row : UserCorrection) : Prop where
  userId : row.userId = userId
  corrected : row.correctedCategoryId = categoryId
  description : row.normalizedDescription = U.casefold t.description
  createdAt : row.createdAt = now

/-- The mappings after a correction of a transaction. -/
def mapsAfter (mapId userId categoryId : Uuid) (merchantId : Option Uuid) (g : Db) :
    List MerchantCategoryMap :=
  match merchantId with
  | none => g.merchantCategoryMaps
  | some merchantId => (mapMerchant mapId userId merchantId categoryId g).merchantCategoryMaps

/-- A correction updates the transaction, its merchant's mapping and the corrections. -/
theorem correct_ensures {correctionId mapId userId transactionId categoryId : Uuid} :
    (correct U correctionId mapId userId transactionId categoryId).Ensures g fun _ g' =>
      ∃ t row, (g.transactions.find? fun t => t.userId == userId && t.id == transactionId) =
          some t ∧
        CorrectionOf U userId categoryId t g.clock row ∧
        g' = { g with
          transactions := Table.set LedgerTransaction.id t.id (corrected categoryId)
            g.transactions
          merchantCategoryMaps := mapsAfter mapId userId categoryId t.merchantId g
          userCorrections := g.userCorrections ++ [row] } := by
  unfold correct correctRow Ledger.categoryIsVisible
  simp only [Tx.ensures_bind, Tx.ensures_reads, ensures_require, ensures_selectForUpdate]
  intro _
  cases ht : g.transactions.find? fun t => t.userId == userId && t.id == transactionId with
  | none =>
    rw [Tx.ensures_pure, ensures_requireSome]
    intro a ha
    cases ha
  | some t =>
    simp only [Tx.ensures_bind, Tx.ensures_modify, Tx.ensures_reads, ensures_require,
      ensures_insertChecked, Tx.ensures_pure, ensures_requireSome]
    intro _ _ _ _ _ _
    let row : UserCorrection := {
      id := correctionId
      userId := userId
      transactionId := t.id
      previousCategoryId := t.categoryId
      correctedCategoryId := categoryId
      merchantId := t.merchantId
      normalizedDescription := U.casefold t.description
      classifierVersion := CLASSIFIER_VERSION
      confidence := .one
      createdAt := g.clock }
    refine ⟨t, row, rfl, ⟨rfl, rfl, rfl, rfl⟩, ?_⟩
    unfold mapsAfter
    cases hmerchant : t.merchantId with
    | none => simp only [row, hmerchant]
    | some merchantId =>
      obtain ⟨maps, hmaps, -⟩ := mapMerchant_eq mapId userId merchantId categoryId g
      simp only [row, hmerchant, hmaps]

/-- Mappings of other owners and of other merchants are as they were. -/
theorem mappedCategory_of_mapsAfter {mapId userId categoryId : Uuid} {merchantId : Option Uuid}
    {owner merchant : Uuid} {g' : Db}
    (hmaps : g'.merchantCategoryMaps = mapsAfter mapId userId categoryId merchantId g)
    (hne : ¬ (owner = userId ∧ merchantId = some merchant)) :
    mappedCategory owner merchant g' = mappedCategory owner merchant g := by
  unfold mapsAfter at hmaps
  cases merchantId with
  | none =>
    unfold mappedCategory
    rw [hmaps]
  | some merchantId =>
    have hother : ¬ (owner = userId ∧ merchant = merchantId) := by
      intro hboth
      exact hne ⟨hboth.1, by rw [hboth.2]⟩
    have hkept : mappedCategory owner merchant (mapMerchant mapId userId merchantId categoryId g) =
        mappedCategory owner merchant g := mappedCategory_mapMerchant_of_ne hother
    rw [← hkept]
    unfold mappedCategory
    rw [hmaps]

end Operations

/-! ### Runs -/

/-- An operation of an owner, with the identifiers it draws. -/
inductive Operation where
  | createRule (id userId : Uuid) (pattern : PyStr) (categoryId : Uuid) (priority : ℤ)
  | correct (correctionId mapId userId transactionId categoryId : Uuid)
  | createTransaction (merchantId transactionId userId : Uuid)
      (command : Ledger.CreateTransactionCommand)

/-- Whose operation it is. -/
def Operation.owner : Operation → Uuid
  | .createRule _ userId _ _ _ => userId
  | .correct _ _ userId _ _ => userId
  | .createTransaction _ _ userId _ => userId

/-- The transaction of an operation. -/
def Operation.program (U : Unicode) : Operation → DbTx Unit
  | .createRule id userId pattern categoryId priority =>
    (fun _ => ()) <$> Categorization.createRule U id userId pattern categoryId priority
  | .correct correctionId mapId userId transactionId categoryId =>
    (fun _ => ()) <$> Categorization.correct U correctionId mapId userId transactionId categoryId
  | .createTransaction merchantId transactionId userId command =>
    (fun _ => ()) <$> Ledger.createManualTransaction U merchantId transactionId userId command

/-- An operation and its time. -/
structure Timed where
  time : Instant
  operation : Operation

namespace Timed

/-- The database when the transaction of an operation starts. -/
def starts (o : Timed) (g : Db) : Db := { g with clock := o.time }

/-- The operation is committed. -/
def Commits (U : Unicode) (o : Timed) (g : Db) : Prop :=
  (o.operation.program U).commits (o.starts g) = true

/-- The database after an operation. -/
def step (U : Unicode) (g : Db) (o : Timed) : Db := (o.operation.program U).after (o.starts g)

end Timed

/-- The database after operations one after another. -/
def run (U : Unicode) (g : Db) (os : List Timed) : Db := os.foldl (Timed.step U) g

/-- The times of operations increase, from that of the database on. -/
def Increasing (g : Db) (os : List Timed) : Prop :=
  (g.clock :: os.map Timed.time).Pairwise (· < ·)

/-- What an operation can leave behind. -/
inductive Changes (U : Unicode) (g : Db) (o : Timed) : Db → Prop where
  | nothing : Changes U g o (o.starts g)
  | rule (rule : CategoryRule) (howner : rule.userId = o.operation.owner) :
      Changes U g o { o.starts g with categoryRules := g.categoryRules ++ [rule] }
  | transaction (merchants : List Merchant) (row : LedgerTransaction)
      (hnew : NewMerchants g merchants)
      (hthere : ∀ id, row.merchantId = some id → ∃ m ∈ g.merchants ++ merchants, m.id = id) :
      Changes U g o { o.starts g with
        merchants := g.merchants ++ merchants
        transactions := g.transactions ++ [row] }
  | correction (correctionId mapId transactionId categoryId : Uuid) (t : LedgerTransaction)
      (row : UserCorrection)
      (hoperation : o.operation =
        .correct correctionId mapId o.operation.owner transactionId categoryId)
      (hcommits : o.Commits U g)
      (hfound : (g.transactions.find? fun t =>
        t.userId == o.operation.owner && t.id == transactionId) = some t)
      (hrow : CorrectionOf U o.operation.owner categoryId t o.time row) :
      Changes U g o { o.starts g with
        transactions := Table.set LedgerTransaction.id t.id (corrected categoryId) g.transactions
        merchantCategoryMaps :=
          mapsAfter mapId o.operation.owner categoryId t.merchantId (o.starts g)
        userCorrections := g.userCorrections ++ [row] }

/-- A program whose result is dropped. -/
theorem run_drop_ok {α : Type} {x : DbTx α} {g g' : Db} {u : Unit}
    (h : ((fun _ => ()) <$> x).run g = .ok (u, g')) : ∃ a, x.run g = .ok (a, g') := by
  rw [Tx.run_map] at h
  cases hx : x.run g with
  | error e =>
    rw [hx] at h
    cases h
  | ok r =>
    obtain ⟨a, g₁⟩ := r
    rw [hx] at h
    obtain ⟨-, rfl⟩ := Prod.mk.inj (Except.ok.inj h)
    exact ⟨a, rfl⟩

theorem changes_step (U : Unicode) (g : Db) (o : Timed) : Changes U g o (o.step U g) := by
  unfold Timed.step
  cases hrun : (o.operation.program U).run (o.starts g) with
  | error e =>
    rw [Tx.after_of_error hrun]
    exact .nothing
  | ok r =>
    obtain ⟨u, g'⟩ := r
    rw [Tx.after_of_ok hrun]
    have hcommits : o.Commits U g := by
      unfold Timed.Commits Tx.commits
      rw [hrun]
    obtain ⟨time, operation⟩ := o
    cases operation with
    | createRule id userId pattern categoryId priority =>
      obtain ⟨a, ha⟩ := run_drop_ok hrun
      obtain ⟨rule, howner, rfl⟩ := createRule_ensures a g' ha
      exact .rule rule howner
    | correct correctionId mapId userId transactionId categoryId =>
      obtain ⟨a, ha⟩ := run_drop_ok hrun
      obtain ⟨t, row, hfound, hrow, rfl⟩ := correct_ensures a g' ha
      exact .correction correctionId mapId transactionId categoryId t row rfl hcommits hfound hrow
    | createTransaction merchantId transactionId userId command =>
      obtain ⟨a, ha⟩ := run_drop_ok hrun
      obtain ⟨merchants, row, hnew, hthere, rfl⟩ := createManualTransaction_ensures a g' ha
      exact .transaction merchants row hnew hthere

/-! ### Constraints -/

/-- The constraints of the tables that classification rests on: lookup names are unique and not
    blank, references to merchants lead to one, and no correction is from the future. -/
structure Consistent (g : Db) : Prop where
  names : g.merchants.Pairwise fun a b => a.normalizedName ≠ b.normalizedName
  named : ∀ m ∈ g.merchants, m.normalizedName ≠ []
  mapped : ∀ r ∈ g.merchantCategoryMaps, ∃ m ∈ g.merchants, m.id = r.merchantId
  spent : ∀ t ∈ g.transactions, ∀ id, t.merchantId = some id → ∃ m ∈ g.merchants, m.id = id
  past : ∀ c ∈ g.userCorrections, c.createdAt ≤ g.clock

theorem clock_step (U : Unicode) (g : Db) (o : Timed) : (o.step U g).clock = o.time := by
  have hchanges := changes_step U g o
  generalize o.step U g = g' at hchanges ⊢
  cases hchanges with
  | nothing => rfl
  | rule => rfl
  | transaction => rfl
  | correction => rfl

/-- An operation keeps the constraints. -/
theorem consistent_step {U : Unicode} {g : Db} {o : Timed} (hg : Consistent g)
    (htime : g.clock < o.time) : Consistent (o.step U g) := by
  have hpast : ∀ c ∈ g.userCorrections, c.createdAt ≤ o.time := by
    intro c hc
    exact Int.le_of_lt (Int.lt_of_le_of_lt (hg.past c hc) htime)
  have hchanges := changes_step U g o
  generalize o.step U g = g' at hchanges ⊢
  cases hchanges with
  | nothing => exact ⟨hg.names, hg.named, hg.mapped, hg.spent, hpast⟩
  | rule rule howner => exact ⟨hg.names, hg.named, hg.mapped, hg.spent, hpast⟩
  | transaction merchants row hnew hthere =>
    have hkept : ∀ id, (∃ m ∈ g.merchants, m.id = id) → ∃ m ∈ g.merchants ++ merchants, m.id = id :=
      fun id ⟨m, hm, hid⟩ => ⟨m, List.mem_append_left _ hm, hid⟩
    refine ⟨?_, ?_, fun r hr => hkept _ (hg.mapped r hr), ?_, hpast⟩
    · rcases hnew with rfl | ⟨m, rfl, -, hfresh⟩
      · rw [List.append_nil]
        exact hg.names
      · refine List.pairwise_append.2 ⟨hg.names, List.pairwise_singleton _ _, ?_⟩
        intro a ha b hb
        rw [List.mem_singleton.1 hb]
        exact (hfresh a ha).2
    · intro m hm
      rcases List.mem_append.1 hm with hm | hm
      · exact hg.named m hm
      · rcases hnew with rfl | ⟨m', rfl, hname, -⟩
        · cases hm
        · rw [List.mem_singleton.1 hm]
          exact hname
    · intro t ht id hid
      rcases List.mem_append.1 ht with ht | ht
      · exact hkept id (hg.spent t ht id hid)
      · rw [List.mem_singleton.1 ht] at hid
        exact hthere id hid
  | correction correctionId mapId transactionId categoryId t row hoperation hcommits hfound hrow =>
    refine ⟨hg.names, hg.named, ?_, ?_, ?_⟩
    · intro r hr
      show ∃ m ∈ g.merchants, m.id = r.merchantId
      change r ∈ mapsAfter mapId o.operation.owner categoryId t.merchantId (o.starts g) at hr
      cases hmerchant : t.merchantId with
      | none =>
        rw [hmerchant] at hr
        exact hg.mapped r hr
      | some merchantId =>
        rw [hmerchant] at hr
        obtain ⟨maps, hmaps, hids⟩ :=
          mapMerchant_eq mapId o.operation.owner merchantId categoryId (o.starts g)
        change r ∈ (mapMerchant mapId o.operation.owner merchantId categoryId
          (o.starts g)).merchantCategoryMaps at hr
        rw [hmaps] at hr
        rcases hids r hr with hid | ⟨r', hr', hid⟩
        · rw [hid]
          exact hg.spent t (List.mem_of_find?_eq_some hfound) merchantId hmerchant
        · rw [← hid]
          exact hg.mapped r' hr'
    · intro t' ht' id hid
      obtain ⟨t₀, ht₀, rfl⟩ := Table.mem_set.1 ht'
      have hmerchant : t₀.merchantId = some id := by
        rw [← hid]
        split_ifs <;> rfl
      exact hg.spent t₀ ht₀ id hmerchant
    · intro c hc
      rcases List.mem_append.1 hc with hc | hc
      · exact hpast c hc
      · rw [List.mem_singleton.1 hc, hrow.createdAt]
        exact Int.le_refl _

/-! ### One correction -/

/-- The newest correction of a text by its owner chose this category. -/
def Newest (userId : Uuid) (normalized : PyStr) (categoryId : Uuid)
    (corrections : List UserCorrection) : Prop :=
  ∃ r ∈ corrections, r.userId = userId ∧ r.normalizedDescription = normalized ∧
    r.correctedCategoryId = categoryId ∧
    ∀ r' ∈ corrections, r'.userId = userId → r'.normalizedDescription = normalized →
      r' = r ∨ r'.createdAt < r.createdAt

/-- A correction is in force: by the mapping of the merchant, or without one by its text. -/
def Remembered (userId categoryId : Uuid) (merchantId : Option Uuid) (normalized : PyStr)
    (g : Db) : Prop :=
  match merchantId with
  | some merchantId => mappedCategory userId merchantId g = some categoryId
  | none => Newest userId normalized categoryId g.userCorrections

/-- A new correction is the newest one of its text. -/
theorem newest_append {U : Unicode} {userId categoryId : Uuid} {t : LedgerTransaction}
    {now : Instant} {row : UserCorrection} {corrections : List UserCorrection}
    (hrow : CorrectionOf U userId categoryId t now row)
    (hpast : ∀ c ∈ corrections, c.createdAt < now) :
    Newest userId (U.casefold t.description) categoryId (corrections ++ [row]) := by
  refine ⟨row, by simp, hrow.userId, hrow.description, hrow.corrected, fun r' hr' _ _ => ?_⟩
  rcases List.mem_append.1 hr' with hr' | hr'
  · rw [hrow.createdAt]
    exact .inr (hpast r' hr')
  · exact .inl (List.mem_singleton.1 hr')

/-- The correction of another text or of another owner does not replace it. -/
theorem Newest.append {userId categoryId : Uuid} {normalized : PyStr}
    {corrections : List UserCorrection} (h : Newest userId normalized categoryId corrections)
    {row : UserCorrection}
    (hother : ¬ (row.userId = userId ∧ row.normalizedDescription = normalized)) :
    Newest userId normalized categoryId (corrections ++ [row]) := by
  obtain ⟨r, hr, huser, htext, hcategory, hnewest⟩ := h
  refine ⟨r, List.mem_append_left _ hr, huser, htext, hcategory, fun r' hr' huser' htext' => ?_⟩
  rcases List.mem_append.1 hr' with hr' | hr'
  · exact hnewest r' hr' huser' htext'
  · rw [List.mem_singleton.1 hr'] at huser' htext'
    exact absurd ⟨huser', htext'⟩ hother

/-- A committed correction is in force. -/
theorem remembered_correct {U : Unicode} {g : Db} {time : Instant}
    {correctionId mapId userId transactionId categoryId : Uuid} {t : LedgerTransaction}
    (hg : Consistent g) (htime : g.clock < time)
    (hfound : (g.transactions.find? fun t => t.userId == userId && t.id == transactionId) = some t)
    (hcommits : (Timed.mk time
      (.correct correctionId mapId userId transactionId categoryId)).Commits U g) :
    Remembered userId categoryId t.merchantId (U.casefold t.description)
      ((Timed.mk time (.correct correctionId mapId userId transactionId categoryId)).step U g) := by
  obtain ⟨u, hrun⟩ := Tx.run_of_commits hcommits
  obtain ⟨a, ha⟩ := run_drop_ok hrun
  obtain ⟨t', row, hfound', hrow, hafter⟩ := correct_ensures _ _ ha
  obtain rfl : t = t' := Option.some.inj (hfound.symm.trans hfound')
  unfold Timed.step
  rw [hafter]
  unfold Remembered
  cases hmerchant : t.merchantId with
  | some merchantId => exact mappedCategory_mapMerchant _ _ _ _ _
  | none =>
    exact newest_append hrow fun c hc => Int.lt_of_le_of_lt (hg.past c hc) htime

section Memory

variable (U : Unicode) (same : PyStr → PyStr → Prop) (t : LedgerTransaction)

/-- A later correction by the owner of a transaction: of one with its merchant, or with the same
    description. -/
def Overrides (g : Db) (o : Timed) : Prop :=
  ∃ correctionId mapId transactionId categoryId t',
    o.operation = .correct correctionId mapId t.userId transactionId categoryId ∧
    o.Commits U g ∧
    (g.transactions.find? fun t' => t'.userId == t.userId && t'.id == transactionId) = some t' ∧
    (t.merchantId ≠ none ∧ t'.merchantId = t.merchantId ∨ same t'.description t.description)

/-- No operation of a run is such a correction. -/
def Undisturbed : Db → List Timed → Prop
  | _, [] => True
  | g, o :: os => ¬ Overrides U same t g o ∧ Undisturbed (o.step U g) os

end Memory

/-- Texts that are the same up to case. -/
def SameFolded (U : Unicode) (a b : PyStr) : Prop := U.casefold a = U.casefold b

/-- A correction stays in force until it is overridden. -/
theorem remembered_step {U : Unicode} {g : Db} {o : Timed} {t : LedgerTransaction}
    {categoryId : Uuid} (hother : ¬ Overrides U (SameFolded U) t g o)
    (h : Remembered t.userId categoryId t.merchantId (U.casefold t.description) g) :
    Remembered t.userId categoryId t.merchantId (U.casefold t.description) (o.step U g) := by
  have hchanges := changes_step U g o
  generalize o.step U g = g' at hchanges ⊢
  cases hchanges with
  | nothing => exact h
  | rule rule howner => exact h
  | transaction merchants row hnew hthere => exact h
  | correction correctionId mapId transactionId categoryId' t' row hoperation hcommits hfound
      hrow =>
    have hkept : o.operation.owner = t.userId →
        ¬ (t.merchantId ≠ none ∧ t'.merchantId = t.merchantId ∨
          SameFolded U t'.description t.description) := by
      intro howner hsame
      rw [howner] at hoperation hfound
      exact hother ⟨correctionId, mapId, transactionId, categoryId', t', hoperation, hcommits,
        hfound, hsame⟩
    unfold Remembered at h ⊢
    cases hmerchant : t.merchantId with
    | some merchantId =>
      rw [hmerchant] at h hkept
      dsimp only at h ⊢
      have hbefore : mappedCategory t.userId merchantId (o.starts g) = some categoryId := h
      refine (mappedCategory_of_mapsAfter (g := o.starts g) rfl ?_).trans hbefore
      rintro ⟨howner, hsame⟩
      exact hkept howner.symm (.inl ⟨Option.some_ne_none _, hsame⟩)
    | none =>
      rw [hmerchant] at h
      dsimp only at h ⊢
      refine h.append ?_
      rintro ⟨huser, htext⟩
      rw [hrow.userId] at huser
      rw [hrow.description] at htext
      exact hkept huser (.inr htext)

/-! ### What is looked up -/

/-- The order of corrections is that of their times and identifiers, the greatest first. -/
theorem correctionBefore_iff (a b : UserCorrection) : correctionBefore a b = true ↔
    toLex (b.createdAt, b.id) ≤ toLex (a.createdAt, a.id) := by
  rw [Prod.Lex.toLex_le_toLex]
  simp only [correctionBefore, Bool.or_eq_true, decide_eq_true_eq, Bool.and_eq_true, beq_iff_eq]
  rw [eq_comm]

theorem correctionsInOrder_pairwise (userId : Uuid) (g : Db) :
    (correctionsInOrder userId g).Pairwise fun a b => b.createdAt ≤ a.createdAt := by
  have htotal : Std.Total fun a b : UserCorrection => correctionBefore a b = true := by
    refine ⟨fun a b => ?_⟩
    rw [correctionBefore_iff, correctionBefore_iff]
    exact le_total _ _
  have htrans : IsTrans UserCorrection fun a b => correctionBefore a b = true := by
    refine ⟨fun a b c hab hbc => ?_⟩
    rw [correctionBefore_iff] at hab hbc ⊢
    exact hbc.trans hab
  have hsorted := List.pairwise_insertionSort
    (fun a b : UserCorrection => correctionBefore a b = true)
    (g.userCorrections.filter fun c => c.userId == userId)
  refine hsorted.imp fun {a b} hab => ?_
  rw [correctionBefore_iff, Prod.Lex.toLex_le_toLex] at hab
  rcases hab with hlt | ⟨heq, -⟩
  · exact le_of_lt hlt
  · exact le_of_eq heq

/-- The newest correction of a text is found. -/
theorem newestCorrection_of_newest {userId categoryId : Uuid} {normalized : PyStr} {g : Db}
    (h : Newest userId normalized categoryId g.userCorrections) :
    ∃ r, newestCorrection userId normalized g = some r ∧ r.correctedCategoryId = categoryId := by
  obtain ⟨r, hr, huser, htext, hcategory, hnewest⟩ := h
  have hmem : r ∈ correctionsInOrder userId g := by
    unfold correctionsInOrder
    rw [List.mem_insertionSort, List.mem_filter]
    exact ⟨hr, by simpa using huser⟩
  have hsorted := correctionsInOrder_pairwise userId g
  unfold newestCorrection
  cases hfind : (correctionsInOrder userId g).find? fun c =>
      c.normalizedDescription == normalized with
  | none =>
    have hnot := List.find?_eq_none.1 hfind r hmem
    exact absurd (by simpa using htext) hnot
  | some x =>
    obtain ⟨hx, before, behind, hlist, hskipped⟩ := List.find?_eq_some_iff_append.1 hfind
    have hxmem : x ∈ correctionsInOrder userId g := List.mem_of_find?_eq_some hfind
    unfold correctionsInOrder at hxmem
    rw [List.mem_insertionSort, List.mem_filter, beq_iff_eq] at hxmem
    have hcases := hnewest x hxmem.1 hxmem.2 (by simpa using hx)
    have heq : x = r := by
      rcases hcases with heq | hlt
      · exact heq
      · -- an older one would stand behind the newest
        rw [hlist] at hmem hsorted
        rcases List.mem_append.1 hmem with hbefore | hbehind
        · exact absurd htext (by simpa using hskipped r hbefore)
        · rcases List.mem_cons.1 hbehind with heq | hbehind
          · exact heq.symm
          · have horder := (List.pairwise_cons.1 (List.pairwise_append.1 hsorted).2.1).1 r hbehind
            exact absurd hlt (not_lt.2 horder)
    rw [heq]
    exact ⟨r, rfl, hcategory⟩

/-- An event has the merchant of a transaction: both have the same one, or neither has one. -/
def SameMerchant (g : Db) (t : LedgerTransaction) (name : Option PyStr) : Prop :=
  t.merchantId = none ∧ name = none ∨
    ∃ m ∈ g.merchants, t.merchantId = some m.id ∧ name = some m.normalizedName

/-- With unique lookup names a merchant is found by its own. -/
theorem merchantNamed_of_mem {g : Db} (hg : Consistent g) {m : Merchant} (hm : m ∈ g.merchants) :
    Ledger.merchantNamed m.normalizedName g = some m := by
  have hnames := hg.names
  unfold Ledger.merchantNamed
  generalize g.merchants = merchants at hm hnames
  induction merchants with
  | nil => cases hm
  | cons a merchants ih =>
    rw [List.find?_cons]
    obtain ⟨hfirst, hrest⟩ := List.pairwise_cons.1 hnames
    rcases List.mem_cons.1 hm with rfl | hm
    · rw [beq_self_eq_true]
    · rw [beq_eq_false_iff_ne.2 (hfirst m hm)]
      exact ih hm hrest

/-- Where a correction is in force and no rule matches, classification answers with its
    category. -/
theorem classification_of_remembered {U : Unicode} {g : Db} (hg : Consistent g)
    {t : LedgerTransaction} {userId categoryId : Uuid}
    (h : Remembered userId categoryId t.merchantId (U.casefold t.description) g)
    {description : PyStr} {name : Option PyStr} (htext : SameFolded U description t.description)
    (hmerchant : SameMerchant g t name)
    (hrules : ∀ r ∈ g.categoryRules, r.userId = userId → r.enabled = true →
      contains r.normalizedPattern (U.casefold description) = false) :
    ∃ a, classification U userId description name g = some a ∧ a.categoryId = categoryId := by
  have hnone : ((rulesInOrder userId g).find? fun r =>
      contains r.normalizedPattern (U.casefold description)) = none := by
    rw [List.find?_eq_none]
    intro r hr hmatches
    unfold rulesInOrder at hr
    rw [List.mem_insertionSort, List.mem_filter, Bool.and_eq_true, beq_iff_eq] at hr
    rw [hrules r hr.1 hr.2.1 hr.2.2] at hmatches
    cases hmatches
  unfold classification
  dsimp only
  rw [hnone]
  dsimp only
  rcases hmerchant with ⟨hmerchant, rfl⟩ | ⟨m, hm, hmerchant, rfl⟩
  · -- without a merchant the newest correction decides
    rw [hmerchant] at h
    obtain ⟨r, hr, hcategory⟩ := newestCorrection_of_newest h
    rw [htext, hr]
    exact ⟨_, rfl, hcategory⟩
  · -- with one, its mapping
    rw [hmerchant] at h
    have hmapping : mappingOf userId (some m.normalizedName) g = some categoryId := by
      unfold mappingOf
      rw [Option.filter_some, if_pos (by simpa using hg.named m hm)]
      dsimp only [Option.bind_some]
      rw [merchantNamed_of_mem hg hm]
      exact h
    rw [hmapping]
    exact ⟨_, rfl, rfl⟩

/-! ### Owners -/

/-- An operation of one owner leaves the classifications of another as they were. -/
theorem classification_step {U : Unicode} {g : Db} {o : Timed} (hg : Consistent g) {userId : Uuid}
    (hother : o.operation.owner ≠ userId) (description : PyStr) (name : Option PyStr) :
    classification U userId description name (o.step U g) =
      classification U userId description name g := by
  have hchanges := changes_step U g o
  generalize o.step U g = g' at hchanges ⊢
  cases hchanges with
  | nothing => rfl
  | rule rule howner =>
    refine classification_congr ?_ rfl rfl
    unfold rulesInOrder
    dsimp only
    rw [List.filter_append, List.filter_singleton, howner, beq_eq_false_iff_ne.2 hother,
      Bool.false_and, cond_false, List.append_nil]
  | transaction merchants row hnew hthere =>
    refine classification_congr rfl ?_ rfl
    unfold mappingOf
    cases name.filter (· ≠ []) with
    | none => rfl
    | some name =>
      dsimp only [Option.bind_some]
      rcases hnew with rfl | ⟨m, rfl, -, hfresh⟩
      · unfold Ledger.merchantNamed
        rw [List.append_nil]
        rfl
      · unfold Ledger.merchantNamed
        dsimp only
        rw [List.find?_append]
        cases g.merchants.find? fun m => m.normalizedName == name with
        | some m' => rfl
        | none =>
          rw [Option.none_or, List.find?_singleton]
          split_ifs
          · -- no mapping refers to the new merchant yet
            have hunmapped : (g.merchantCategoryMaps.find? fun r =>
                r.userId == userId && r.merchantId == m.id && r.verified) = none := by
              rw [List.find?_eq_none]
              intro r hr hmapped
              obtain ⟨m', hm', hid⟩ := hg.mapped r hr
              simp only [Bool.and_eq_true, beq_iff_eq] at hmapped
              exact (hfresh m' hm').1 (hid.trans hmapped.1.2)
            show (g.merchantCategoryMaps.find? fun r =>
              r.userId == userId && r.merchantId == m.id && r.verified).map
                MerchantCategoryMap.categoryId = none
            rw [hunmapped]
            rfl
          · rfl
  | correction correctionId mapId transactionId categoryId t row hoperation hcommits hfound hrow =>
    refine classification_congr rfl ?_ ?_
    · have hmapped : ∀ merchantId, mappedCategory userId merchantId { o.starts g with
          transactions := Table.set LedgerTransaction.id t.id (corrected categoryId) g.transactions
          merchantCategoryMaps :=
            mapsAfter mapId o.operation.owner categoryId t.merchantId (o.starts g)
          userCorrections := g.userCorrections ++ [row] } =
          mappedCategory userId merchantId (o.starts g) := fun merchantId =>
        mappedCategory_of_mapsAfter rfl fun hsame => hother hsame.1.symm
      unfold mappingOf
      exact congrArg _ (funext fun m => hmapped m.id)
    · unfold correctionsInOrder
      dsimp only
      rw [List.filter_append, List.filter_singleton, hrow.userId, beq_eq_false_iff_ne.2 hother,
        cond_false, List.append_nil]

/-! ### Whole runs -/

/-- The constraints hold throughout a run. -/
theorem consistent_run {U : Unicode} {os : List Timed} : ∀ {g : Db}, Consistent g →
    Increasing g os → Consistent (run U g os) := by
  induction os with
  | nil =>
    intro g hg _
    exact hg
  | cons o os ih =>
    intro g hg htimes
    obtain ⟨hfirst, hrest⟩ := List.pairwise_cons.1 htimes
    refine ih (consistent_step hg (hfirst o.time List.mem_cons_self)) ?_
    unfold Increasing
    rw [clock_step]
    exact hrest

/-- The times of the operations that follow a run. -/
theorem increasing_append {U : Unicode} {os later : List Timed} : ∀ {g : Db},
    Increasing g (os ++ later) → Increasing g os ∧ Increasing (run U g os) later := by
  induction os with
  | nil =>
    intro g htimes
    exact ⟨List.pairwise_singleton _ _, htimes⟩
  | cons o os ih =>
    intro g htimes
    obtain ⟨hfirst, hrest⟩ := List.pairwise_cons.1 htimes
    have hstep : Increasing (o.step U g) (os ++ later) := by
      unfold Increasing
      rw [clock_step]
      exact hrest
    obtain ⟨hbefore, hlater⟩ := ih hstep
    unfold Increasing at hbefore
    rw [clock_step] at hbefore
    refine ⟨List.pairwise_cons.2 ⟨fun time htime => hfirst time ?_, hbefore⟩, hlater⟩
    rw [List.cons_append, List.map_cons, List.map_append]
    exact List.mem_append_left _ htime

/-- A correction stays in force through a run that does not override it. -/
theorem remembered_run {U : Unicode} {t : LedgerTransaction} {categoryId : Uuid}
    {os : List Timed} : ∀ {g : Db}, Undisturbed U (SameFolded U) t g os →
    Remembered t.userId categoryId t.merchantId (U.casefold t.description) g →
    Remembered t.userId categoryId t.merchantId (U.casefold t.description) (run U g os) := by
  induction os with
  | nil =>
    intro g _ h
    exact h
  | cons o os ih =>
    intro g hundisturbed h
    exact ih hundisturbed.2 (remembered_step hundisturbed.1 h)

/-- A run with a committed correction in it. -/
structure Episode (U : Unicode) where
  start : Db
  consistent : Consistent start
  before : List Timed
  time : Instant
  correctionId : Uuid
  mapId : Uuid
  userId : Uuid
  transactionId : Uuid
  categoryId : Uuid
  later : List Timed
  increasing : Increasing start
    (before ++ ⟨time, .correct correctionId mapId userId transactionId categoryId⟩ :: later)
  corrected : LedgerTransaction
  found : ((run U start before).transactions.find? fun t =>
    t.userId == userId && t.id == transactionId) = some corrected
  commits : (Timed.mk time (.correct correctionId mapId userId transactionId categoryId)).Commits U
    (run U start before)

namespace Episode

variable {U : Unicode} (e : Episode U)

/-- The correction. -/
def correction : Timed :=
  ⟨e.time, .correct e.correctionId e.mapId e.userId e.transactionId e.categoryId⟩

/-- The database right after the correction. -/
def middle : Db := e.correction.step U (run U e.start e.before)

/-- The database at the end of the run. -/
def final : Db := run U e.middle e.later

theorem corrected_userId : e.corrected.userId = e.userId := by
  have hfound := List.find?_some e.found
  simp only [Bool.and_eq_true, beq_iff_eq] at hfound
  exact hfound.1

theorem increasing_later : (run U e.start e.before).clock < e.time ∧
    Increasing e.middle e.later := by
  obtain ⟨-, htimes⟩ := increasing_append (U := U) e.increasing
  obtain ⟨hfirst, hrest⟩ := List.pairwise_cons.1 htimes
  refine ⟨hfirst e.time List.mem_cons_self, ?_⟩
  unfold Increasing middle
  rw [clock_step]
  exact hrest

theorem consistent_before : Consistent (run U e.start e.before) :=
  consistent_run e.consistent (increasing_append (U := U) e.increasing).1

theorem consistent_final : Consistent e.final :=
  consistent_run (consistent_step e.consistent_before e.increasing_later.1) e.increasing_later.2

end Episode

/-- Corrections are remembered, up to what counts as the same description: until it is overridden,
    events with the description and the merchant of the corrected transaction get its category. -/
def Remembers (U : Unicode) (same : PyStr → PyStr → Prop) : Prop :=
  ∀ e : Episode U, Undisturbed U same e.corrected e.middle e.later →
    ∀ description name, same description e.corrected.description →
      SameMerchant e.final e.corrected name →
      (∀ r ∈ e.final.categoryRules, r.userId = e.userId → r.enabled = true →
        contains r.normalizedPattern (U.casefold description) = false) →
      ∃ a, (classify U e.userId description name).run e.final = .ok (some a, e.final) ∧
        a.categoryId = e.categoryId

/-- In any run, no operation of one owner changes what classification answers another. -/
def Isolates (U : Unicode) : Prop :=
  ∀ (g : Db) (os : List Timed) (o : Timed), Consistent g → Increasing g (os ++ [o]) →
    ∀ userId, o.operation.owner ≠ userId → ∀ description name answer,
      (classify U userId description name).run (run U g (os ++ [o])) =
          .ok (answer, run U g (os ++ [o])) ↔
        (classify U userId description name).run (run U g os) = .ok (answer, run U g os)

/-- **Corrections are remembered.**  Descriptions count as the same up to case; and owners do not
    touch one another's classifications. -/
theorem corrections_remembered (U : Unicode) : Remembers U (SameFolded U) ∧ Isolates U := by
  constructor
  · intro e hundisturbed description name hsame hmerchant hrules
    have hstart : Remembered e.corrected.userId e.categoryId e.corrected.merchantId
        (U.casefold e.corrected.description) e.middle := by
      rw [e.corrected_userId]
      exact remembered_correct e.consistent_before e.increasing_later.1 e.found e.commits
    have hfinal := remembered_run hundisturbed hstart
    rw [e.corrected_userId] at hfinal
    obtain ⟨a, ha, hcategory⟩ :=
      classification_of_remembered e.consistent_final hfinal hsame hmerchant hrules
    exact ⟨a, by rw [run_classify, ha], hcategory⟩
  · intro g os o hg htimes userId hother description name answer
    have hbefore := consistent_run (U := U) hg (increasing_append (U := U) htimes).1
    have hstep : run U g (os ++ [o]) = o.step U (run U g os) := by
      unfold run
      rw [List.foldl_append]
      rfl
    rw [hstep, run_classify, run_classify, classification_step hbefore hother]
    simp only [Except.ok.injEq, Prod.mk.injEq, and_true]

/-! ### Tea -/

/-- Tables on which capital letters `A` to `Z` fold to small ones, as they do. -/
def capitalTables : Unicode where
  nfkc := id
  casefold s := s.map fun c => if 0x41 ≤ c ∧ c ≤ 0x5A then c + 0x20 else c
  upper := id
  title := id
  digit := asciiDigit

/-- A posted expense of owner 1 without category. -/
def expense (id : Uuid) (amount : Money) (merchant : Option Uuid) (description : PyStr) :
    LedgerTransaction where
  id := id
  userId := 1
  amount := amount
  currency := py "INR"
  transactionType := .expense
  merchantId := merchant
  categoryId := none
  description := description
  transactionDate := 0
  source := .manual
  confidence := none
  status := .posted
  categorySource := none
  categoryClassifierVersion := none
  categoryConfidence := none
  categoryOverridden := false

/-- Fifty rupees. -/
def fifty : Money := ⟨500000, by decide⟩

/-- Where `Tea` was bought: in the café, or nowhere in particular. -/
def cafe (atCafe : Bool) : Option Uuid := if atCafe then some 30 else none

/-- The database of one owner with the expenses `Tea`, `tea` and `Books`, a café and two
    categories. -/
def teaTime (atCafe : Bool) : Db :=
  { Db.empty 0 with
    users := [⟨1, py "UTC", py "INR"⟩]
    merchants := [⟨30, py "corner cafe", py "Corner Cafe"⟩]
    categories := [⟨10, none, py "Drinks", py "drinks", none⟩,
      ⟨11, none, py "Hobby", py "hobby", none⟩]
    transactions := [expense 20 fifty (cafe atCafe) (py "Tea"),
      expense 21 fifty none (py "tea"), expense 22 fifty none (py "Books")] }

theorem teaTime_consistent (atCafe : Bool) : Consistent (teaTime atCafe) where
  names := List.pairwise_singleton _ _
  named m hm := by
    rw [List.mem_singleton.1 hm]
    decide
  mapped _ h := absurd h List.not_mem_nil
  spent := by
    have hcafe : ∀ t ∈ (teaTime atCafe).transactions, t.merchantId = none ∨ t.merchantId = some 30 := by
      cases atCafe <;> decide +kernel
    intro t ht id hid
    rcases hcafe t ht with hnone | hsome
    · rw [hnone] at hid
      cases hid
    · exact ⟨_, List.mem_singleton_self _, Option.some.inj (hsome.symm.trans hid)⟩
  past _ h := absurd h List.not_mem_nil

/-- `Tea` is corrected to `Drinks`, then another expense to `Hobby`. -/
def teaEpisode (atCafe : Bool) (other : Uuid) : Episode capitalTables where
  start := teaTime atCafe
  consistent := teaTime_consistent atCafe
  before := []
  time := 1
  correctionId := 40
  mapId := 50
  userId := 1
  transactionId := 20
  categoryId := 10
  later := [⟨2, .correct 41 51 1 other 11⟩]
  increasing := by
    show List.Pairwise (· < ·) [(0 : ℤ), 1, 2]
    decide
  corrected := expense 20 fifty (cafe atCafe) (py "Tea")
  found := by cases atCafe <;> decide +kernel
  commits := by
    unfold Timed.Commits
    cases atCafe <;> decide +kernel

/-- The other expense, which has no merchant, overrides the correction only if its description is
    the same. -/
theorem teaEpisode_undisturbed {same : PyStr → PyStr → Prop} {atCafe : Bool} {other : Uuid}
    {t : LedgerTransaction}
    (ht : ((teaEpisode atCafe other).middle.transactions.find? fun t =>
      t.userId == 1 && t.id == other) = some t) (hnone : t.merchantId = none)
    (hsame : ¬ same t.description (py "Tea")) :
    Undisturbed capitalTables same (teaEpisode atCafe other).corrected
      (teaEpisode atCafe other).middle (teaEpisode atCafe other).later := by
  refine ⟨?_, trivial⟩
  rintro ⟨correctionId, mapId, transactionId, categoryId, t', hoperation, -, hfound, hoverrides⟩
  obtain ⟨-, -, -, rfl, -⟩ := Operation.correct.inj hoperation
  obtain rfl : t = t' := Option.some.inj (ht.symm.trans hfound)
  rcases hoverrides with ⟨hmerchant, hother⟩ | hdescription
  · exact hmerchant (hother.symm.trans hnone)
  · exact hsame hdescription

/-- After `Books` went to `Hobby`, `tea` in the café still goes to `Drinks`. -/
theorem corrections_remembered_tea : ∃ a,
    (classify capitalTables 1 (py "tea") (some (py "corner cafe"))).run (teaEpisode true 22).final =
      .ok (some a, (teaEpisode true 22).final) ∧ a.categoryId = 10 := by
  have hundisturbed : Undisturbed capitalTables (SameFolded capitalTables)
      (teaEpisode true 22).corrected (teaEpisode true 22).middle (teaEpisode true 22).later := by
    refine teaEpisode_undisturbed (t := expense 22 fifty none (py "Books")) (by decide +kernel) rfl ?_
    unfold SameFolded
    decide +kernel
  have hcafe : SameMerchant (teaEpisode true 22).final (teaEpisode true 22).corrected
      (some (py "corner cafe")) := by
    have hmem : ⟨30, py "corner cafe", py "Corner Cafe"⟩ ∈ (teaEpisode true 22).final.merchants := by
      decide +kernel
    exact .inr ⟨_, hmem, rfl, rfl⟩
  refine (corrections_remembered capitalTables).1 (teaEpisode true 22) hundisturbed (py "tea")
    (some (py "corner cafe")) ?_ hcafe ?_
  · unfold SameFolded
    decide +kernel
  · have hnone : (teaEpisode true 22).final.categoryRules = [] := by decide +kernel
    intro r hr
    rw [hnone] at hr
    exact absurd hr List.not_mem_nil

/-- After `tea` went to `Hobby`, so does `Tea`, which was corrected to `Drinks`. -/
theorem corrections_remembered_case :
    ¬ ∀ U : Unicode, Remembers U (fun a b => a = b) ∧ Isolates U := by
  intro hall
  have hundisturbed : Undisturbed capitalTables (fun a b => a = b)
      (teaEpisode false 21).corrected (teaEpisode false 21).middle (teaEpisode false 21).later :=
    teaEpisode_undisturbed (t := expense 21 fifty none (py "tea")) (by decide +kernel) rfl
      (by decide)
  have hnone : (teaEpisode false 21).final.categoryRules = [] := by decide +kernel
  obtain ⟨a, ha, hcategory⟩ := (hall capitalTables).1 (teaEpisode false 21) hundisturbed (py "Tea") none
    rfl (.inl ⟨rfl, rfl⟩) fun r hr => by
      rw [hnone] at hr
      exact absurd hr List.not_mem_nil
  rw [run_classify] at ha
  have hanswer := (Prod.mk.inj (Except.ok.inj ha)).1
  have hhobby : (classification capitalTables 1 (py "Tea") none (teaEpisode false 21).final).map
      CategoryAssignment.categoryId = some 11 := by
    decide +kernel
  have hdrinks : (classification capitalTables 1 (py "Tea") none (teaEpisode false 21).final).map
      CategoryAssignment.categoryId = some 10 := by
    show (classification capitalTables (teaEpisode false 21).userId (py "Tea") none
      (teaEpisode false 21).final).map CategoryAssignment.categoryId = some 10
    rw [hanswer, Option.map_some, hcategory]
    rfl
  rw [hhobby] at hdrinks
  exact absurd hdrinks (by decide)

end Expensea.Categorization
