import Expensea.Database.Hierarchy

namespace Expensea.Database

/-!
# Owners of categories

Whether a category's parent, and a transaction's category, is of the system or of the same owner, in
every state that accepted statements reach.

* `Scoped` — it is, of the rows that are there;
* `OwnsReferences` — a category is not written under an owner that rows which name it do not have;
* `write_scoped_iff` — a row write keeps `Scoped` exactly then;
* `ownership_enforced` — in runs of such writes every reference is to the system or to the owner.
-/

/-- Of the rows that are there, a referenced category is of the system or of the same owner. -/
structure Scoped (t : Tables) : Prop where
  parents : ∀ c ∈ t.categories, ∀ parent ∈ t.categories, c.parentCategoryId = some parent.id →
    parent.userId = none ∨ parent.userId = c.userId
  assigned : ∀ r ∈ t.transactions, ∀ category ∈ t.categories, r.categoryId = some category.id →
    category.userId = none ∨ category.userId = some r.userId

/-- A category is written as one of the system, or every row that names it has its owner. -/
def OwnsReferences (t : Tables) (w : Write) : Prop :=
  ∀ pair ∈ w.category t, pair.1.userId = none ∨
    (∀ c ∈ pair.2, c.parentCategoryId = some pair.1.id → pair.1.userId = c.userId) ∧
      ∀ r ∈ t.transactions, r.categoryId = some pair.1.id → pair.1.userId = some r.userId

instance (t : Tables) (w : Write) : Decidable (OwnsReferences t w) := by
  unfold OwnsReferences
  infer_instance

/-! ### The triggers -/

/-- What an accepted parent trigger says of the stored parent. -/
theorem enforceCategoryParentScope_owner {categories : List Category} {row parent : Category}
    (h : enforceCategoryParentScope categories row = .ok ())
    (hkeys : (categories.map Category.id).Nodup) (hparent : parent ∈ categories)
    (hnames : row.parentCategoryId = some parent.id) :
    parent.userId = none ∨ parent.userId = row.userId := by
  rw [enforceCategoryParentScope, hnames] at h
  dsimp only at h
  rw [Table.get_of_mem hkeys hparent] at h
  dsimp only at h
  by_cases hother : (parent.userId.isSome && parent.userId != row.userId) = true
  · rw [if_pos hother] at h
    cases h
  · rw [Bool.and_eq_true, bne_iff_ne, not_and_or, not_ne_iff] at hother
    rcases hother with hnone | hsame
    · left
      rwa [Bool.not_eq_true, Option.isSome_eq_false_iff, Option.isNone_iff_eq_none] at hnone
    · exact .inr hsame

/-- What an accepted category trigger says of the stored category. -/
theorem enforceTransactionCategoryScope_owner {categories : List Category} {row : LedgerTransaction}
    {category : Category} (h : enforceTransactionCategoryScope categories row = .ok ())
    (hkeys : (categories.map Category.id).Nodup) (hcategory : category ∈ categories)
    (hnames : row.categoryId = some category.id) :
    category.userId = none ∨ category.userId = some row.userId := by
  rw [enforceTransactionCategoryScope, hnames] at h
  dsimp only at h
  rw [Table.get_of_mem hkeys hcategory] at h
  dsimp only at h
  by_cases hother : (category.userId.isSome && category.userId != some row.userId) = true
  · rw [if_pos hother] at h
    cases h
  · rw [Bool.and_eq_true, bne_iff_ne, not_and_or, not_ne_iff] at hother
    rcases hother with hnone | hsame
    · left
      rwa [Bool.not_eq_true, Option.isSome_eq_false_iff, Option.isNone_iff_eq_none] at hnone
    · exact .inr hsame

/-! ### Row writes -/

section Writes

variable {t t' : Tables}

/-- The parent of a written category is in scope. -/
theorem CategoryWritten.parent_scope {row : Category} {others : List Category}
    (h : CategoryWritten t row others t') (hkeys : (t.categories.map Category.id).Nodup)
    (hscoped : Scoped t) {parent : Category} (hparent : parent ∈ t.categories)
    (hnames : row.parentCategoryId = some parent.id) :
    parent.userId = none ∨ parent.userId = row.userId := by
  rcases h.checked with hchecked | ⟨stored, hstored, howner, hsame, -⟩
  · exact enforceCategoryParentScope_owner hchecked hkeys hparent hnames
  · rw [← howner]
    exact hscoped.parents stored hstored parent hparent (hsame.trans hnames)

/-- The category of a written transaction is in scope. -/
theorem TransactionWritten.category_scope {row : LedgerTransaction}
    {others : List LedgerTransaction} (h : TransactionWritten t row others t')
    (hkeys : (t.categories.map Category.id).Nodup) (hscoped : Scoped t) {category : Category}
    (hcategory : category ∈ t.categories) (hnames : row.categoryId = some category.id) :
    category.userId = none ∨ category.userId = some row.userId := by
  rcases h.checked with hchecked | ⟨stored, hstored, howner, hsame⟩
  · exact enforceTransactionCategoryScope_owner hchecked hkeys hcategory hnames
  · rw [← howner]
    exact hscoped.assigned stored hstored category hcategory (hsame.trans hnames)

/-- A category write keeps the scope exactly if the rows that name the category have its owner. -/
theorem CategoryWritten.scoped_iff {row : Category} {others : List Category}
    (h : CategoryWritten t row others t') (hkeys : (t.categories.map Category.id).Nodup)
    (hscoped : Scoped t) : Scoped t' ↔ row.userId = none ∨
      (∀ c ∈ others, c.parentCategoryId = some row.id → row.userId = c.userId) ∧
        ∀ r ∈ t.transactions, r.categoryId = some row.id → row.userId = some r.userId := by
  have hrow : row ∈ t'.categories := (h.categories row).2 (.inl rfl)
  constructor
  · intro hafter
    by_cases hsystem : row.userId = none
    · exact .inl hsystem
    · refine .inr ⟨fun c hc hnames => ?_, fun r hr hnames => ?_⟩
      · exact (hafter.parents c ((h.categories c).2 (.inr hc)) row hrow hnames).resolve_left hsystem
      · rw [← h.transactions] at hr
        exact (hafter.assigned r hr row hrow hnames).resolve_left hsystem
  · intro howns
    constructor
    · intro c hc parent hparent hnames
      rcases (h.categories parent).1 hparent with rfl | hother
      · -- the parent is the written row: a row of its own would name itself
        rcases (h.categories c).1 hc with rfl | hchild
        · exact absurd hnames h.notSelf
        · rcases howns with hsystem | hall
          · exact .inl hsystem
          · exact .inr (hall.1 c hchild hnames)
      · rcases (h.categories c).1 hc with rfl | hchild
        · exact h.parent_scope hkeys hscoped (h.subset parent hother) hnames
        · exact hscoped.parents c (h.subset c hchild) parent (h.subset parent hother) hnames
    · intro r hr category hcategory hnames
      rw [h.transactions] at hr
      rcases (h.categories category).1 hcategory with rfl | hother
      · rcases howns with hsystem | hall
        · exact .inl hsystem
        · exact .inr (hall.2 r hr hnames)
      · exact hscoped.assigned r hr category (h.subset category hother) hnames

/-- A transaction write keeps the scope. -/
theorem TransactionWritten.scoped {row : LedgerTransaction} {others : List LedgerTransaction}
    (h : TransactionWritten t row others t') (hkeys : (t.categories.map Category.id).Nodup)
    (hscoped : Scoped t) : Scoped t' := by
  constructor
  · rw [h.categories]
    exact hscoped.parents
  · intro r hr category hcategory hnames
    rw [h.categories] at hcategory
    rcases (h.transactions r).1 hr with rfl | hother
    · exact h.category_scope hkeys hscoped hcategory hnames
    · exact hscoped.assigned r (h.subset r hother) category hcategory hnames

/-- **One row write** keeps every reference in scope if and only if it meets `OwnsReferences`. -/
theorem write_scoped_iff {w : Write} (hkeys : (t.categories.map Category.id).Nodup)
    (hscoped : Scoped t) (h : t.write w = .ok t') : Scoped t' ↔ OwnsReferences t w := by
  cases hw : w.category t with
  | some pair =>
    rw [(write_category hw h).scoped_iff hkeys hscoped]
    unfold OwnsReferences
    rw [hw]
    constructor
    · intro howns pair' hpair
      cases hpair
      exact howns
    · intro hall
      exact hall pair rfl
  | none =>
    have hmeets : OwnsReferences t w := by
      intro pair hpair
      rw [hw] at hpair
      cases hpair
    refine iff_of_true ?_ hmeets
    have hcategories := write_no_category hw h
    cases hw' : w.transaction t with
    | some pair => exact (write_transaction hw' h).scoped hkeys hscoped
    | none =>
      constructor
      · rw [hcategories]
        exact hscoped.parents
      · rw [hcategories, write_no_transaction hw' h]
        exact hscoped.assigned

end Writes

/-! ### Runs -/

/-- The parent of every category, and the category of every transaction, is there and is of the
    system or of the same owner. -/
def Owned (t : Tables) : Prop :=
  (∀ c ∈ t.categories, ∀ id, c.parentCategoryId = some id →
    ∃ parent ∈ t.categories, parent.id = id ∧ (parent.userId = none ∨ parent.userId = c.userId)) ∧
  ∀ r ∈ t.transactions, ∀ id, r.categoryId = some id →
    ∃ category ∈ t.categories, category.id = id ∧
      (category.userId = none ∨ category.userId = some r.userId)

/-- **Ownership.**  In every run from empty tables whose row writes meet `OwnsReferences`, every
    reference of every state reached is to the system or to the owner. -/
theorem ownership_enforced {users merchants : List Uuid} {t : Tables}
    (h : rules.Run OwnsReferences (Tables.empty users merchants) t) : Owned t := by
  have hinvariant : (t.categories.map Category.id).Nodup ∧ Scoped t := by
    refine h.invariant (I := fun t => (t.categories.map Category.id).Nodup ∧ Scoped t) ?_ ?_
    · refine ⟨List.nodup_nil, ?_, ?_⟩
      · intro c hc
        cases hc
      · intro r hr
        cases hr
    · intro s w s' hs hok hwrite
      exact ⟨write_keys hs.1 hwrite, (write_scoped_iff hs.1 hs.2 hwrite).2 hok⟩
  obtain ⟨hparents, hcategories⟩ := foreignKeys_ok (h.finished rfl)
  constructor
  · intro c hc id hnames
    obtain ⟨parent, hparent, hid⟩ := hparents c hc id hnames
    exact ⟨parent, hparent, hid, hinvariant.2.parents c hc parent hparent (hid ▸ hnames)⟩
  · intro r hr id hnames
    obtain ⟨category, hcategory, hid⟩ := hcategories r hr id hnames
    exact ⟨category, hcategory, hid,
      hinvariant.2.assigned r hr category hcategory (hid ▸ hnames)⟩

/-- A category of a user. -/
def userCategory (id userId : Uuid) (name : PyStr) (parent : Option Uuid) : Category :=
  { systemCategory id name parent with userId := some userId }

/-- A user's category under another one of theirs. -/
def familyCategories : Statement :=
  .insertCategories [userCategory 1 7 (py "travel") none, userCategory 2 7 (py "rail") (some 1)]

theorem ownership_enforced_family : Owned ⟨[7, 8], [],
    [userCategory 1 7 (py "travel") none, userCategory 2 7 (py "rail") (some 1)], []⟩ := by
  have hrun : rules.Run OwnsReferences (Tables.empty [7, 8] []) ⟨[7, 8], [],
      [userCategory 1 7 (py "travel") none, userCategory 2 7 (py "rail") (some 1)], []⟩ :=
    .execute (q := familyCategories) .start (by decide +kernel) (by decide +kernel)
      (by decide +kernel)
  exact ownership_enforced hrun

/-- The first of them is given to another user. -/
def givenAway : Statement :=
  .updateCategories [.userId] [(1, userCategory 1 8 (py "travel") none)]

/-- The trigger looks at the parent of the row that is updated, not at the rows whose parent it
    is. -/
theorem ownership_lost : ¬ ∀ (users merchants : List Uuid) (t : Tables),
    rules.Run (fun _ _ => True) (Tables.empty users merchants) t → Owned t := by
  intro h
  have hrun : rules.Run (fun _ _ => True) (Tables.empty [7, 8] []) ⟨[7, 8], [],
      [userCategory 1 8 (py "travel") none, userCategory 2 7 (py "rail") (some 1)], []⟩ := by
    have hinserted : rules.Run (fun _ _ => True) (Tables.empty [7, 8] []) ⟨[7, 8], [],
        [userCategory 1 7 (py "travel") none, userCategory 2 7 (py "rail") (some 1)], []⟩ :=
      .execute (q := familyCategories) .start (by decide +kernel)
        (Rules.meets_of_forall (fun _ _ => trivial) _ _) (by decide +kernel)
    exact .execute (q := givenAway) hinserted (by decide +kernel)
      (Rules.meets_of_forall (fun _ _ => trivial) _ _) (by decide +kernel)
  obtain ⟨parent, hparent, hid, howner⟩ :=
    (h [7, 8] [] _ hrun).1 (userCategory 2 7 (py "rail") (some 1)) (by decide +kernel) 1 rfl
  have hfirst : parent = userCategory 1 8 (py "travel") none := by
    rcases List.mem_cons.1 hparent with hfirst | hsecond
    · exact hfirst
    · rw [List.mem_singleton.1 hsecond] at hid
      cases hid
  rw [hfirst] at howner
  rcases howner with hnone | hsame
  · cases hnone
  · cases hsame

end Expensea.Database
