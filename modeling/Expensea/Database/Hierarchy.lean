import Expensea.Database.CategoryScope

namespace Expensea.Database

open Relation

/-!
# The category hierarchy

Whether following parents from a category ends, in every state that accepted statements reach.

* `NamesParent` — the links of the hierarchy, and `mem_ancestors`, what the trigger walks;
* `Unnamed` — a row is not written under a new id that an ancestor of its parent names already;
* `write_acyclic_iff` — a row write keeps the hierarchy acyclic exactly then;
* `hierarchy_acyclic` — in runs of such writes every category reaches a root.
-/

/-- The category with id `a` has the parent `b`. -/
def NamesParent (categories : List Category) (a b : Uuid) : Prop :=
  ∃ c ∈ categories, c.id = a ∧ c.parentCategoryId = some b

/-- The stored parent of a category. -/
def parentOf (categories : List Category) (c : Category) : Option Category :=
  c.parentCategoryId.bind fun parent => Table.get Category.id parent categories

/-- Following parents `n` times. -/
def follow (categories : List Category) : Nat → Category → Option Category
  | 0, c => some c
  | n + 1, c => (parentOf categories c).bind (follow categories n)

/-- Following parents ends at a category without one. -/
def ReachesRoot (categories : List Category) (c : Category) : Prop :=
  ∃ n root, follow categories n c = some root ∧ root.parentCategoryId = none

/-! ### The walk of the trigger -/

theorem mem_parentLinks {categories : List Category} {link : Uuid × Option Uuid} :
    link ∈ parentLinks categories ↔ ∃ c ∈ categories, c.id = link.1 ∧ c.parentCategoryId = link.2 := by
  rw [parentLinks, List.mem_map]
  constructor
  · intro h
    obtain ⟨c, hc, rfl⟩ := h
    exact ⟨c, hc, rfl, rfl⟩
  · intro h
    obtain ⟨c, hc, hid, hparent⟩ := h
    exact ⟨c, hc, by rw [hid, hparent]⟩

/-- **The ancestors** are the stored categories that parents lead to, the first one included. -/
theorem mem_ancestors {categories : List Category} {first : Uuid} {link : Uuid × Option Uuid} :
    link ∈ ancestors categories first ↔
      link ∈ parentLinks categories ∧ ReflTransGen (NamesParent categories) first link.1 := by
  rw [ancestors, Recursive.mem_query fun a ha => List.mem_of_mem_filter ha]
  constructor
  · intro h
    obtain ⟨a, ha, hpath⟩ := h
    obtain ⟨hmem, hfirst⟩ := List.mem_filter.1 ha
    obtain rfl := beq_iff_eq.1 hfirst
    induction hpath with
    | refl => exact ⟨hmem, .refl⟩
    | tail _ hlink ih =>
      obtain ⟨c, hc, hid, hparent⟩ := mem_parentLinks.1 ih.1
      exact ⟨hlink.1, ih.2.tail ⟨c, hc, hid, hparent.trans (beq_iff_eq.1 hlink.2)⟩⟩
  · intro h
    obtain ⟨hmem, hpath⟩ := h
    -- from the last row back to the first one
    have hrows : ∃ a ∈ parentLinks categories, a.1 = first ∧
        ReflTransGen (fun ancestor category =>
          category ∈ parentLinks categories ∧ (ancestor.2 == some category.1) = true) a link := by
      induction hpath using ReflTransGen.head_induction_on with
      | refl => exact ⟨link, hmem, rfl, .refl⟩
      | head hlink _ ih =>
        obtain ⟨a, ha, hid, hrest⟩ := ih
        obtain ⟨c, hc, hc_id, hparent⟩ := hlink
        refine ⟨(c.id, c.parentCategoryId), List.mem_map.2 ⟨c, hc, rfl⟩, hc_id, hrest.head ⟨ha, ?_⟩⟩
        rw [hparent, hid]
        exact beq_self_eq_true _
    obtain ⟨a, ha, hfirst, hrest⟩ := hrows
    exact ⟨a, List.mem_filter.2 ⟨ha, beq_iff_eq.2 hfirst⟩, hrest⟩

/-- Some ancestor of `first` names `b` as its parent, if parents lead from `first` to `b`. -/
theorem named_by_ancestor {categories : List Category} {first b : Uuid} (hne : first ≠ b)
    (h : ReflTransGen (NamesParent categories) first b) :
    ∃ ancestor ∈ ancestors categories first, ancestor.2 = some b := by
  rcases ReflTransGen.cases_tail h with heq | ⟨x, hpath, c, hc, hid, hparent⟩
  · exact absurd heq.symm hne
  · exact ⟨(x, some b), mem_ancestors.2 ⟨mem_parentLinks.2 ⟨c, hc, hid, hparent⟩, hpath⟩, rfl⟩

/-- What an accepted trigger says: parents do not lead from the new parent to a stored row. -/
theorem enforceCategoryParentScope_acyclic {categories : List Category} {row : Category}
    {parent : Uuid} (h : enforceCategoryParentScope categories row = .ok ())
    (hparent : row.parentCategoryId = some parent) (hstored : ∃ c ∈ categories, c.id = row.id)
    (hne : parent ≠ row.id) : ¬ ReflTransGen (NamesParent categories) parent row.id := by
  intro hpath
  obtain ⟨c, hc, hid⟩ := hstored
  rw [enforceCategoryParentScope, hparent] at h
  dsimp only at h
  cases hfound : Table.get Category.id parent categories with
  | none =>
    -- a parent that is not stored leads nowhere
    rcases ReflTransGen.cases_head hpath with heq | ⟨_, ⟨c', hc', hid', -⟩, -⟩
    · exact hne heq
    · exact Table.get_eq_none_iff.1 hfound c' hc' hid'
  | some stored =>
    rw [hfound] at h
    dsimp only at h
    have hmem : (row.id, c.parentCategoryId) ∈ ancestors categories parent :=
      mem_ancestors.2 ⟨mem_parentLinks.2 ⟨c, hc, hid, rfl⟩, hpath⟩
    have hany : ((ancestors categories parent).any fun ancestor => ancestor.1 == row.id) = true :=
      List.any_eq_true.2 ⟨_, hmem, beq_self_eq_true _⟩
    rw [hany] at h
    split at h
    · cases h
    · cases h

/-! ### Row writes -/

/-- The written id is stored already, or no ancestor of the row's parent, among the other rows,
    names it as a parent. -/
def Unnamed (t : Tables) (w : Write) : Prop :=
  ∀ pair ∈ w.category t, (∃ c ∈ t.categories, c.id = pair.1.id) ∨
    ∀ parent ∈ pair.1.parentCategoryId,
      ∀ ancestor ∈ ancestors pair.2 parent, ancestor.2 ≠ some pair.1.id

instance (t : Tables) (w : Write) : Decidable (Unnamed t w) := by
  unfold Unnamed
  infer_instance

/-- The links after a category was written. -/
theorem CategoryWritten.namesParent {t t' : Tables} {row : Category} {others : List Category}
    (h : CategoryWritten t row others t') (a b : Uuid) :
    NamesParent t'.categories a b ↔
      NamesParent others a b ∨ a = row.id ∧ row.parentCategoryId = some b := by
  constructor
  · intro hlink
    obtain ⟨c, hc, hid, hparent⟩ := hlink
    rcases (h.categories c).1 hc with rfl | hother
    · exact .inr ⟨hid.symm, hparent⟩
    · exact .inl ⟨c, hother, hid, hparent⟩
  · intro hlink
    rcases hlink with ⟨c, hc, hid, hparent⟩ | ⟨hid, hparent⟩
    · exact ⟨c, (h.categories c).2 (.inr hc), hid, hparent⟩
    · exact ⟨row, (h.categories row).2 (.inl rfl), hid.symm, hparent⟩

theorem NamesParent.mono {categories categories' : List Category}
    (h : ∀ c ∈ categories, c ∈ categories') (a b : Uuid) (hlink : NamesParent categories a b) :
    NamesParent categories' a b := by
  obtain ⟨c, hc, hid, hparent⟩ := hlink
  exact ⟨c, h c hc, hid, hparent⟩

/-- The written row keeps the hierarchy acyclic unless its parent leads to its id among the other
    rows; when that is so, the id was not stored. -/
theorem CategoryWritten.unstored {t t' : Tables} {row : Category} {others : List Category}
    (h : CategoryWritten t row others t') (hacyclic : Acyclic (NamesParent t.categories))
    {parent : Uuid} (hparent : row.parentCategoryId = some parent)
    (hpath : ReflTransGen (NamesParent others) parent row.id) :
    ¬ ∃ c ∈ t.categories, c.id = row.id := by
  intro hstored
  have hne : parent ≠ row.id := by
    intro heq
    rw [heq] at hparent
    exact h.notSelf hparent
  have hbefore : ReflTransGen (NamesParent t.categories) parent row.id :=
    ReflTransGen.mono (NamesParent.mono h.subset) parent row.id hpath
  rcases h.checked with hchecked | ⟨stored, hmem, -, hsame, hrest⟩
  · exact enforceCategoryParentScope_acyclic hchecked hparent hstored hne hbefore
  · -- the trigger did not fire: the row that was replaced is the one with this id
    obtain ⟨c, hc, hid⟩ := hstored
    rcases hrest c hc with hreplaced | hother
    · have hlink : NamesParent t.categories row.id parent :=
        ⟨stored, hmem, hreplaced.symm.trans hid, hsame.trans hparent⟩
      exact hacyclic row.id (TransGen.head' hlink hbefore)
    · exact h.fresh c hother hid

/-- **One row write** keeps the hierarchy acyclic if and only if it meets `Unnamed`. -/
theorem write_acyclic_iff {t t' : Tables} {w : Write}
    (hacyclic : Acyclic (NamesParent t.categories)) (h : t.write w = .ok t') :
    Acyclic (NamesParent t'.categories) ↔ Unnamed t w := by
  cases hw : w.category t with
  | none =>
    rw [write_no_category hw h]
    refine iff_of_true hacyclic fun pair hpair => ?_
    rw [hw] at hpair
    cases hpair
  | some pair =>
    obtain ⟨row, others⟩ := pair
    have hwritten := write_category hw h
    have hothers : Acyclic (NamesParent others) := hacyclic.mono (NamesParent.mono hwritten.subset)
    have hunnamed : Unnamed t w ↔ (∃ c ∈ t.categories, c.id = row.id) ∨
        ∀ parent, row.parentCategoryId = some parent →
          ∀ ancestor ∈ ancestors others parent, ancestor.2 ≠ some row.id := by
      unfold Unnamed
      rw [hw]
      constructor
      · intro hall
        exact hall _ rfl
      · intro hrow pair hpair
        cases hpair
        exact hrow
    rw [hunnamed]
    cases hparent : row.parentCategoryId with
    | none =>
      -- a root adds no link
      refine iff_of_true (hothers.mono fun a b hlink => ?_) (.inr fun parent hnone => by cases hnone)
      rcases (hwritten.namesParent a b).1 hlink with hother | ⟨-, hsome⟩
      · exact hother
      · rw [hparent] at hsome
        cases hsome
    | some parent =>
      have hne : parent ≠ row.id := by
        intro heq
        rw [heq] at hparent
        exact hwritten.notSelf hparent
      have hlinks : NamesParent t'.categories =
          fun a b => NamesParent others a b ∨ a = row.id ∧ b = parent := by
        funext a b
        rw [eq_iff_iff, hwritten.namesParent, hparent, Option.some.injEq, eq_comm (a := b)]
      rw [hlinks, hothers.link_iff]
      constructor
      · intro hno
        by_cases hstored : ∃ c ∈ t.categories, c.id = row.id
        · exact .inl hstored
        · refine .inr fun parent' hparent' ancestor hancestor hnames => hno ?_
          obtain rfl := Option.some.inj hparent'
          obtain ⟨hmem, hpath⟩ := mem_ancestors.1 hancestor
          obtain ⟨c, hc, hid, hlink⟩ := mem_parentLinks.1 hmem
          exact hpath.tail ⟨c, hc, hid, hlink.trans hnames⟩
      · intro hmeets hpath
        rcases hmeets with hstored | hnot
        · exact hwritten.unstored hacyclic hparent hpath hstored
        · obtain ⟨ancestor, hancestor, hnames⟩ := named_by_ancestor hne hpath
          exact hnot parent rfl ancestor hancestor hnames

/-- While the foreign keys hold every write meets `Unnamed`, so the first row of a statement
    does. -/
theorem unnamed_of_foreignKeys {t : Tables} (h : require (foreignKeyChecks t) = .ok ()) (w : Write) :
    Unnamed t w := by
  intro pair hpair
  by_cases hnamed : ∃ c ∈ t.categories, c.parentCategoryId = some pair.1.id
  · obtain ⟨c, hc, hparent⟩ := hnamed
    exact .inl ((foreignKeys_ok h).1 c hc _ hparent)
  · right
    intro parent _ ancestor hancestor hnames
    obtain ⟨c, hc, -, hlink⟩ := mem_parentLinks.1 (mem_ancestors.1 hancestor).1
    have hsubset : c ∈ t.categories := by
      cases w with
      | insertCategory inserted =>
        cases hpair
        exact hc
      | updateCategory columns id values =>
        obtain ⟨stored, -, rfl⟩ := Option.map_eq_some_iff.1 hpair
        exact List.mem_of_mem_filter hc
      | insertTransaction inserted => cases hpair
      | updateTransaction columns id values => cases hpair
    exact hnamed ⟨c, hsubset, hlink.trans hnames⟩

/-! ### Roots -/

/-- Where parents lead is reached by following them. -/
theorem follow_of_path {categories : List Category}
    (hstored : ∀ c ∈ categories, ∀ parent, c.parentCategoryId = some parent →
      ∃ c' ∈ categories, c'.id = parent)
    (hkeys : (categories.map Category.id).Nodup) {a b : Uuid}
    (h : ReflTransGen (NamesParent categories) a b) {c : Category} (hc : c ∈ categories)
    (hid : c.id = a) : ∃ n, ∃ last ∈ categories, follow categories n c = some last ∧ last.id = b := by
  induction h using ReflTransGen.head_induction_on generalizing c with
  | refl => exact ⟨0, c, hc, rfl, hid⟩
  | head hlink _ ih =>
    obtain ⟨c₀, hc₀, hid₀, hparent⟩ := hlink
    have hsame : c₀ = c := List.inj_on_of_nodup_map hkeys hc₀ hc (hid₀.trans hid.symm)
    rw [hsame] at hparent
    obtain ⟨next, hnext, hnext_id⟩ := hstored c hc _ hparent
    obtain ⟨n, last, hlast, hfollow, hlast_id⟩ := ih hnext hnext_id
    refine ⟨n + 1, last, hlast, ?_, hlast_id⟩
    rw [follow, parentOf, hparent, Option.bind_some, ← hnext_id, Table.get_of_mem hkeys hnext]
    exact hfollow

/-- Categories keep distinct ids. -/
theorem write_keys {t t' : Tables} {w : Write} (hkeys : (t.categories.map Category.id).Nodup)
    (h : t.write w = .ok t') : (t'.categories.map Category.id).Nodup := by
  cases hw : w.category t with
  | none => rwa [write_no_category hw h]
  | some pair =>
    obtain ⟨row, others⟩ := pair
    have hfresh := (write_category hw h).fresh
    cases w with
    | insertCategory inserted =>
      cases hw
      obtain ⟨-, rfl⟩ := written h
      exact Table.nodup_append_one hkeys hfresh
    | updateCategory columns id values =>
      obtain ⟨stored, hstored, hpair⟩ := Option.map_eq_some_iff.1 hw
      cases hpair
      rw [Tables.write, hstored] at h
      obtain ⟨-, rfl⟩ := written h
      exact Table.nodup_set_const hkeys fun c hc hid =>
        hfresh c (List.mem_filter.2 ⟨hc, bne_iff_ne.2 hid⟩)
    | insertTransaction inserted => cases hw
    | updateTransaction columns id values => cases hw

/-! ### Runs -/

/-- Distinct ids and no cycle. -/
structure Hierarchical (t : Tables) : Prop where
  keys : (t.categories.map Category.id).Nodup
  acyclic : Acyclic (NamesParent t.categories)

theorem hierarchical_empty (users merchants : List Uuid) :
    Hierarchical (Tables.empty users merchants) := by
  refine ⟨List.nodup_nil, fun a hcycle => ?_⟩
  obtain ⟨_, ⟨c, hc, -⟩, -⟩ := TransGen.head'_iff.1 hcycle
  cases hc

/-- **Acyclic hierarchies.**  In every run from empty tables whose row writes meet `Unnamed`, every
    category of every state reached reaches a root; and whatever the next statement is, its first
    row write meets `Unnamed`. -/
theorem hierarchy_acyclic {users merchants : List Uuid} {t : Tables}
    (h : rules.Run Unnamed (Tables.empty users merchants) t) :
    (∀ c ∈ t.categories, ReachesRoot t.categories c) ∧ ∀ w : Write, Unnamed t w := by
  refine ⟨fun c hc => ?_, fun w => unnamed_of_foreignKeys (h.finished rfl) w⟩
  have hinvariant : Hierarchical t := by
    refine h.invariant (hierarchical_empty users merchants) fun s w s' hs hok hwrite => ?_
    exact ⟨write_keys hs.keys hwrite, (write_acyclic_iff hs.acyclic hwrite).2 hok⟩
  have hforeign := foreignKeys_ok (h.finished rfl)
  have hsources : ∀ a b, NamesParent t.categories a b → a ∈ t.categories.map Category.id := by
    intro a b hlink
    obtain ⟨c, hc, rfl, -⟩ := hlink
    exact List.mem_map_of_mem hc
  obtain ⟨b, hpath, hend⟩ := hinvariant.acyclic.exists_end hsources c.id
  obtain ⟨n, last, hlast, hfollow, hid⟩ :=
    follow_of_path hforeign.1 hinvariant.keys hpath hc rfl
  refine ⟨n, last, hfollow, ?_⟩
  cases hparent : last.parentCategoryId with
  | none => rfl
  | some parent => exact absurd ⟨last, hlast, hid, hparent⟩ (hend parent)

/-- A category of the system. -/
def systemCategory (id : Uuid) (name : PyStr) (parent : Option Uuid) : Category where
  id := id
  userId := none
  name := name
  normalizedName := name
  parentCategoryId := parent

/-- A root and a category under it, inserted together, the lower one first. -/
def nestedCategories : Statement :=
  .insertCategories [systemCategory 2 (py "rail") (some 1), systemCategory 1 (py "travel") none]

theorem hierarchy_acyclic_nested :
    ReachesRoot [systemCategory 2 (py "rail") (some 1), systemCategory 1 (py "travel") none]
      (systemCategory 2 (py "rail") (some 1)) := by
  have hrun : rules.Run Unnamed (Tables.empty [] []) ⟨[], [],
      [systemCategory 2 (py "rail") (some 1), systemCategory 1 (py "travel") none], []⟩ :=
    .execute (q := nestedCategories) .start (by decide +kernel) (by decide +kernel)
      (by decide +kernel)
  exact (hierarchy_acyclic hrun).1 _ List.mem_cons_self

/-- Two categories with each other as parent, inserted together. -/
def crossedCategories : Statement :=
  .insertCategories [systemCategory 1 (py "travel") (some 2), systemCategory 2 (py "rail") (some 1)]

/-- Where every category has a parent, none reaches a root. -/
theorem not_reachesRoot {categories : List Category} (h : ∀ c ∈ categories, c.parentCategoryId ≠ none)
    {c : Category} (hc : c ∈ categories) : ¬ ReachesRoot categories c := by
  intro hreaches
  obtain ⟨n, root, hfollow, hroot⟩ := hreaches
  induction n generalizing c with
  | zero =>
    obtain rfl := Option.some.inj hfollow
    exact h c hc hroot
  | succ n ih =>
    obtain ⟨next, hnext, hrest⟩ := Option.bind_eq_some_iff.1 hfollow
    obtain ⟨parent, -, hget⟩ := Option.bind_eq_some_iff.1 hnext
    exact ih (Table.mem_of_get hget) hrest

/-- The statement is accepted: the first row's parent is not there yet, and from the second row's
    parent the walk ends before the row itself. -/
theorem hierarchy_cycle : ¬ ∀ (users merchants : List Uuid) (t : Tables),
    rules.Run (fun _ _ => True) (Tables.empty users merchants) t →
      ∀ c ∈ t.categories, ReachesRoot t.categories c := by
  intro h
  have hrun : rules.Run (fun _ _ => True) (Tables.empty [] []) ⟨[], [],
      [systemCategory 1 (py "travel") (some 2), systemCategory 2 (py "rail") (some 1)], []⟩ :=
    .execute (q := crossedCategories) .start (by decide +kernel)
      (Rules.meets_of_forall (fun _ _ => trivial) _ _) (by decide +kernel)
  have hreaches := h [] [] _ hrun (systemCategory 1 (py "travel") (some 2)) List.mem_cons_self
  refine not_reachesRoot ?_ List.mem_cons_self hreaches
  decide +kernel

end Expensea.Database
