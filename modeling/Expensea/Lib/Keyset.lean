import Mathlib.Data.List.Sort
import Mathlib.Tactic.Common
import Mathlib.Order.WellFounded

namespace Keyset

/-!
# Keyset pagination

Rows with distinct keys, read page by page in descending order of their keys: a page starts
below the last key of the page before, and a row more than the page holds tells whether
another page follows.

* `Walk` — following the last key from page to page, while the rows may change in between;
* `exists_walk` — where keys cannot descend for ever, the walk ends;
* `Walk.descending`, `Walk.complete` — it yields rows in descending order, and every row that
  stays from the start;
* `Walk.exact` — if the rows do not change, it yields them all.
-/

variable {R K : Type} [LinearOrder K] (key : R → K)

/-- The rows below a cursor. -/
def before (cursor : Option K) (rows : List R) : List R :=
  rows.filter fun r => cursor.all fun k => key r < k

/-- The rows in descending order. -/
def timeline (rows : List R) : List R := rows.insertionSort fun a b => key b ≤ key a

variable {key}

theorem mem_before {cursor : Option K} {rows : List R} {r : R} :
    r ∈ before key cursor rows ↔ r ∈ rows ∧ ∀ k, cursor = some k → key r < k := by
  rw [before, List.mem_filter, Option.all_eq_true]
  simp only [decide_eq_true_eq]

theorem mem_timeline {rows : List R} {r : R} : r ∈ timeline key rows ↔ r ∈ rows :=
  List.mem_insertionSort _

theorem nodup_before (cursor : Option K) {rows : List R} (hn : (rows.map key).Nodup) :
    ((before key cursor rows).map key).Nodup := hn.sublist (List.filter_sublist.map key)

/-- With distinct keys the order is strict. -/
theorem timeline_descending {rows : List R} (hn : (rows.map key).Nodup) :
    (timeline key rows).Pairwise fun a b => key b < key a := by
  have htotal : Std.Total fun a b : R => key b ≤ key a := ⟨fun a b => le_total (key b) (key a)⟩
  have htrans : IsTrans R fun a b : R => key b ≤ key a := ⟨fun _ _ _ hab hbc => hbc.trans hab⟩
  have hsorted := List.pairwise_insertionSort (fun a b : R => key b ≤ key a) rows
  have hdistinct : ((timeline key rows).map key).Nodup :=
    ((List.perm_insertionSort _ rows).map key).nodup_iff.2 hn
  rw [List.Nodup, List.pairwise_map] at hdistinct
  exact hsorted.imp₂ (fun a b hle hne => lt_of_le_of_ne hle (Ne.symm hne)) hdistinct

/-- Lists in strictly descending order with the same rows are the same. -/
theorem eq_of_descending {l l' : List R} (h : l.Pairwise fun a b => key b < key a)
    (h' : l'.Pairwise fun a b => key b < key a) (hmem : ∀ r, r ∈ l ↔ r ∈ l') : l = l' := by
  have hantisymm : Std.Antisymm fun a b : R => key b < key a :=
    ⟨fun _ _ hab hba => absurd hab hba.asymm⟩
  have hirrefl : Std.Irrefl fun a b : R => key b < key a := ⟨fun _ => lt_irrefl _⟩
  exact h.eq_of_mem_iff h' hmem

/-- In a strictly descending list, what comes after a row is what has a smaller key. -/
theorem mem_drop_iff {l : List R} (h : l.Pairwise fun a b => key b < key a) {n : Nat} {r : R}
    (hr : l[n]? = some r) {a : R} : a ∈ l.drop (n + 1) ↔ a ∈ l ∧ key a < key r := by
  obtain ⟨hlt, hget⟩ := List.getElem?_eq_some_iff.1 hr
  have hsplit : l = l.take n ++ r :: l.drop (n + 1) := by
    rw [← hget, ← List.drop_eq_getElem_cons hlt, List.take_append_drop]
  rw [hsplit, List.pairwise_append, List.pairwise_cons] at h
  obtain ⟨-, ⟨hbelow, -⟩, habove⟩ := h
  constructor
  · exact fun ha => ⟨List.mem_of_mem_drop ha, hbelow a ha⟩
  · rintro ⟨ha, hkey⟩
    rw [hsplit, List.mem_append, List.mem_cons] at ha
    rcases ha with ha | rfl | ha
    · exact absurd hkey (habove a ha r List.mem_cons_self).asymm
    · exact absurd hkey (lt_irrefl _)
    · exact ha

/-- In a strictly descending list, what comes up to a row has no smaller key. -/
theorem le_of_mem_take {l : List R} (h : l.Pairwise fun a b => key b < key a) {n : Nat} {r : R}
    (hr : l[n]? = some r) {a : R} (ha : a ∈ l.take (n + 1)) : key r ≤ key a := by
  obtain ⟨hlt, hget⟩ := List.getElem?_eq_some_iff.1 hr
  have hsplit : l.take (n + 1) = l.take n ++ [r] := by
    rw [List.take_add_one, hr, Option.toList_some]
  rw [hsplit, List.mem_append, List.mem_singleton] at ha
  rcases ha with ha | rfl
  · have hpair := (h.sublist (List.take_sublist (n + 1) l))
    rw [hsplit, List.pairwise_append] at hpair
    exact (hpair.2.2 a ha r (List.mem_singleton_self r)).le
  · exact le_refl _

/-- Below the last row of a page, the rest of the rows below the cursor follow. -/
theorem timeline_rest {cursor : Option K} {rows : List R} (hn : (rows.map key).Nodup) {n : Nat}
    {r : R} (hr : (timeline key (before key cursor rows))[n]? = some r) :
    timeline key (before key (some (key r)) rows) =
      (timeline key (before key cursor rows)).drop (n + 1) := by
  have hdesc := timeline_descending (nodup_before cursor hn)
  have hmem : r ∈ before key cursor rows := mem_timeline.1 (List.mem_of_getElem? hr)
  refine eq_of_descending (timeline_descending (nodup_before _ hn))
    (hdesc.sublist (List.drop_sublist _ _)) fun a => ?_
  rw [mem_timeline, mem_before, mem_drop_iff hdesc hr, mem_timeline, mem_before]
  constructor
  · rintro ⟨ha, hlt⟩
    refine ⟨⟨ha, fun k hk => ?_⟩, hlt _ rfl⟩
    exact (hlt _ rfl).trans ((mem_before.1 hmem).2 k hk)
  · rintro ⟨⟨ha, -⟩, hlt⟩
    refine ⟨ha, fun k hk => ?_⟩
    rwa [← Option.some.inj hk]

/-! ### Walking through the pages -/

/-- The pages from a cursor on, where request `i` reads the rows `rows i` with page size
    `size i + 1`. -/
inductive Walk (key : R → K) (rows : Nat → List R) (size : Nat → Nat) :
    Nat → Option K → List (List R) → Prop
  | last {i : Nat} {cursor : Option K} :
      (timeline key (before key cursor (rows i))).length ≤ size i + 1 →
      Walk key rows size i cursor [timeline key (before key cursor (rows i))]
  | next {i : Nat} {cursor : Option K} {r : R} {pages : List (List R)} :
      size i + 1 < (timeline key (before key cursor (rows i))).length →
      (timeline key (before key cursor (rows i)))[size i]? = some r →
      Walk key rows size (i + 1) (some (key r)) pages →
      Walk key rows size i cursor
        ((timeline key (before key cursor (rows i))).take (size i + 1) :: pages)

variable {rows : Nat → List R} {size : Nat → Nat} {i : Nat} {cursor : Option K}
  {pages : List (List R)}

/-- Where keys cannot descend for ever, the walk ends. -/
theorem exists_walk [WellFoundedLT K] (rows : Nat → List R) (size : Nat → Nat) (i : Nat)
    (cursor : Option K) : ∃ pages, Walk key rows size i cursor pages := by
  -- below a given key, by induction on it
  have hbelow : ∀ k : K, ∀ i, ∃ pages, Walk key rows size i (some k) pages := by
    intro k
    induction k using WellFoundedLT.induction with
    | _ k ih =>
      intro i
      by_cases hlast : (timeline key (before key (some k) (rows i))).length ≤ size i + 1
      · exact ⟨_, .last hlast⟩
      · have hget := List.getElem?_eq_getElem (l := timeline key (before key (some k) (rows i)))
          (i := size i) (by omega)
        have hmem := mem_before.1 (mem_timeline.1 (List.mem_of_getElem? hget))
        obtain ⟨pages, hpages⟩ := ih _ (hmem.2 k rfl) (i + 1)
        exact ⟨_, .next (by omega) hget hpages⟩
  by_cases hlast : (timeline key (before key cursor (rows i))).length ≤ size i + 1
  · exact ⟨_, .last hlast⟩
  · have hget := List.getElem?_eq_getElem (l := timeline key (before key cursor (rows i)))
      (i := size i) (by omega)
    obtain ⟨pages, hpages⟩ := hbelow (key _) (i + 1)
    exact ⟨_, .next (by omega) hget hpages⟩

/-- The rows of a walk come from what the requests read, below the cursor. -/
theorem Walk.mem (hw : Walk key rows size i cursor pages) :
    ∀ r ∈ pages.flatten, (∃ j, i ≤ j ∧ r ∈ rows j) ∧ ∀ k, cursor = some k → key r < k := by
  induction hw with
  | last _ =>
    intro r hr
    rw [List.flatten_singleton] at hr
    obtain ⟨hmem, hlt⟩ := mem_before.1 (mem_timeline.1 hr)
    exact ⟨⟨_, le_refl _, hmem⟩, hlt⟩
  | @next i cursor a pages _ ha _ ih =>
    intro r hr
    rw [List.flatten_cons, List.mem_append] at hr
    have hbelow := mem_before.1 (mem_timeline.1 (List.mem_of_getElem? ha))
    rcases hr with hr | hr
    · obtain ⟨hmem, hlt⟩ := mem_before.1 (mem_timeline.1 (List.mem_of_mem_take hr))
      exact ⟨⟨_, le_refl _, hmem⟩, hlt⟩
    · obtain ⟨⟨j, hj, hmem⟩, hlt⟩ := ih r hr
      exact ⟨⟨j, by omega, hmem⟩, fun k hk => (hlt _ rfl).trans (hbelow.2 k hk)⟩

/-- A walk yields rows in strictly descending order. -/
theorem Walk.descending (hn : ∀ j, ((rows j).map key).Nodup)
    (hw : Walk key rows size i cursor pages) :
    pages.flatten.Pairwise fun a b => key b < key a := by
  induction hw with
  | last _ =>
    rw [List.flatten_singleton]
    exact timeline_descending (nodup_before _ (hn _))
  | @next i cursor a pages hmore ha hpages ih =>
    have hdesc := timeline_descending (nodup_before cursor (hn i))
    rw [List.flatten_cons, List.pairwise_append]
    refine ⟨hdesc.sublist (List.take_sublist _ _), ih, fun b hb r hr => ?_⟩
    -- the last row of this page stands between the two
    have hlast : key a ≤ key b := le_of_mem_take hdesc ha hb
    exact ((hpages.mem r hr).2 _ rfl).trans_le hlast

/-- A walk yields every row below the cursor that stays. -/
theorem Walk.complete (hn : ∀ j, ((rows j).map key).Nodup)
    (hw : Walk key rows size i cursor pages) {r : R} (hr : ∀ j, i ≤ j → r ∈ rows j)
    (hlt : ∀ k, cursor = some k → key r < k) : r ∈ pages.flatten := by
  induction hw with
  | last _ =>
    rw [List.flatten_singleton, mem_timeline, mem_before]
    exact ⟨hr _ (le_refl _), hlt⟩
  | @next i cursor a pages _ ha _ ih =>
    have hdesc := timeline_descending (nodup_before cursor (hn i))
    have hmem : r ∈ timeline key (before key cursor (rows i)) :=
      mem_timeline.2 (mem_before.2 ⟨hr i (le_refl _), hlt⟩)
    rw [List.flatten_cons, List.mem_append]
    by_cases hbelow : key r < key a
    · refine .inr (ih (fun j hj => hr j (by omega)) fun k hk => ?_)
      rwa [← Option.some.inj hk]
    · -- not below the last row of this page, so on it
      refine .inl ?_
      rw [← List.take_append_drop (size i + 1) (timeline key (before key cursor (rows i))),
        List.mem_append] at hmem
      exact hmem.resolve_right fun hdrop => hbelow ((mem_drop_iff hdesc ha).1 hdrop).2

/-- If the rows do not change, a walk yields all rows below the cursor. -/
theorem Walk.exact {all : List R} (hn : (all.map key).Nodup)
    (hw : Walk key (fun _ => all) size i cursor pages) :
    pages.flatten = timeline key (before key cursor all) := by
  induction hw with
  | last _ => rw [List.flatten_singleton]
  | @next i cursor a pages _ ha _ ih =>
    rw [List.flatten_cons, ih, timeline_rest hn ha, List.take_append_drop]

end Keyset
