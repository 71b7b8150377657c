import Mathlib.Algebra.BigOperators.Group.List.Basic
import Mathlib.Algebra.Order.Group.Unbundled.Basic
import Mathlib.Data.List.Dedup
import Mathlib.Data.List.Induction
import Mathlib.Tactic.Common

namespace Group

/-!
# Grouped sums

`SELECT key, sum(value) ... GROUP BY key` over a list of rows, and looking a group up in the
result.

* `sums` — one entry for each key;
* `lookup_sums` — the entry of a key is the sum over its rows;
* `sum_sums` — all entries together are the sum over all rows;
* `collect`, `mem_collect` — a dictionary of lists, filled row by row.
-/

variable {R κ V : Type} [DecidableEq κ] [AddCommMonoid V] (key : R → κ) (value : R → V)

/-- The sum of the values of one key. -/
def sumOf (k : κ) (rows : List R) : V := ((rows.filter fun r => key r = k).map value).sum

/-- One entry for each key, with the sum of its values. -/
def sums (rows : List R) : List (κ × V) := (rows.map key).dedup.map fun k => (k, sumOf key value k rows)

/-- `totals.get(k, 0)` -/
def lookup (k : κ) (totals : List (κ × V)) : V :=
  ((totals.find? fun t => t.1 = k).map Prod.snd).getD 0

variable {key value}

theorem keys_sums (rows : List R) : (sums key value rows).map Prod.fst = (rows.map key).dedup := by
  rw [sums, List.map_map]
  exact List.map_id _

theorem mem_keys_sums {rows : List R} {k : κ} :
    k ∈ (sums key value rows).map Prod.fst ↔ ∃ r ∈ rows, key r = k := by
  rw [keys_sums, List.mem_dedup, List.mem_map]

/-- A key without rows sums to nothing. -/
theorem sumOf_eq_zero {rows : List R} {k : κ} (h : ∀ r ∈ rows, key r ≠ k) :
    sumOf key value k rows = 0 := by
  have hnone : rows.filter (fun r => key r = k) = [] :=
    List.filter_eq_nil_iff.2 fun r hr => by simpa using h r hr
  rw [sumOf, hnone]
  rfl

/-- The entry of a key is the sum over its rows. -/
theorem lookup_sums (rows : List R) (k : κ) :
    lookup k (sums key value rows) = sumOf key value k rows := by
  have hfind : ∀ ks : List κ, lookup k (ks.map fun k => (k, sumOf key value k rows)) =
      if k ∈ ks then sumOf key value k rows else 0 := by
    intro ks
    induction ks with
    | nil => rfl
    | cons a ks ih =>
      by_cases ha : a = k
      · subst ha
        simp [lookup]
      · have hskip : lookup k ((a :: ks).map fun k => (k, sumOf key value k rows)) =
            lookup k (ks.map fun k => (k, sumOf key value k rows)) := by
          rw [lookup, List.map_cons, List.find?_cons_of_neg (by simpa using ha), lookup]
        have hmem : k ∈ a :: ks ↔ k ∈ ks := by
          rw [List.mem_cons, or_iff_right (Ne.symm ha)]
        rw [hskip, ih]
        simp only [hmem]
  rw [sums, hfind]
  split_ifs with hmem
  · rfl
  · refine (sumOf_eq_zero fun r hr hk => hmem ?_).symm
    rw [List.mem_dedup, ← hk]
    exact List.mem_map_of_mem hr

/-- Over distinct keys that cover the rows, the sums of the keys add up to the sum of all. -/
theorem sum_sumOf {rows : List R} {ks : List κ} (hn : ks.Nodup) (h : ∀ r ∈ rows, key r ∈ ks) :
    (ks.map fun k => sumOf key value k rows).sum = (rows.map value).sum := by
  induction rows with
  | nil =>
    have hzero : ∀ k ∈ ks, sumOf key value k [] = 0 := fun _ _ => rfl
    rw [List.map_congr_left hzero]
    simp
  | cons r rows ih =>
    have hcons : ∀ k, sumOf key value k (r :: rows) =
        (if key r = k then value r else 0) + sumOf key value k rows := by
      intro k
      by_cases hk : key r = k
      · rw [if_pos hk, sumOf, List.filter_cons_of_pos (by simpa using hk), List.map_cons,
          List.sum_cons, sumOf]
      · rw [if_neg hk, zero_add, sumOf, List.filter_cons_of_neg (by simpa using hk), sumOf]
    have hone : (ks.map fun k => if key r = k then value r else 0).sum = value r := by
      have hsingle : ∀ l : List κ, l.Nodup →
          (l.map fun k => if key r = k then value r else 0).sum =
            if key r ∈ l then value r else 0 := by
        intro l
        induction l with
        | nil => intro _; rfl
        | cons a l ihl =>
          intro hl
          rw [List.map_cons, List.sum_cons, ihl (List.nodup_cons.1 hl).2]
          by_cases ha : key r = a
          · have hnot : key r ∉ l := ha ▸ (List.nodup_cons.1 hl).1
            rw [if_pos ha, if_neg hnot, add_zero, if_pos (ha ▸ List.mem_cons_self)]
          · rw [if_neg ha, zero_add]
            simp only [List.mem_cons, ha, false_or]
      rw [hsingle ks hn, if_pos (h r List.mem_cons_self)]
    have hrest := ih fun r' hr' => h r' (List.mem_cons_of_mem r hr')
    simp only [hcons]
    rw [List.sum_map_add, hone, hrest, List.map_cons, List.sum_cons]

/-- All entries together are the sum over all rows. -/
theorem sum_sums (rows : List R) :
    ((sums key value rows).map Prod.snd).sum = (rows.map value).sum := by
  rw [sums, List.map_map]
  exact sum_sumOf (List.nodup_dedup _) fun r hr => List.mem_dedup.2 (List.mem_map_of_mem hr)

/-! ### Lists of rows -/

section Collect

/-- `groups[k].append(r)`: the key keeps its place, and a new one comes last. -/
def insertInto (k : κ) (r : R) : List (κ × List R) → List (κ × List R)
  | [] => [(k, [r])]
  | g :: gs => if g.1 = k then (g.1, g.2 ++ [r]) :: gs else g :: insertInto k r gs

/-- The rows under each key, in the order in which they come. -/
def collect (rows : List (κ × R)) : List (κ × List R) :=
  rows.foldl (fun gs r => insertInto r.1 r.2 gs) []

theorem mem_keys_insertInto {k k' : κ} {r : R} {gs : List (κ × List R)} :
    k' ∈ (insertInto k r gs).map Prod.fst ↔ k' = k ∨ k' ∈ gs.map Prod.fst := by
  induction gs with
  | nil => simp [insertInto]
  | cons g gs ih =>
    rw [insertInto]
    by_cases hg : g.1 = k
    · rw [if_pos hg, List.map_cons, List.map_cons, List.mem_cons, hg]
      constructor
      · intro h
        exact .inr h
      · intro h
        rcases h with h | h
        · exact .inl h
        · exact h
    · rw [if_neg hg, List.map_cons, List.map_cons, List.mem_cons, List.mem_cons, ih, or_left_comm]

theorem nodup_insertInto {k : κ} {r : R} {gs : List (κ × List R)} (h : (gs.map Prod.fst).Nodup) :
    ((insertInto k r gs).map Prod.fst).Nodup := by
  induction gs with
  | nil => exact List.nodup_singleton k
  | cons g gs ih =>
    obtain ⟨hnot, hrest⟩ := List.nodup_cons.1 h
    rw [insertInto]
    by_cases hg : g.1 = k
    · rw [if_pos hg]
      exact h
    · rw [if_neg hg]
      refine List.nodup_cons.2 ⟨fun hmem => ?_, ih hrest⟩
      rcases mem_keys_insertInto.1 hmem with heq | hmem
      · exact hg heq
      · exact hnot hmem

/-- What is under a key after an insertion. -/
theorem mem_insertInto {k k' : κ} {r : R} {rs : List R} {gs : List (κ × List R)}
    (h : (gs.map Prod.fst).Nodup) : (k', rs) ∈ insertInto k r gs ↔
      k' ≠ k ∧ (k', rs) ∈ gs ∨ k' = k ∧ ∃ old, rs = old ++ [r] ∧
        ((k, old) ∈ gs ∨ old = [] ∧ k ∉ gs.map Prod.fst) := by
  induction gs with
  | nil =>
    rw [insertInto, List.mem_singleton, Prod.mk.injEq]
    simp
  | cons g gs ih =>
    obtain ⟨hnot, hrest⟩ := List.nodup_cons.1 h
    obtain ⟨key, list⟩ := g
    rw [insertInto]
    dsimp only at hnot ⊢
    by_cases hg : key = k
    · subst hg
      have habsent : ∀ old, (key, old) ∉ gs := fun old hmem =>
        hnot (List.mem_map_of_mem (f := Prod.fst) hmem)
      rw [if_pos rfl]
      simp only [List.mem_cons, Prod.mk.injEq, List.map_cons, true_or, not_true_eq_false, and_false,
        or_false, true_and]
      constructor
      · rintro (⟨rfl, rfl⟩ | hmem)
        · exact .inr ⟨rfl, list, rfl, .inl rfl⟩
        · exact .inl ⟨fun heq => habsent rs (heq ▸ hmem), .inr hmem⟩
      · rintro (⟨hne, ⟨heq, -⟩ | hmem⟩ | ⟨rfl, old, rfl, rfl | hmem⟩)
        · exact absurd heq hne
        · exact .inr hmem
        · exact .inl ⟨rfl, rfl⟩
        · exact absurd hmem (habsent old)
    · rw [if_neg hg, List.mem_cons, ih hrest]
      simp only [List.mem_cons, Prod.mk.injEq, List.map_cons, Ne.symm hg, false_and, false_or]
      constructor
      · rintro (⟨rfl, rfl⟩ | ⟨hne, hmem⟩ | hnew)
        · exact .inl ⟨hg, .inl ⟨rfl, rfl⟩⟩
        · exact .inl ⟨hne, .inr hmem⟩
        · exact .inr hnew
      · rintro (⟨hne, ⟨rfl, rfl⟩ | hmem⟩ | hnew)
        · exact .inl ⟨rfl, rfl⟩
        · exact .inr (.inl ⟨hne, hmem⟩)
        · exact .inr (.inr hnew)

/-- The rows of a key among pairs. -/
def rowsOf (k : κ) (rows : List (κ × R)) : List R := (rows.filter fun r => r.1 = k).map Prod.snd

theorem collect_spec (rows : List (κ × R)) : ((collect rows).map Prod.fst).Nodup ∧
    ∀ k rs, (k, rs) ∈ collect rows ↔ rs ≠ [] ∧ rs = rowsOf k rows := by
  induction rows using List.reverseRecOn with
  | nil =>
    refine ⟨List.nodup_nil, fun k rs => ?_⟩
    simp [collect, rowsOf]
  | append_singleton rows r ih =>
    obtain ⟨hn, hmem⟩ := ih
    obtain ⟨key, row⟩ := r
    have hsnoc : collect (rows ++ [(key, row)]) = insertInto key row (collect rows) := by
      rw [collect, List.foldl_append]
      rfl
    have hkeys : key ∈ (collect rows).map Prod.fst ↔ rowsOf key rows ≠ [] := by
      rw [List.mem_map]
      constructor
      · rintro ⟨⟨k, rs⟩, hrs, rfl⟩
        obtain ⟨hne, heq⟩ := (hmem k rs).1 hrs
        rw [← heq]
        exact hne
      · intro hne
        exact ⟨(key, rowsOf key rows), (hmem _ _).2 ⟨hne, rfl⟩, rfl⟩
    rw [hsnoc]
    refine ⟨nodup_insertInto hn, fun k rs => ?_⟩
    rw [mem_insertInto hn]
    by_cases hk : k = key
    · subst hk
      have hrows : rowsOf k (rows ++ [(k, row)]) = rowsOf k rows ++ [row] := by
        simp [rowsOf, List.filter_append]
      rw [hrows, hkeys]
      simp only [ne_eq, not_true_eq_false, false_and, false_or, true_and, hmem, not_not]
      constructor
      · rintro ⟨old, rfl, ⟨-, rfl⟩ | ⟨rfl, hnone⟩⟩
        · exact ⟨by simp, rfl⟩
        · rw [hnone]
          exact ⟨by simp, rfl⟩
      · rintro ⟨-, rfl⟩
        refine ⟨_, rfl, ?_⟩
        by_cases hnone : rowsOf k rows = []
        · exact .inr ⟨hnone, hnone⟩
        · exact .inl ⟨hnone, rfl⟩
    · have hrows : rowsOf k (rows ++ [(key, row)]) = rowsOf k rows := by
        simp [rowsOf, List.filter_append, Ne.symm hk]
      rw [hrows, hmem]
      simp [hk]

/-- A group is the rows of its key, if there are any. -/
theorem mem_collect {rows : List (κ × R)} {k : κ} {rs : List R} :
    (k, rs) ∈ collect rows ↔ rs ≠ [] ∧ rs = rowsOf k rows := (collect_spec rows).2 k rs

/-- Among the rows that have a key, those of one key. -/
theorem rowsOf_keyed {key : R → Option κ} {rows : List R} {k : κ} :
    rowsOf k (rows.filterMap fun r => (key r).map fun k => (k, r)) =
      rows.filter fun r => key r = some k := by
  rw [rowsOf]
  induction rows with
  | nil => rfl
  | cons r rows ih =>
    rw [List.filterMap_cons]
    cases hkey : key r with
    | none => simpa [hkey] using ih
    | some k' =>
      by_cases hk : k' = k
      · simpa [hkey, hk] using ih
      · simpa [hkey, hk] using ih

end Collect

end Group
