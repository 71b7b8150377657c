import Mathlib.Data.List.Basic
import Mathlib.Data.List.Nodup

/-!
# Tables

A database table is a list of rows in insertion order; a primary key is a
projection of the row.  `Table.get` reads a row by key and `Table.set` updates it in
place, so an update is a pointwise map and keeps the keys.
-/

namespace Table

variable {R κ : Type} [DecidableEq κ] (key : R → κ)

/-- The row with key `k`. -/
def get (k : κ) (t : List R) : Option R := t.find? fun r => decide (key r = k)

/-- Update the row with key `k` by `f`. -/
def set (k : κ) (f : R → R) (t : List R) : List R := t.map fun r => if key r = k then f r else r

variable {key}

theorem mem_of_get {k : κ} {t : List R} {r : R} (h : get key k t = some r) : r ∈ t :=
  List.mem_of_find?_eq_some h

theorem key_of_get {k : κ} {t : List R} {r : R} (h : get key k t = some r) : key r = k := by
  simpa using List.find?_some h

theorem get_eq_none_iff {k : κ} {t : List R} : get key k t = none ↔ ∀ r ∈ t, key r ≠ k := by
  simp [get, List.find?_eq_none]

/-- With distinct keys a row is found under its own key. -/
theorem get_of_mem {t : List R} (hn : (t.map key).Nodup) {r : R} (hr : r ∈ t) :
    get key (key r) t = some r := by
  cases hg : get key (key r) t with
  | none => exact absurd rfl (get_eq_none_iff.1 hg r hr)
  | some r' =>
    rw [List.inj_on_of_nodup_map hn (mem_of_get hg) hr (key_of_get hg)]

/-- With distinct keys, reading by key is membership. -/
theorem get_eq_some_iff {t : List R} (hn : (t.map key).Nodup) {k : κ} {r : R} :
    get key k t = some r ↔ r ∈ t ∧ key r = k :=
  ⟨fun h => ⟨mem_of_get h, key_of_get h⟩, fun ⟨hr, hk⟩ => hk ▸ get_of_mem hn hr⟩

theorem mem_set {k : κ} {f : R → R} {t : List R} {r : R} :
    r ∈ set key k f t ↔ ∃ r₀ ∈ t, r = if key r₀ = k then f r₀ else r₀ := by
  simp only [set, List.mem_map, eq_comm]

/-- An update that keeps the key of the row it changes keeps the list of keys. -/
theorem map_key_set {k : κ} {f : R → R} (hf : ∀ r, key (f r) = key r) (t : List R) :
    (set key k f t).map key = t.map key := by
  rw [set, List.map_map]
  refine List.map_congr_left fun r _ => ?_
  by_cases h : key r = k <;> simp [h, hf]

/-- Replacing a row by one with its key keeps the list of keys. -/
theorem map_key_set_const (r : R) (t : List R) :
    (set key (key r) (fun _ => r) t).map key = t.map key := by
  rw [set, List.map_map]
  refine List.map_congr_left fun r' _ => ?_
  show key (if key r' = key r then r else r') = key r'
  by_cases h : key r' = key r
  · rw [if_pos h, h]
  · rw [if_neg h]

/-- An update that keeps a property of the row it changes commutes with selecting by it. -/
theorem filter_set {k : κ} {f : R → R} {p : R → Bool} {t : List R}
    (h : ∀ r ∈ t, key r = k → p (f r) = p r) :
    (set key k f t).filter p = set key k f (t.filter p) := by
  induction t with
  | nil => rfl
  | cons r t ih =>
    have ih := ih fun r' hr' => h r' (List.mem_cons_of_mem _ hr')
    have hset : ∀ t' : List R, set key k f (r :: t') =
        (if key r = k then f r else r) :: set key k f t' := fun _ => rfl
    have hp : p (if key r = k then f r else r) = p r := by
      by_cases hk : key r = k
      · rw [if_pos hk]
        exact h r List.mem_cons_self hk
      · rw [if_neg hk]
    rw [hset, List.filter_cons, List.filter_cons, hp, ih]
    by_cases hr : p r = true
    · rw [if_pos hr, if_pos hr, hset]
    · rw [if_neg hr, if_neg hr]

/-- An update of a key that no row has changes nothing. -/
theorem set_of_notMem {k : κ} {f : R → R} {t : List R} (h : ∀ r ∈ t, key r ≠ k) :
    set key k f t = t := by
  refine (List.map_congr_left fun r hr => ?_).trans (List.map_id t)
  exact if_neg (h r hr)

/-- After a replacement a row is the new one, or one of another key. -/
theorem mem_set_const {k : κ} {t : List R} {r' r : R} (h : r ∈ set key k (fun _ => r') t) :
    r = r' ∨ r ∈ t ∧ key r ≠ k := by
  obtain ⟨r₀, hr₀, rfl⟩ := mem_set.1 h
  by_cases hk : key r₀ = k
  · exact .inl (if_pos hk)
  · rw [if_neg hk]
    exact .inr ⟨hr₀, hk⟩

/-- The new row is there after a replacement that found its key. -/
theorem mem_set_self {t : List R} {r' r : R} (hr : r ∈ t) (hkey : key r' = key r) :
    r' ∈ set key (key r') (fun _ => r') t :=
  mem_set.2 ⟨r, hr, (if_pos hkey.symm).symm⟩

/-- Rows of other keys stay. -/
theorem mem_set_of_ne {k : κ} {f : R → R} {t : List R} {r : R} (hr : r ∈ t) (hkey : key r ≠ k) :
    r ∈ set key k f t :=
  mem_set.2 ⟨r, hr, (if_neg hkey).symm⟩

/-- Reading another key than the one that was updated. -/
theorem get_set_of_ne {k k' : κ} {f : R → R} {t : List R} (hne : k' ≠ k)
    (hf : ∀ r, key r = k' → key (f r) = k') : get key k (set key k' f t) = get key k t := by
  induction t with
  | nil => rfl
  | cons r t ih =>
    show List.find? _ ((if key r = k' then f r else r) :: set key k' f t) = List.find? _ (r :: t)
    by_cases hr : key r = k'
    · have hold : ¬ key r = k := fun h => hne (hr.symm.trans h)
      have hnew : ¬ key (f r) = k := fun h => hne ((hf r hr).symm.trans h)
      rw [if_pos hr, List.find?_cons_of_neg (by simpa using hnew),
        List.find?_cons_of_neg (by simpa using hold)]
      exact ih
    · rw [if_neg hr, List.find?_cons, List.find?_cons]
      split
      · rfl
      · exact ih

/-- Reading another key than the one of an appended row. -/
theorem get_append_one_of_ne {k : κ} {t : List R} {r : R} (hne : key r ≠ k) :
    get key k (t ++ [r]) = get key k t := by
  rw [get, List.find?_append, List.find?_cons_of_neg (by simpa using hne), List.find?_nil,
    Option.or_none, get]

/-- Reading the key of a row that was replaced. -/
theorem get_set_const {k : κ} {t : List R} {r r' : R} (h : get key k t = some r)
    (hkey : key r' = k) : get key k (set key k (fun _ => r') t) = some r' := by
  induction t with
  | nil => cases h
  | cons a t ih =>
    show List.find? _ ((if key a = k then r' else a) :: set key k (fun _ => r') t) = some r'
    by_cases ha : key a = k
    · rw [if_pos ha, List.find?_cons_of_pos (by simpa using hkey)]
    · rw [if_neg ha, List.find?_cons_of_neg (by simpa using ha)]
      refine ih ?_
      rwa [get, List.find?_cons_of_neg (by simpa using ha)] at h

/-- An update in a list of one row. -/
theorem set_singleton {k : κ} {f : R → R} {r : R} (h : key r = k) : set key k f [r] = [f r] := by
  show [if key r = k then f r else r] = [f r]
  rw [if_pos h]

omit [DecidableEq κ] in
/-- Distinct keys stay distinct when a fresh one is added. -/
theorem nodup_append_one {t : List R} {r : R} (hn : (t.map key).Nodup)
    (hfresh : ∀ r' ∈ t, key r' ≠ key r) : ((t ++ [r]).map key).Nodup := by
  rw [List.map_append]
  refine hn.append (List.nodup_singleton _) fun k hk hr => ?_
  obtain ⟨r', hr', rfl⟩ := List.mem_map.1 hk
  exact hfresh r' hr' (List.mem_singleton.1 hr)

/-- Distinct keys stay distinct when a row is replaced by one whose key no other row has. -/
theorem nodup_set_const {k : κ} {t : List R} {r' : R} (hn : (t.map key).Nodup)
    (hfresh : ∀ r ∈ t, key r ≠ k → key r ≠ key r') :
    ((set key k (fun _ => r') t).map key).Nodup := by
  induction t with
  | nil => exact List.nodup_nil
  | cons r t ih =>
    rw [List.map_cons, List.nodup_cons] at hn
    show (key (if key r = k then r' else r) :: (set key k (fun _ => r') t).map key).Nodup
    rw [List.nodup_cons]
    refine ⟨fun hmem => ?_, ih hn.2 fun a ha => hfresh a (List.mem_cons_of_mem _ ha)⟩
    obtain ⟨a, ha, hkey⟩ := List.mem_map.1 hmem
    by_cases hr : key r = k
    · -- the replaced row is the first one, so the rest is as it was
      have hrest : ∀ b ∈ t, key b ≠ k := fun b hb hkey' =>
        hn.1 (hr.trans hkey'.symm ▸ List.mem_map_of_mem hb)
      rw [set_of_notMem hrest] at ha
      rw [if_pos hr] at hkey
      exact hfresh a (List.mem_cons_of_mem _ ha) (hrest a ha) hkey
    · rw [if_neg hr] at hkey
      rcases mem_set_const ha with rfl | ⟨hat, -⟩
      · exact hfresh r List.mem_cons_self hr hkey.symm
      · exact hn.1 (hkey ▸ List.mem_map_of_mem hat)

omit [DecidableEq κ] in
/-- A key check that passed: no row has the key. -/
theorem fresh_of_any [BEq κ] [LawfulBEq κ] {t : List R} {k : κ}
    (h : ¬ (t.any fun r => key r == k) = true) : ∀ r ∈ t, key r ≠ k := by
  intro r hr hk
  exact h (List.any_eq_true.2 ⟨r, hr, by simp [hk]⟩)

/-- A row that is the first of its kind is found once it is added. -/
theorem find?_append_fresh {t : List R} {p : R → Bool} {r : R} (ht : ∀ r' ∈ t, p r' = false)
    (hr : p r = true) : (t ++ [r]).find? p = some r := by
  rw [List.find?_append, List.find?_eq_none.2 fun r' hr' => by rw [ht r' hr']; simp,
    Option.none_or, List.find?_cons_of_pos hr]

/-- A row that no other one matches is the one that is found. -/
theorem find?_of_unique {t : List R} {p : R → Bool} {r : R} (hr : r ∈ t) (hp : p r = true)
    (hunique : ∀ r' ∈ t, p r' = true → r' = r) : t.find? p = some r := by
  cases hfound : t.find? p with
  | none => exact absurd hp (List.find?_eq_none.1 hfound r hr)
  | some r' => rw [hunique r' (List.mem_of_find?_eq_some hfound) (List.find?_some hfound)]

omit [DecidableEq κ] in
/-- With distinct keys, selecting by a key leaves the one row that has it. -/
theorem filter_eq_singleton {t : List R} (hn : (t.map key).Nodup) {r : R} (hr : r ∈ t)
    {p : R → Bool} (hp : ∀ r' ∈ t, p r' = true ↔ key r' = key r) : t.filter p = [r] := by
  induction t with
  | nil => cases hr
  | cons a t ih =>
    rw [List.map_cons, List.nodup_cons] at hn
    have hpt : ∀ r' ∈ t, p r' = true ↔ key r' = key r :=
      fun r' hr' => hp r' (List.mem_cons_of_mem _ hr')
    rcases List.mem_cons.1 hr with rfl | hmem
    · have hrest : t.filter p = [] := by
        refine List.filter_eq_nil_iff.2 fun r' hr' hpr' => hn.1 ?_
        rw [← (hpt r' hr').1 hpr']
        exact List.mem_map_of_mem hr'
      rw [List.filter_cons_of_pos ((hp r List.mem_cons_self).2 rfl), hrest]
    · have ha : ¬ p a = true := fun hpa => hn.1 <| by
        rw [(hp a List.mem_cons_self).1 hpa]
        exact List.mem_map_of_mem hmem
      rw [List.filter_cons_of_neg ha]
      exact ih hn.2 hmem hpt

/-! ### Joins -/

/-- `OUTER JOIN t ON p`: the matching rows, or one null row. -/
def outerJoin (p : R → Bool) (t : List R) : List (Option R) :=
  match t.filter p with
  | [] => [none]
  | r :: rs => (r :: rs).map some

omit [DecidableEq κ] in
/-- A join on a key finds at most one row. -/
theorem outerJoin_eq {t : List R} (hn : (t.map key).Nodup) {k : κ} {p : R → Bool}
    (hp : ∀ r ∈ t, p r = true → key r = k) : outerJoin p t = [t.find? p] := by
  rw [outerJoin]
  cases hfound : t.find? p with
  | none => rw [List.filter_eq_nil_iff.2 fun r hr => List.find?_eq_none.1 hfound r hr]
  | some r =>
    have hr := List.mem_of_find?_eq_some hfound
    have hmatch := List.find?_some hfound
    have hone : t.filter p = [r] := filter_eq_singleton hn hr fun r' hr' =>
      ⟨fun hr'p => (hp r' hr' hr'p).trans (hp r hr hmatch).symm, fun hkey => by
        rwa [List.inj_on_of_nodup_map hn hr' hr hkey]⟩
    rw [hone]
    rfl

/-! ### Rows that refer to something -/

section References

variable {ρ : Type} [DecidableEq ρ] {ref : R → ρ}

/-- The rows that refer to `b`, after a row was added. -/
theorem filter_append_one {t : List R} {r : R} (b : ρ) :
    (t ++ [r]).filter (ref · == b) =
      if ref r = b then t.filter (ref · == b) ++ [r] else t.filter (ref · == b) := by
  rw [List.filter_append]
  by_cases h : ref r = b
  · rw [if_pos h, List.filter_cons_of_pos (by simpa using h), List.filter_nil]
  · rw [if_neg h, List.filter_cons_of_neg (by simpa using h), List.filter_nil, List.append_nil]

/-- The rows that refer to `b`, after the only row of a key was replaced by one with the same
    reference. -/
theorem filter_set_const {t : List R} {r r' : R} (hn : (t.map key).Nodup) (hr : r ∈ t)
    (hkey : key r' = key r) (href : ref r' = ref r) (b : ρ) :
    (set key (key r') (fun _ => r') t).filter (ref · == b) =
      if ref r = b then set key (key r') (fun _ => r') (t.filter (ref · == b))
      else t.filter (ref · == b) := by
  have hone : ∀ r₀ ∈ t, key r₀ = key r' → r₀ = r := fun r₀ hr₀ h =>
    List.inj_on_of_nodup_map hn hr₀ hr (h.trans hkey)
  rw [filter_set fun r₀ hr₀ h => by rw [hone r₀ hr₀ h, href]]
  by_cases h : ref r = b
  · rw [if_pos h]
  · rw [if_neg h]
    refine set_of_notMem fun r₀ hr₀ h' => h ?_
    obtain ⟨hmem, hb⟩ := List.mem_filter.1 hr₀
    rw [← hone r₀ hmem h']
    simpa using hb

end References

/-- An update touches one row, so it adds at most one to any count. -/
theorem countP_set_le {k : κ} {f : R → R} {p : R → Bool} {t : List R} (hn : (t.map key).Nodup) :
    (set key k f t).countP p ≤ t.countP p + 1 := by
  induction t with
  | nil => simp [set]
  | cons r t ih =>
    rw [List.map_cons, List.nodup_cons] at hn
    by_cases h : key r = k
    · -- the row with key `k` is the first one: the rest is as it was
      have hrest : set key k f t = t := by
        refine (List.map_congr_left fun r' hr' => ?_).trans (List.map_id t)
        have : key r' ≠ k := fun e => hn.1 (h.trans e.symm ▸ List.mem_map_of_mem hr')
        simp [this]
      have hset : set key k f (r :: t) = f r :: set key k f t := by simp [set, h]
      rw [hset, hrest, List.countP_cons, List.countP_cons]
      split <;> split <;> omega
    · have hset : set key k f (r :: t) = r :: set key k f t := by simp [set, h]
      rw [hset, List.countP_cons, List.countP_cons]
      have := ih hn.2
      omega

end Table
