import Expensea.Reconciliation.Scoring

namespace Expensea.Reconciliation

/-!
# Matching blocks

Where the blocks of `difflib.SequenceMatcher` lie, and so how large they can be together.

* `findLongestMatch_within` — the longest match lies in the ranges that are searched;
* `matchedSize_le` — the matching blocks fit in both ranges;
* `similarityRatio_range` — the ratio is between zero and one.
-/

section Matching

variable {a b : PyStr} {alo ahi blo bhi : Nat}

/-- The block lies in the ranges that are searched. -/
def BlockWithin (alo ahi blo bhi : Nat) (block : Block) : Prop :=
  alo ≤ block.1 ∧ block.1 + block.2.2 ≤ ahi ∧ blo ≤ block.2.1 ∧ block.2.1 + block.2.2 ≤ bhi

/-- The runs that end before row `i` began in the ranges that are searched. -/
def RunsWithin (alo blo bhi i : Nat) (runs : List (Nat × Nat)) : Prop :=
  ∀ r ∈ runs, blo ≤ r.1 ∧ r.1 < bhi ∧ r.2 + blo ≤ r.1 + 1 ∧ r.2 + alo ≤ i

/-- One position of a row: the run that ends there, and the best block. -/
def rowStep (i : Nat) (runs : List (Nat × Nat)) (acc : List (Nat × Nat) × Block) (j : Nat) :
    List (Nat × Nat) × Block :=
  let before := if j = 0 then 0 else ((runs.find? fun r => r.1 == j - 1).map Prod.snd).getD 0
  let k := before + 1
  (acc.1 ++ [(j, k)], if acc.2.2.2 < k then (i + 1 - k, j + 1 - k, k) else acc.2)

/-- A row goes through positions of the range. -/
theorem matchRow_eq (a b : PyStr) (i blo bhi : Nat) (runs : List (Nat × Nat)) (best : Block) :
    ∃ js : List Nat, (∀ j ∈ js, blo ≤ j ∧ j < bhi) ∧
      matchRow a b i blo bhi runs best = js.foldl (rowStep i runs) ([], best) := by
  unfold matchRow
  cases a[i]? with
  | none =>
    refine ⟨[], ?_, rfl⟩
    intro j hj
    cases hj
  | some c =>
    refine ⟨(positions b c).filter fun j => blo ≤ j ∧ j < bhi, ?_, rfl⟩
    intro j hj
    have hin := (List.mem_filter.1 hj).2
    exact of_decide_eq_true hin

/-- A position extends the run that ends before it, inside the ranges. -/
theorem rowStep_within {i j : Nat} {runs : List (Nat × Nat)} {acc : List (Nat × Nat) × Block}
    (hlo : alo ≤ i) (hhi : i < ahi) (hj : blo ≤ j ∧ j < bhi)
    (hruns : RunsWithin alo blo bhi i runs) (hacc : RunsWithin alo blo bhi (i + 1) acc.1)
    (hbest : BlockWithin alo ahi blo bhi acc.2) :
    RunsWithin alo blo bhi (i + 1) (rowStep i runs acc j).1 ∧
      BlockWithin alo ahi blo bhi (rowStep i runs acc j).2 := by
  unfold rowStep
  obtain ⟨before, hbefore⟩ : ∃ n, n = if j = 0 then 0
    else ((runs.find? fun r => r.1 == j - 1).map Prod.snd).getD 0 := ⟨_, rfl⟩
  have hle : before + blo ≤ j ∧ before + alo ≤ i := by
    by_cases hzero : j = 0
    · rw [if_pos hzero] at hbefore
      omega
    · rw [if_neg hzero] at hbefore
      cases hfind : runs.find? fun r => r.1 == j - 1 with
      | none =>
        rw [hfind] at hbefore
        dsimp only [Option.map_none, Option.getD_none] at hbefore
        omega
      | some r =>
        rw [hfind] at hbefore
        dsimp only [Option.map_some, Option.getD_some] at hbefore
        have hr := hruns r (List.mem_of_find?_eq_some hfind)
        have hat := List.find?_some hfind
        rw [beq_iff_eq] at hat
        omega
  rw [← hbefore]
  constructor
  · intro r hr
    rcases List.mem_append.1 hr with hr | hr
    · exact hacc r hr
    · rw [List.mem_singleton] at hr
      subst hr
      dsimp only
      omega
  · dsimp only
    split
    · show alo ≤ i + 1 - (before + 1) ∧ i + 1 - (before + 1) + (before + 1) ≤ ahi ∧
        blo ≤ j + 1 - (before + 1) ∧ j + 1 - (before + 1) + (before + 1) ≤ bhi
      omega
    · exact hbest

/-- A row extends the runs of the row before, inside the ranges. -/
theorem matchRow_within {i : Nat} {runs : List (Nat × Nat)} {best : Block} (hlo : alo ≤ i)
    (hhi : i < ahi) (hruns : RunsWithin alo blo bhi i runs)
    (hbest : BlockWithin alo ahi blo bhi best) :
    RunsWithin alo blo bhi (i + 1) (matchRow a b i blo bhi runs best).1 ∧
      BlockWithin alo ahi blo bhi (matchRow a b i blo bhi runs best).2 := by
  obtain ⟨js, hjs, hrow⟩ := matchRow_eq a b i blo bhi runs best
  rw [hrow]
  have hfold : ∀ acc : List (Nat × Nat) × Block, RunsWithin alo blo bhi (i + 1) acc.1 →
      BlockWithin alo ahi blo bhi acc.2 →
      RunsWithin alo blo bhi (i + 1) (js.foldl (rowStep i runs) acc).1 ∧
        BlockWithin alo ahi blo bhi (js.foldl (rowStep i runs) acc).2 := by
    clear hrow
    induction js with
    | nil => exact fun acc hacc hblock => ⟨hacc, hblock⟩
    | cons j js ih =>
      intro acc hacc hblock
      obtain ⟨hacc', hblock'⟩ := rowStep_within hlo hhi (hjs j List.mem_cons_self) hruns hacc hblock
      exact ih (fun j' hj' => hjs j' (List.mem_cons_of_mem j hj')) _ hacc' hblock'
  exact hfold ([], best) (fun r hr => by cases hr) hbest

theorem extendLeft_within (fuel : Nat) : ∀ {block : Block}, BlockWithin alo ahi blo bhi block →
    BlockWithin alo ahi blo bhi (extendLeft a b alo blo fuel block) := by
  induction fuel with
  | zero => exact fun h => h
  | succ fuel ih =>
    intro block h
    obtain ⟨i, j, k⟩ := block
    rw [extendLeft]
    split
    · rename_i hmore
      apply ih
      obtain ⟨h₁, h₂, h₃, h₄⟩ := h
      dsimp only at h₁ h₂ h₃ h₄
      refine ⟨?_, ?_, ?_, ?_⟩ <;> dsimp only <;> omega
    · exact h

theorem extendRight_within (fuel : Nat) : ∀ {block : Block}, BlockWithin alo ahi blo bhi block →
    BlockWithin alo ahi blo bhi (extendRight a b ahi bhi fuel block) := by
  induction fuel with
  | zero => exact fun h => h
  | succ fuel ih =>
    intro block h
    obtain ⟨i, j, k⟩ := block
    rw [extendRight]
    split
    · rename_i hmore
      apply ih
      obtain ⟨h₁, h₂, h₃, h₄⟩ := h
      dsimp only at h₁ h₂ h₃ h₄
      refine ⟨?_, ?_, ?_, ?_⟩ <;> dsimp only <;> omega
    · exact h

/-- The longest match lies in the ranges that are searched. -/
theorem findLongestMatch_within (ha : alo ≤ ahi) (hb : blo ≤ bhi) :
    BlockWithin alo ahi blo bhi (findLongestMatch a b alo ahi blo bhi) := by
  unfold findLongestMatch
  apply extendRight_within
  apply extendLeft_within
  have hrange : (List.range ahi).drop alo = List.range' alo (ahi - alo) := by
    rw [List.range_eq_range', List.drop_range', Nat.zero_add, Nat.mul_one]
  rw [hrange]
  have hfold : ∀ (n i : Nat) (acc : List (Nat × Nat) × Block), alo ≤ i → i + n ≤ ahi →
      RunsWithin alo blo bhi i acc.1 → BlockWithin alo ahi blo bhi acc.2 →
      BlockWithin alo ahi blo bhi ((List.range' i n).foldl
        (fun (acc : List (Nat × Nat) × Block) i => matchRow a b i blo bhi acc.1 acc.2) acc).2 := by
    intro n
    induction n with
    | zero => exact fun i acc _ _ _ hblock => hblock
    | succ n ih =>
      intro i acc hlo hhi hruns hblock
      rw [List.range'_succ, List.foldl_cons]
      obtain ⟨hruns', hblock'⟩ := matchRow_within (a := a) (b := b) hlo (by omega) hruns hblock
      exact ih (i + 1) _ (by omega) (by omega) hruns' hblock'
  refine hfold _ alo _ le_rfl (by omega) (fun r hr => by cases hr) ?_
  show alo ≤ alo ∧ alo + 0 ≤ ahi ∧ blo ≤ blo ∧ blo + 0 ≤ bhi
  omega

/-- The matching blocks fit in both ranges. -/
theorem matchedSize_le (fuel : Nat) : ∀ {alo ahi blo bhi : Nat}, alo ≤ ahi → blo ≤ bhi →
    matchedSize a b fuel alo ahi blo bhi ≤ ahi - alo ∧
      matchedSize a b fuel alo ahi blo bhi ≤ bhi - blo := by
  induction fuel with
  | zero =>
    intro alo ahi blo bhi _ _
    exact ⟨Nat.zero_le _, Nat.zero_le _⟩
  | succ fuel ih =>
    intro alo ahi blo bhi ha hb
    have hwithin := findLongestMatch_within (a := a) (b := b) ha hb
    rw [matchedSize]
    obtain ⟨block, hblock⟩ : ∃ block, block = findLongestMatch a b alo ahi blo bhi := ⟨_, rfl⟩
    rw [← hblock] at hwithin ⊢
    obtain ⟨i, j, k⟩ := block
    obtain ⟨h₁, h₂, h₃, h₄⟩ := hwithin
    dsimp only at h₁ h₂ h₃ h₄ ⊢
    split
    · exact ⟨Nat.zero_le _, Nat.zero_le _⟩
    have hleft : matchedSize a b fuel alo i blo j ≤ i - alo ∧
        matchedSize a b fuel alo i blo j ≤ j - blo := ih h₁ h₃
    have hright : matchedSize a b fuel (i + k) ahi (j + k) bhi ≤ ahi - (i + k) ∧
        matchedSize a b fuel (i + k) ahi (j + k) bhi ≤ bhi - (j + k) := ih h₂ h₄
    split <;> split <;> omega

theorem similarityRatio_range (a b : PyStr) : 0 ≤ similarityRatio a b ∧ similarityRatio a b ≤ 1 := by
  unfold similarityRatio
  split
  · norm_num
  · rename_i hne
    have hsize := matchedSize_le (a := a) (b := b) (a.length + 1) (Nat.zero_le a.length)
      (Nat.zero_le b.length)
    generalize matchedSize a b (a.length + 1) 0 a.length 0 b.length = size at hsize ⊢
    have hpos : (0 : ℚ) < (a.length + b.length : Nat) := by exact_mod_cast Nat.pos_of_ne_zero hne
    have hle : (2 * size : ℚ) ≤ (a.length + b.length : Nat) := by
      have : 2 * size ≤ a.length + b.length := by omega
      exact_mod_cast this
    constructor
    · positivity
    · rw [div_le_one hpos]
      exact hle

end Matching

end Expensea.Reconciliation
