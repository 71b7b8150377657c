import Mathlib.Data.Set.Finite.Basic
import Mathlib.Data.List.Dedup
import Mathlib.Logic.Relation

/-!
# Recursive queries and acyclic links

`WITH RECURSIVE q AS (seed UNION SELECT row FROM rows JOIN q ON joins q row)`, and what it says
about the links it follows.

* `Recursive.query` — the rounds of the query, each joining what the last one found;
* `Recursive.mem_query` — the result is what the seed leads to;
* `Acyclic` — no element leads back to itself;
* `Acyclic.exists_end` — along finitely many links every element leads to one without a link.
-/

open Relation

namespace Recursive

variable {α : Type} [DecidableEq α] (rows : List α) (joins : α → α → Bool)

/-- The rows that join the working table and are not in the result yet. -/
def found (result working : List α) : List α :=
  rows.dedup.filter fun row => decide (row ∉ result) && working.any fun a => joins a row

/-- The rounds of the query, until one finds nothing. -/
def rounds : Nat → List α → List α → List α
  | 0, result, _ => result
  | fuel + 1, result, working =>
    if found rows joins result working = [] then result
    else rounds fuel (result ++ found rows joins result working) (found rows joins result working)

/-- The result of the query. -/
def query (seed : List α) : List α := rounds rows joins rows.length seed.dedup seed.dedup

variable {rows joins}

theorem mem_found {result working : List α} {row : α} :
    row ∈ found rows joins result working ↔
      row ∈ rows ∧ row ∉ result ∧ ∃ a ∈ working, joins a row = true := by
  rw [found, List.mem_filter, List.mem_dedup, Bool.and_eq_true, decide_eq_true_iff, List.any_eq_true]

/-- The result after some rounds: rows without repetition, whose links are followed except for
    those of the working table. -/
structure Progress (rows : List α) (joins : α → α → Bool) (result working : List α) : Prop where
  nodup : result.Nodup
  subset : ∀ a ∈ result, a ∈ rows
  followed : ∀ a ∈ result, a ∉ working → ∀ b ∈ rows, joins a b = true → b ∈ result

/-- One more round. -/
theorem Progress.next {result working : List α} (h : Progress rows joins result working) :
    Progress rows joins (result ++ found rows joins result working)
      (found rows joins result working) := by
  constructor
  · apply h.nodup.append ((List.nodup_dedup rows).filter _)
    intro a ha hfound
    exact (mem_found.1 hfound).2.1 ha
  · intro a ha
    rcases List.mem_append.1 ha with hold | hnew
    · exact h.subset a hold
    · exact (mem_found.1 hnew).1
  · intro a ha hout b hb hjoin
    have hold : a ∈ result := (List.mem_append.1 ha).resolve_right hout
    -- a row of the last working table joins `b` now, an older one did before
    rw [List.mem_append]
    by_cases hin : b ∈ result
    · exact .inl hin
    · by_cases hwork : a ∈ working
      · exact .inr (mem_found.2 ⟨hb, hin, a, hwork, hjoin⟩)
      · exact absurd (h.followed a hold hwork b hb hjoin) hin

/-- A round that finds nothing has followed every link. -/
theorem Progress.closed {result working : List α} (h : Progress rows joins result working)
    (hnone : found rows joins result working = []) :
    ∀ a ∈ result, ∀ b ∈ rows, joins a b = true → b ∈ result := by
  intro a ha b hb hjoin
  by_cases hwork : a ∈ working
  · by_contra hout
    have hfound := mem_found.2 ⟨hb, hout, a, hwork, hjoin⟩
    rw [hnone] at hfound
    cases hfound
  · exact h.followed a ha hwork b hb hjoin

theorem subset_rounds (fuel : Nat) (result working : List α) :
    ∀ a ∈ result, a ∈ rounds rows joins fuel result working := by
  induction fuel generalizing result working with
  | zero => exact fun a ha => ha
  | succ fuel ih =>
    intro a ha
    rw [rounds]
    by_cases hnone : found rows joins result working = []
    · rw [if_pos hnone]
      exact ha
    · rw [if_neg hnone]
      exact ih _ _ a (List.mem_append_left _ ha)

/-- What the seed has and every link keeps, the result has. -/
theorem rounds_sound {P : α → Prop} (hkeep : ∀ a b, P a → b ∈ rows → joins a b = true → P b)
    (fuel : Nat) (result working : List α) (hresult : ∀ a ∈ result, P a)
    (hworking : ∀ a ∈ working, P a) : ∀ a ∈ rounds rows joins fuel result working, P a := by
  induction fuel generalizing result working with
  | zero => exact hresult
  | succ fuel ih =>
    have hfound : ∀ a ∈ found rows joins result working, P a := by
      intro a ha
      obtain ⟨hrow, -, b, hb, hjoin⟩ := mem_found.1 ha
      exact hkeep b a (hworking b hb) hrow hjoin
    rw [rounds]
    by_cases hnone : found rows joins result working = []
    · rw [if_pos hnone]
      exact hresult
    · rw [if_neg hnone]
      apply ih _ _ _ hfound
      intro a ha
      rcases List.mem_append.1 ha with hold | hnew
      · exact hresult a hold
      · exact hfound a hnew

/-- With a round for every row that is not in the result, the query ends by itself. -/
theorem rounds_closed {fuel : Nat} {result working : List α} (h : Progress rows joins result working)
    (hfuel : rows.dedup.length ≤ fuel + result.length) :
    ∀ a ∈ rounds rows joins fuel result working, ∀ b ∈ rows, joins a b = true →
      b ∈ rounds rows joins fuel result working := by
  induction fuel generalizing result working with
  | zero =>
    -- every row is in the result, so another round would find nothing
    apply h.closed
    rw [List.eq_nil_iff_forall_not_mem]
    intro b hb
    obtain ⟨hrow, hout, -⟩ := mem_found.1 hb
    have hmore : (b :: result).Subperm rows.dedup := by
      apply (List.nodup_cons.2 ⟨hout, h.nodup⟩).subperm
      intro a ha
      rcases List.mem_cons.1 ha with rfl | hold
      · exact List.mem_dedup.2 hrow
      · exact List.mem_dedup.2 (h.subset a hold)
    have hlength := hmore.length_le
    rw [List.length_cons] at hlength
    omega
  | succ fuel ih =>
    rw [rounds]
    by_cases hnone : found rows joins result working = []
    · rw [if_pos hnone]
      exact h.closed hnone
    · rw [if_neg hnone]
      apply ih h.next
      have hpos := List.length_pos_of_ne_nil hnone
      rw [List.length_append]
      omega

/-- **The result of a recursive query** is what the seed leads to. -/
theorem mem_query {seed : List α} (hseed : ∀ a ∈ seed, a ∈ rows) {x : α} :
    x ∈ query rows joins seed ↔
      ∃ a ∈ seed, ReflTransGen (fun a b => b ∈ rows ∧ joins a b = true) a x := by
  have hstart : Progress rows joins seed.dedup seed.dedup :=
    ⟨List.nodup_dedup seed, fun a ha => hseed a (List.mem_dedup.1 ha),
      fun a ha hout => absurd ha hout⟩
  constructor
  · apply rounds_sound (P := fun x =>
      ∃ a ∈ seed, ReflTransGen (fun a b => b ∈ rows ∧ joins a b = true) a x)
    · intro a b ha hrow hjoin
      obtain ⟨first, hfirst, hpath⟩ := ha
      exact ⟨first, hfirst, hpath.tail ⟨hrow, hjoin⟩⟩
    · intro a ha
      exact ⟨a, List.mem_dedup.1 ha, .refl⟩
    · intro a ha
      exact ⟨a, List.mem_dedup.1 ha, .refl⟩
  · intro h
    obtain ⟨a, ha, hpath⟩ := h
    have hlength : rows.dedup.length ≤ rows.length + seed.dedup.length := by
      have := (List.dedup_sublist rows).length_le
      omega
    induction hpath with
    | refl => exact subset_rounds _ _ _ a (List.mem_dedup.2 ha)
    | tail _ hlink ih => exact rounds_closed hstart hlength _ ih _ hlink.1 hlink.2

end Recursive

/-! ### Acyclic links -/

section Acyclic

variable {α : Type} {r s : α → α → Prop}

/-- No element leads back to itself. -/
def Acyclic (r : α → α → Prop) : Prop := ∀ a, ¬ TransGen r a a

theorem Acyclic.mono (hs : Acyclic s) (h : ∀ a b, r a b → s a b) : Acyclic r := by
  intro a hcycle
  exact hs a (TransGen.mono h a a hcycle)

/-- A path along `r` and one more link: along `r` alone, or through the link. -/
theorem reflTransGen_link {a b x y : α}
    (h : ReflTransGen (fun x y => r x y ∨ x = a ∧ y = b) x y) :
    ReflTransGen r x y ∨ ReflTransGen r x a ∧ ReflTransGen r b y := by
  induction h with
  | refl => exact .inl .refl
  | tail _ hlink ih =>
    rcases hlink with hr | ⟨rfl, rfl⟩
    · rcases ih with hpath | ⟨hin, hout⟩
      · exact .inl (hpath.tail hr)
      · exact .inr ⟨hin, hout.tail hr⟩
    · rcases ih with hpath | ⟨hin, -⟩
      · exact .inr ⟨hpath, .refl⟩
      · exact .inr ⟨hin, .refl⟩

/-- **One more link** keeps links acyclic unless its end leads to its start. -/
theorem Acyclic.link_iff (hr : Acyclic r) {a b : α} :
    Acyclic (fun x y => r x y ∨ x = a ∧ y = b) ↔ ¬ ReflTransGen r b a := by
  constructor
  · intro hacyclic hpath
    exact hacyclic a (TransGen.head' (.inr ⟨rfl, rfl⟩)
      (ReflTransGen.mono (fun _ _ h => .inl h) b a hpath))
  · intro hno c hcycle
    obtain ⟨d, hpath, hlink⟩ := TransGen.tail'_iff.1 hcycle
    rcases reflTransGen_link hpath with hold | ⟨hin, hout⟩
    · rcases hlink with hlast | ⟨rfl, rfl⟩
      · exact hr c (TransGen.tail' hold hlast)
      · exact hno hold
    · rcases hlink with hlast | ⟨rfl, rfl⟩
      · exact hno (hout.trans ((ReflTransGen.single hlast).trans hin))
      · exact hno hout

/-- **Ends.**  If finitely many elements have a link, every element leads to one without. -/
theorem Acyclic.exists_end (hr : Acyclic r) {sources : List α} (h : ∀ a b, r a b → a ∈ sources)
    (a : α) : ∃ b, ReflTransGen r a b ∧ ∀ c, ¬ r b c := by
  let above : {x // x ∈ sources} → {x // x ∈ sources} → Prop := fun x y => TransGen r y.1 x.1
  have hfinite : Finite {x // x ∈ sources} := sources.finite_toSet
  have htrans : IsTrans {x // x ∈ sources} above := ⟨fun x y z hxy hyz => hyz.trans hxy⟩
  have hirrefl : Std.Irrefl above := ⟨fun x => hr x.1⟩
  have hwf : WellFounded above := Finite.wellFounded_of_trans_of_irrefl above
  have hsource : ∀ x : {x // x ∈ sources}, ∃ b, ReflTransGen r x.1 b ∧ ∀ c, ¬ r b c := by
    intro x
    induction x using hwf.induction with
    | h x ih =>
      by_cases hlink : ∃ b, r x.1 b
      · obtain ⟨b, hb⟩ := hlink
        by_cases hmore : b ∈ sources
        · obtain ⟨c, hpath, hend⟩ := ih ⟨b, hmore⟩ (TransGen.single hb)
          exact ⟨c, hpath.head hb, hend⟩
        · exact ⟨b, .single hb, fun c hc => hmore (h b c hc)⟩
      · exact ⟨x.1, .refl, fun c hc => hlink ⟨c, hc⟩⟩
  by_cases ha : a ∈ sources
  · exact hsource ⟨a, ha⟩
  · exact ⟨a, .refl, fun c hc => ha (h a c hc)⟩

end Acyclic
