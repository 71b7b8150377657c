import Expensea.Ledger.Outstanding

namespace Expensea.Analytics

open Txn
open Txn.Tx (reads)
open Expensea.Ledger

/-!
# Overdue receivables

`overdue_receivables` of `app/analytics/repository.py`, which reads the stored status and the
due date, beside the effective status of the obligation views, which is computed from what is
still outstanding.

* `overdueReceivables` — the query;
* `isOverdue_iff` — the two notions of one receivable;
* `overdue_agrees` — the two lists in every reachable ledger.
-/

/-- `OverdueReceivable` -/
structure OverdueReceivable where
  id : Uuid
  dueDate : Date
  deriving DecidableEq

/-- The filter of `overdue_receivables` on one row. -/
def overdueRow (userId : Uuid) (currency : PyStr) (today : Date) (o : Obligation) : Bool :=
  o.userId == userId && o.currency == currency && (o.dueDate.any fun due => due < today) &&
    (o.status == .opened || o.status == .partiallyPaid)

/-- The rows of `overdue_receivables`. -/
def overdueRows (userId : Uuid) (currency : PyStr) (today : Date) (g : Db) :
    List OverdueReceivable :=
  ((obligations .receivable g).filter (overdueRow userId currency today)).filterMap fun o =>
    o.dueDate.map fun due => ⟨o.id, due⟩

/-- `overdue_receivables` -/
def overdueReceivables (userId : Uuid) (currency : PyStr) (today : Date) :
    DbTx (List OverdueReceivable) :=
  reads (overdueRows userId currency today)

/-- The view shows an overdue obligation in this currency. -/
def shownOverdue (currency : PyStr) (v : ObligationView) : Bool :=
  v.effectiveStatus == .overdue && v.currency == currency

section Agree

variable {userId : Uuid} {currency : PyStr} {today : Date} {g : Db}

/-- Something is outstanding of an open or partially paid obligation. -/
theorem outstanding_pos {kind : ObligationKind} (hg : ObligationsOk g) {o : Obligation}
    (ho : o ∈ obligations kind g) (hopen : o.status = .opened ∨ o.status = .partiallyPaid) :
    0 < outstandingOf kind g o := by
  have hok := hg.rows kind o ho
  have hlt : settledUnits (settlementsOf kind o.id g) < o.amount.units := by
    rcases hopen with hopen | hopen
    · rw [(hok.opened_iff.1 hopen).2]
      exact hok.principal_pos
    · exact (hok.partiallyPaid_iff.1 hopen).2.2
  have hcancelled : o.status ≠ .cancelled := by
    rcases hopen with hopen | hopen
    · exact (hok.opened_iff.1 hopen).1
    · exact (hok.partiallyPaid_iff.1 hopen).1
  rw [outstandingOf, if_neg hcancelled, Money.value, sub_pos]
  apply div_lt_div_of_pos_right _ (by norm_num)
  exact_mod_cast hlt

/-- A view of an obligation is overdue exactly if the stored status and the due date say so. -/
theorem isOverdue_iff {kind : ObligationKind} (hg : ObligationsOk g) {o : Obligation}
    (ho : o ∈ obligations kind g) (name : PyStr) :
    (joinedView kind today g (o, name)).effectiveStatus = .overdue ↔
      (o.dueDate.any fun due => due < today) = true ∧
        (o.status = .opened ∨ o.status = .partiallyPaid) := by
  have hshown : (joinedView kind today g (o, name)).effectiveStatus =
      if (o.status = .opened ∨ o.status = .partiallyPaid) ∧
          (o.dueDate.any fun due => due < today) ∧
          0 < (joinedView kind today g (o, name)).outstandingAmount then
        .overdue
      else o.status := rfl
  rw [hshown, outstanding_view hg ho]
  constructor
  · intro h
    split_ifs at h with hcond
    · exact ⟨hcond.2.1, hcond.1⟩
    · exact absurd h (hg.rows kind o ho).not_overdue
  · intro h
    rw [if_pos ⟨h.2, h.1, outstanding_pos hg ho h.2⟩]

/-- The filter of the query is the filter of the views. -/
theorem overdueRow_eq (hg : ObligationsOk g) {o : Obligation}
    (ho : o ∈ obligations .receivable g) (hown : o.userId = userId) (name : PyStr) :
    overdueRow userId currency today o =
      shownOverdue currency (joinedView .receivable today g (o, name)) := by
  have hcurrency : (joinedView .receivable today g (o, name)).currency = o.currency := rfl
  rw [Bool.eq_iff_iff, overdueRow, shownOverdue, hcurrency]
  simp only [Bool.and_eq_true, Bool.or_eq_true, beq_iff_eq]
  rw [isOverdue_iff hg ho, hown]
  tauto

/-- A row that passes the filter has a due date. -/
theorem map_overdueRows (userId : Uuid) (currency : PyStr) (today : Date) (g : Db) :
    (overdueRows userId currency today g).map (fun r => (r.id, some r.dueDate)) =
      ((obligations .receivable g).filter (overdueRow userId currency today)).map
        fun o => (o.id, o.dueDate) := by
  rw [overdueRows, List.map_filterMap, ← List.filterMap_eq_map]
  apply List.filterMap_congr
  intro o ho
  have hpass := (List.mem_filter.1 ho).2
  rw [overdueRow, Bool.and_eq_true, Bool.and_eq_true] at hpass
  show Option.map _ (Option.map _ o.dueDate) = some (o.id, o.dueDate)
  cases hdue : o.dueDate with
  | none =>
    rw [hdue] at hpass
    cases hpass.1.2
  | some due => rfl

/-- The rows of the query are the listed views that are overdue in the currency. -/
theorem overdueRows_perm (hg : ObligationsOk g) (hp : PeopleOk g) :
    ((overdueRows userId currency today g).map fun r => (r.id, some r.dueDate)).Perm
      (((listed .receivable userId today g).filter (shownOverdue currency)).map
        fun v => (v.id, v.dueDate)) := by
  obtain ⟨name, hperm⟩ := listed_perm .receivable userId today hp
  have hviews := ((hperm.filter (shownOverdue currency)).map fun v => (v.id, v.dueDate)).symm
  have hfilter : (obligations .receivable g).filter (overdueRow userId currency today) =
      (ownObligations .receivable userId g).filter
        (shownOverdue currency ∘ fun o => joinedView .receivable today g (o, name o)) := by
    rw [ownObligations, List.filter_filter]
    apply List.filter_congr
    intro o ho
    by_cases hown : o.userId = userId
    · rw [overdueRow_eq hg ho hown (name o), hown, beq_self_eq_true, Bool.and_true]
      rfl
    · rw [beq_false_of_ne hown, Bool.and_false, overdueRow, beq_false_of_ne hown]
      simp only [Bool.false_and]
  rw [List.filter_map, List.map_map, ← hfilter] at hviews
  rw [map_overdueRows]
  exact hviews

/-- The view that `get_receivable` returns is overdue in the currency exactly if the query returns
    the receivable. -/
theorem getObligation_overdue (hg : ObligationsOk g) {id : Uuid} {v : ObligationView}
    (h : (getObligation .receivable userId id none today).run g = .ok (some v, g)) :
    (v.effectiveStatus = .overdue ∧ v.currency = currency) ↔
      id ∈ (overdueRows userId currency today g).map OverdueReceivable.id := by
  have hread : ((obligations .receivable g).find? fun o => o.userId == userId && o.id == id).bind
      (fun o => (g.people.find? fun p => p.id == o.personId && p.userId == userId).bind fun p =>
        some (obligationView o o.amount.value .receivable p.name
          (settledUnits (settlementsOf .receivable id g) / 10 ^ 4) today)) = some v :=
    congrArg Prod.fst (Except.ok.inj h)
  obtain ⟨o, hfound, hread⟩ := Option.bind_eq_some_iff.1 hread
  obtain ⟨p, -, hview⟩ := Option.bind_eq_some_iff.1 hread
  have ho := List.mem_of_find?_eq_some hfound
  have hmatch := List.find?_some hfound
  simp only [Bool.and_eq_true, beq_iff_eq] at hmatch
  obtain ⟨hown, hid⟩ := hmatch
  have hv : v = joinedView .receivable today g (o, p.name) := by
    rw [← Option.some.inj hview, joinedView, hid]
  have hrow : overdueRow userId currency today o = true ↔
      v.effectiveStatus = .overdue ∧ v.currency = currency := by
    rw [overdueRow_eq hg ho hown p.name, ← hv, shownOverdue, Bool.and_eq_true, beq_iff_eq,
      beq_iff_eq]
  have hids : (overdueRows userId currency today g).map OverdueReceivable.id =
      ((obligations .receivable g).filter (overdueRow userId currency today)).map Obligation.id := by
    have hmap := congrArg (List.map Prod.fst) (map_overdueRows userId currency today g)
    rw [List.map_map, List.map_map] at hmap
    exact hmap
  rw [← hrow, hids, List.mem_map]
  constructor
  · intro hpass
    exact ⟨o, List.mem_filter.2 ⟨ho, hpass⟩, hid⟩
  · intro hmem
    obtain ⟨o', ho', hid'⟩ := hmem
    obtain ⟨hmem, hpass⟩ := List.mem_filter.1 ho'
    -- identifiers of receivables are distinct
    rwa [hg.unique hmem ho (hid'.trans hid.symm)] at hpass

end Agree

/-! ### Runs -/

section Runs

variable {ι : Type} [DecidableEq ι] {zones : TimeZones} {g₀ : Db}

/-- **Two notions of overdue agree.**  In every state that any interleaving of the calls that write
    obligations and people reaches from a store without obligations, for every owner, currency and
    day: the receivables the analytics query returns are, with their due dates, the listed views
    that are overdue in the currency, each once; and a receivable is among them exactly if its own
    view is. -/
theorem overdue_agrees (hrows : ∀ kind, obligations kind g₀ = []) (hsettlements : g₀.settlements = [])
    (hpeople : (g₀.people.map Person.id).Nodup) {s : State Db Lock AppError Unit ι}
    (hs : Reachable (RequestsLedger zones) Keeps g₀ s) (userId : Uuid) (currency : PyStr)
    (today : Date) :
    ∃ rows views,
      (overdueReceivables userId currency today).run s.db = .ok (rows, s.db) ∧
      (listReceivables userId today).run s.db = .ok (views, s.db) ∧
      (rows.map fun r => (r.id, some r.dueDate)).Perm
        ((views.filter (shownOverdue currency)).map fun v => (v.id, v.dueDate)) ∧
      ∀ id v, (getObligation .receivable userId id none today).run s.db = .ok (some v, s.db) →
        (v.effectiveStatus = .overdue ∧ v.currency = currency ↔
          id ∈ rows.map OverdueReceivable.id) := by
  have hgood : outstandingDiscipline.Good s :=
    Discipline.sound (fun _ _ _ hp hi => requestsLedger_safe hp hi)
      (outstandingInv_of_empty hrows hsettlements hpeople) hs
  obtain ⟨hok, hpeople⟩ := hgood.inv
  exact ⟨_, _, rfl, rfl, overdueRows_perm hok hpeople, fun _ _ h => getObligation_overdue hok h⟩

/-- Lending ten euros until the first day. -/
def dueLoan : LedgerCall :=
  .obligation (.createReceivable 0 3 1 ⟨2, 10, py "EUR", py "lunch", 0, some 0, none⟩)

/-- Paying four of them back. -/
def partialRepayment : LedgerCall :=
  .obligation (.settleReceivable 0 4 1 3 ⟨.finite 4, py "EUR", 0, none, none⟩)

/-- On the second day the rest of the loan is overdue: one of the ledgers of `overdue_agrees`. -/
theorem overdue_agrees_lent : ∃ s : State Db Lock AppError Unit Unit,
    Reachable (RequestsLedger sampleZones) Keeps sampleStore s ∧
      overdueRows 1 (py "EUR") 1 s.db = [⟨3, 0⟩] ∧
      ∃ rows views,
        (overdueReceivables 1 (py "EUR") 1).run s.db = .ok (rows, s.db) ∧
        (listReceivables 1 1).run s.db = .ok (views, s.db) ∧
        (rows.map fun r => (r.id, some r.dueDate)).Perm
          ((views.filter (shownOverdue (py "EUR"))).map fun v => (v.id, v.dueDate)) ∧
        ∀ id v, (getObligation .receivable 1 id none 1).run s.db = .ok (some v, s.db) →
          (v.effectiveStatus = .overdue ∧ v.currency = py "EUR" ↔
            id ∈ rows.map OverdueReceivable.id) := by
  have hlent : (dueLoan.program sampleZones).commits sampleStore = true := by
    decide +kernel
  obtain ⟨a, hrun⟩ := Tx.run_of_commits hlent
  have hpaid : (partialRepayment.program sampleZones).commits
      ((dueLoan.program sampleZones).after sampleStore) = true := by
    decide +kernel
  obtain ⟨b, hrun'⟩ := Tx.run_of_commits hpaid
  have hoverdue : overdueRows 1 (py "EUR") 1 ((partialRepayment.program sampleZones).after
      ((dueLoan.program sampleZones).after sampleStore)) = [⟨3, 0⟩] := by
    decide +kernel
  have h₁ : Reachable (RequestsLedger sampleZones) Keeps sampleStore
      (⟨_, [] ++ [a], fun _ => none⟩ : State Db Lock AppError Unit Unit) :=
    Reachable.alone () .init ⟨_, rfl⟩ hrun
  have h₂ := Reachable.alone () h₁ ⟨_, rfl⟩ hrun'
  have hrows : ∀ kind, obligations kind sampleStore = [] := fun kind => by cases kind <;> rfl
  exact ⟨_, h₂, hoverdue, overdue_agrees hrows rfl (by decide) h₂ 1 (py "EUR") 1⟩

end Runs

end Expensea.Analytics
