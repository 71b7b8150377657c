import Expensea.Ai.Writes
import Expensea.Ledger.ObligationInvariants
import Expensea.Lib.Group

namespace Expensea.Ledger

open Txn Txn.Discipline
open Txn.Tx (reads modify acquire)

/-!
# Outstanding money

The two views `obligation_repository.py` gives of what is outstanding: the lists of
receivables and payables, and the totals by currency.

* `listObligations`, `outstandingTotals` — the queries;
* `LedgerCall` — the calls that write obligations and people;
* `views_agree` — what the two views have in common in every reachable ledger;
* `net_exposure_rounds` — and a ledger whose net exposure is not the difference.
-/

/-! ### The queries -/

/-- Newest first: `ORDER BY issued_date DESC, id DESC`. -/
def newer (a b : Obligation × PyStr) : Bool :=
  b.1.issuedDate < a.1.issuedDate || b.1.issuedDate == a.1.issuedDate && b.1.id ≤ a.1.id

/-- The owner's obligations joined with their people. -/
def joinedObligations (kind : ObligationKind) (userId : Uuid) (g : Db) :
    List (Obligation × PyStr) :=
  ((obligations kind g).filter fun o => o.userId == userId).flatMap fun o =>
    (g.people.filter fun p => p.id == o.personId && p.userId == o.userId).map fun p => (o, p.name)

/-- The view of one joined row, with its settled total. -/
def joinedView (kind : ObligationKind) (asOf : Date) (g : Db) (row : Obligation × PyStr) :
    ObligationView :=
  obligationView row.1 row.1.amount.value kind row.2
    (settledUnits (settlementsOf kind row.1.id g) / 10 ^ 4) asOf

/-- `list_receivables` and `list_payables` -/
def listObligations (kind : ObligationKind) (userId : Uuid) (asOf : Date) :
    DbTx (List ObligationView) :=
  reads fun g => ((joinedObligations kind userId g).insertionSort fun a b => newer a b = true).map
    (joinedView kind asOf g)

/-- `list_receivables` -/
def listReceivables := listObligations .receivable

/-- `list_payables` -/
def listPayables := listObligations .payable

/-- The summand of `_receivable_totals` and `_payable_totals`, in exact arithmetic. -/
def outstandingOf (kind : ObligationKind) (g : Db) (o : Obligation) : ℚ :=
  if o.status = .cancelled then 0
  else o.amount.value - settledUnits (settlementsOf kind o.id g) / 10 ^ 4

/-- `_receivable_totals` and `_payable_totals` -/
def totals (kind : ObligationKind) (userId : Uuid) (g : Db) : List (PyStr × ℚ) :=
  Group.sums Obligation.currency (outstandingOf kind g)
    ((obligations kind g).filter fun o => o.userId == userId)

/-- `OutstandingByCurrency` -/
structure OutstandingByCurrency where
  currency : PyStr
  receivable : ℚ
  payable : ℚ
  netExposure : ℚ
  deriving DecidableEq

/-- The totals side by side, by currency. -/
def byCurrency (receivables payables : List (PyStr × ℚ)) : List OutstandingByCurrency :=
  ((receivables.map Prod.fst ++ payables.map Prod.fst).dedup.insertionSort (· ≤ ·)).map
    fun currency => {
      currency := currency
      receivable := Group.lookup currency receivables
      payable := Group.lookup currency payables
      netExposure := decSub (Group.lookup currency receivables) (Group.lookup currency payables) }

/-- `outstanding_totals` -/
def outstandingTotals (userId : Uuid) : DbTx (List OutstandingByCurrency) := do
  let receivables ← reads (totals .receivable userId)
  let payables ← reads (totals .payable userId)
  pure (byCurrency receivables payables)

/-! ### Where they agree -/

/-- Every obligation has the person it names. -/
structure PeopleOk (g : Db) : Prop where
  ids : (g.people.map Person.id).Nodup
  known : ∀ kind, ∀ o ∈ obligations kind g, ∃ p ∈ g.people, p.id = o.personId ∧ p.userId = o.userId

section Agree

variable {kind : ObligationKind} {userId : Uuid} {asOf : Date} {g : Db}

/-- What Python computes of one obligation is what the query sums. -/
theorem outstanding_view (hg : ObligationsOk g) {o : Obligation} (ho : o ∈ obligations kind g)
    (name : PyStr) : (joinedView kind asOf g (o, name)).outstandingAmount = outstandingOf kind g o := by
  have hok := hg.rows kind o ho
  have hnonneg := settledUnits_nonneg hok.amount_pos
  have hrange : o.amount.units < 10 ^ 19 := (abs_lt.1 o.amount.range).2
  have hexact : decSub o.amount.value (settledUnits (settlementsOf kind o.id g) / 10 ^ 4) =
      o.amount.value - settledUnits (settlementsOf kind o.id g) / 10 ^ 4 := by
    rw [Money.value, decSub_units hok.sum_le (by omega)]
    push_cast
    rw [sub_div]
  show (if o.status = .cancelled then 0 else decSub o.amount.value _) = outstandingOf kind g o
  rw [hexact, outstandingOf]

/-- An outstanding amount is never negative, and nothing is outstanding of a paid or cancelled
    obligation. -/
theorem outstandingOf_spec (hg : ObligationsOk g) {o : Obligation} (ho : o ∈ obligations kind g) :
    0 ≤ outstandingOf kind g o ∧
      (o.status = .paid ∨ o.status = .cancelled → outstandingOf kind g o = 0) := by
  have hok := hg.rows kind o ho
  have hunits : o.amount.value - settledUnits (settlementsOf kind o.id g) / 10 ^ 4 =
      ((o.amount.units - settledUnits (settlementsOf kind o.id g) : ℤ) : ℚ) / 10 ^ 4 := by
    rw [Money.value]
    push_cast
    rw [sub_div]
  constructor
  · rw [outstandingOf]
    split_ifs
    · exact le_refl 0
    · rw [hunits]
      have hle : (0 : ℚ) ≤ ((o.amount.units - settledUnits (settlementsOf kind o.id g) : ℤ) : ℚ) := by
        exact_mod_cast sub_nonneg.2 hok.sum_le
      positivity
  · rintro (hpaid | hcancelled)
    · rw [outstandingOf, hunits, hok.paid_iff.1 hpaid, sub_self]
      simp
    · rw [outstandingOf, if_pos hcancelled]

/-- The join neither loses nor repeats an obligation. -/
theorem joined_eq (kind : ObligationKind) (userId : Uuid) (hp : PeopleOk g) :
    ∃ name : Obligation → PyStr, joinedObligations kind userId g =
      ((obligations kind g).filter fun o => o.userId == userId).map fun o => (o, name o) := by
  refine ⟨fun o => ((g.people.find? fun p => p.id == o.personId && p.userId == o.userId).map
    Person.name).getD [], ?_⟩
  rw [joinedObligations, ← List.flatMap_singleton' (List.map _ _), List.flatMap_map]
  refine List.flatMap_congr fun o ho => ?_
  obtain ⟨p, hmem, hid, huser⟩ := hp.known kind o (List.mem_of_mem_filter ho)
  have hmatch : (p.id == o.personId && p.userId == o.userId) = true := by simp [hid, huser]
  have hunique : ∀ q ∈ g.people, (q.id == o.personId && q.userId == o.userId) = true ↔ q.id = p.id := by
    intro q hq
    constructor
    · intro hq'
      simp only [Bool.and_eq_true, beq_iff_eq] at hq'
      rw [hq'.1, hid]
    · intro hq'
      rw [List.inj_on_of_nodup_map hp.ids hq hmem hq']
      exact hmatch
  have hfind : g.people.find? (fun p => p.id == o.personId && p.userId == o.userId) = some p :=
    Table.find?_of_unique hmem hmatch fun q hq hq' =>
      List.inj_on_of_nodup_map hp.ids hq hmem ((hunique q hq).1 hq')
  show _ = [(o, ((g.people.find? fun p => p.id == o.personId && p.userId == o.userId).map
    Person.name).getD [])]
  rw [Table.filter_eq_singleton hp.ids hmem hunique, hfind]
  rfl

end Agree

/-! ### The calls that write obligations and people -/

/-- A call of a workflow that writes obligations, settlements or people. -/
inductive LedgerCall where
  | obligation (operation : ObligationOperation)
  | createPerson (personId userId : Uuid) (command : CreatePersonCommand)
  | approve (C : Ai.ProposalConfig) (fresh : FreshIds) (now : Instant) (userId proposalId : Uuid)

/-- The transaction a call runs. -/
def LedgerCall.program (zones : TimeZones) : LedgerCall → DbTx Unit
  | .obligation operation => do
    let _ ← operation.program zones
    pure ()
  | .createPerson personId userId command => do
    let _ ← Ledger.createPerson personId userId command
    pure ()
  | .approve C fresh now userId proposalId => do
    let _ ← Ai.approve C fresh now userId proposalId
    pure ()

/-- A session runs one of the calls. -/
def RequestsLedger (zones : TimeZones) (_ : List Unit) (p : DbTx Unit) : Prop :=
  ∃ call : LedgerCall, p = call.program zones

/-- Neither obligations nor people are touched. -/
structure Keeps (g g' : Db) : Prop where
  obligations : KeepsObligations g g'
  people : g'.people = g.people

/-- What a commit under the locks `h` does to people: it adds rows whose identifiers are
    locked. -/
structure CommitsPeople (h : List Lock) (g g' : Db) : Prop where
  kept : ∀ p ∈ g.people, p ∈ g'.people
  born : ∀ p ∈ g'.people, p ∈ g.people ∨ .row .people p.id ∈ h

/-- What a session that holds the locks `h` relies on: people stay, and no person appears
    under a locked identifier. -/
structure ReliesOnPeople (h : List Lock) (g g' : Db) : Prop where
  kept : ∀ p ∈ g.people, p ∈ g'.people
  unborn : ∀ p ∈ g'.people, .row .people p.id ∈ h → p ∈ g.people

theorem Keeps.commits {h : List Lock} {g g' : Db} (hk : Keeps g g') :
    CommitsObligations h g g' ∧ CommitsPeople h g g' where
  left kind id := .inl (hk.obligations.same kind id)
  right := ⟨fun _ hp => hk.people ▸ hp, fun _ hp => .inl (hk.people ▸ hp)⟩

theorem Keeps.peopleOk {g g' : Db} (hk : Keeps g g') (hp : PeopleOk g) : PeopleOk g' where
  ids := by rw [hk.people]; exact hp.ids
  known kind o ho := by
    rw [hk.obligations.obligations_eq kind] at ho
    rw [hk.people]
    exact hp.known kind o ho

/-- The locking discipline of obligations and people. -/
def outstandingDiscipline : Discipline Db Lock AppError Unit where
  inv g := ObligationsOk g ∧ PeopleOk g
  post h _ g g' := CommitsObligations h g g' ∧ CommitsPeople h g g'
  rely h g g' := ReliesOnObligations h g g' ∧ ReliesOnPeople h g g'
  env := Keeps
  rely_refl h g := ⟨settlementDiscipline.rely_refl h g, fun _ hp => hp, fun _ hp _ => hp⟩
  rely_trans _ _ _ _ h₁ h₂ := ⟨h₁.1.trans h₂.1, fun p hp => h₂.2.kept p (h₁.2.kept p hp),
    fun p hp hl => h₁.2.unborn p (h₂.2.unborn p hp hl) hl⟩
  post_rely _ _ _ _ _ _ _ hdisj hc :=
    ⟨fun kind id hl => (hc.1 kind id).resolve_right fun hlock => hdisj _ hlock.1 hl, hc.2.kept,
      fun p hp hl => (hc.2.born p hp).resolve_right fun hl' => hdisj _ hl' hl⟩
  env_inv _ _ hi he := ⟨he.obligations.ok hi.1, he.peopleOk hi.2⟩
  env_rely _ _ _ _ he := ⟨fun kind id _ => he.obligations.same kind id,
    fun _ hp => he.people ▸ hp, fun _ hp _ => he.people ▸ hp⟩

/-! ### The writes of a call -/

/-- An update of neither obligations nor people. -/
def Quiet (w : Db → Db) : Prop := ∀ g, Keeps g (w g)

/-- An update that leaves people and what obligations say of them alone. -/
def KeepsPeople (w : Db → Db) : Prop :=
  ∀ g, (w g).people = g.people ∧ ∀ kind, ∀ o ∈ obligations kind (w g),
    ∃ o' ∈ obligations kind g, o'.personId = o.personId ∧ o'.userId = o.userId

theorem Quiet.comp {u w : Db → Db} (hu : Quiet u) (hw : Quiet w) : Quiet (u ∘ w) := by
  intro g
  obtain ⟨⟨hr, hp, hs⟩, hpeople⟩ := hu (w g)
  obtain ⟨⟨hr', hp', hs'⟩, hpeople'⟩ := hw g
  exact ⟨⟨hr.trans hr', hp.trans hp', hs.trans hs'⟩, hpeople.trans hpeople'⟩

theorem quiet_id : Quiet id := fun _ => ⟨⟨rfl, rfl, rfl⟩, rfl⟩

/-- The writes of an approval that creates no obligation are quiet. -/
theorem quiet_ofApproval : Ai.OfApproval Quiet := by
  constructor <;> first | constructor | skip
  all_goals exact fun f g => ⟨⟨rfl, rfl, rfl⟩, rfl⟩

theorem KeepsPeople.comp {u w : Db → Db} (hu : KeepsPeople u) (hw : KeepsPeople w) :
    KeepsPeople (u ∘ w) := by
  intro g
  refine ⟨(hu (w g)).1.trans (hw g).1, fun kind o ho => ?_⟩
  obtain ⟨o', ho', hperson, howner⟩ := (hu (w g)).2 kind o ho
  obtain ⟨o'', ho'', hperson', howner'⟩ := (hw g).2 kind o' ho'
  exact ⟨o'', ho'', hperson'.trans hperson, howner'.trans howner⟩

theorem KeepsPeople.peopleOk {w : Db → Db} (hw : KeepsPeople w) {g : Db} (hp : PeopleOk g) :
    PeopleOk (w g) where
  ids := by rw [(hw g).1]; exact hp.ids
  known kind o ho := by
    obtain ⟨o', ho', hperson, howner⟩ := (hw g).2 kind o ho
    rw [(hw g).1, ← hperson, ← howner]
    exact hp.known kind o' ho'

theorem people_setObligations (kind : ObligationKind) (f : List Obligation → List Obligation)
    (g : Db) : (setObligations kind f g).people = g.people := by
  cases kind <;> rfl

/-! ### The calls are safe -/

section Safety

variable {w u : Db → Db} {h : List Lock} {l : Lock} {g : Db} {kind : ObligationKind}
  {userId personId oid : Uuid}

theorem commit_of_quiet (hw : Quiet w) : outstandingDiscipline.Commit () w h g := fun g' _ hi =>
  ⟨⟨(hw g').obligations.ok hi.1, (hw g').peopleOk hi.2⟩, (hw g').commits⟩

/-- A session that may commit may do so after one more quiet update. -/
theorem commit_quiet (hu : Quiet u) (hc : outstandingDiscipline.Commit () w h g) :
    outstandingDiscipline.Commit () (u ∘ w) h g := by
  intro g' hr hi
  obtain ⟨⟨hok, hpeople⟩, hobligations, hcommits⟩ := hc g' hr hi
  have hk := hu (w g')
  refine ⟨⟨hk.obligations.ok hok, hk.peopleOk hpeople⟩, fun kind id => ?_, ?_⟩
  · exact (hobligations kind id).imp_left fun hsame => hsame.trans (hk.obligations.same kind id)
  · constructor
    · intro p hp
      rw [Function.comp_apply, hk.people]
      exact hcommits.kept p hp
    · intro p hp
      rw [Function.comp_apply, hk.people] at hp
      exact hcommits.born p hp

/-- One more lock rules out more. -/
theorem rely_of_cons {g' : Db} (hr : outstandingDiscipline.rely (l :: h) g g') :
    outstandingDiscipline.rely h g g' :=
  ⟨fun kind id hl => hr.1 kind id (List.mem_cons_of_mem _ hl), hr.2.kept,
    fun p hp hl => hr.2.unborn p hp (List.mem_cons_of_mem _ hl)⟩

/-- A session that may commit may do so with one more lock. -/
theorem commit_lock (hc : outstandingDiscipline.Commit () w h g) :
    outstandingDiscipline.Commit () w (l :: h) g := by
  intro g' hr hi
  obtain ⟨hinv, hobligations, hpeople⟩ := hc g' (rely_of_cons hr) hi
  refine ⟨hinv, fun kind id => (hobligations kind id).imp_right ?_, hpeople.kept, fun p hp =>
    (hpeople.born p hp).imp_right (List.mem_cons_of_mem _)⟩
  exact fun hlocked => ⟨List.mem_cons_of_mem _ hlocked.1, hlocked.2⟩

/-- A session that may commit may do so after quiet writes. -/
theorem wp_commit_of_writes {β : Type} {p : DbTx β} (hp : p.Writes Quiet)
    (hc : outstandingDiscipline.Commit () w h g) :
    outstandingDiscipline.wp p (fun _ => outstandingDiscipline.Commit ()) w h g :=
  outstandingDiscipline.wp_of_kept
    (fun w h g g' hr hi => outstandingDiscipline.commit_stable () w h g g' hr hi)
    (fun _ _ _ _ hu hc => commit_quiet hu hc) (fun _ _ _ _ hc => commit_lock hc) hp w h g hc

/-- A session that may commit, has written no obligation, and sees the owner's person. -/
structure WithPerson (userId personId : Uuid) (w : Db → Db) (h : List Lock) (g : Db) : Prop where
  commit : outstandingDiscipline.Commit () w h g
  keeps : ∀ g', KeepsObligations g' (w g')
  person : ∀ g', outstandingDiscipline.rely h g g' → outstandingDiscipline.inv g' →
    ∃ p ∈ (w g').people, p.id = personId ∧ p.userId = userId

theorem WithPerson.stable : outstandingDiscipline.Stable fun _ : Unit => WithPerson userId personId := by
  intro _ w h g g' hr hi hw
  constructor
  case commit => exact outstandingDiscipline.commit_stable () w h g g' hr hi hw.commit
  case keeps => exact hw.keeps
  case person =>
    exact fun g'' hr' hi' => hw.person g'' (outstandingDiscipline.rely_trans _ _ _ _ hr hr') hi'

/-- A person that is committed stays. -/
theorem WithPerson.of_mem (hw : Quiet w) {p : Person} (hp : p ∈ g.people) (hid : p.id = personId)
    (howner : p.userId = userId) : WithPerson userId personId w h g where
  commit := commit_of_quiet hw
  keeps g' := (hw g').obligations
  person g' hr _ := ⟨p, (hw g').people ▸ hr.2.kept p hp, hid, howner⟩

/-- The insert of an obligation of a person the session sees. -/
theorem wp_createObligationRow {command : CreateObligationCommand} {asOf : Date}
    (hw : WithPerson userId command.personId w h g) :
    outstandingDiscipline.wp (createObligationRow kind oid userId command asOf)
      (fun _ => outstandingDiscipline.Commit ()) w h g := by
  rw [createObligationRow, outstandingDiscipline.wp_bind]
  apply wp_insertChecked
  intro g₁ g₂ g₃ hr₁ hi₁ hr₂ _ hviol hr₃ hi₃
  obtain ⟨hfresh, stored, hstore, hpos⟩ := obligationViolation_none hviol
  rw [(hw.keeps g₂).obligations_eq kind] at hfresh
  refine outstandingDiscipline.wp_of_readOnly (readOnly_view _) hi₃ fun view g₄ hr₄ _ => ?_
  intro g' hr hi
  have hlock : rowLock kind oid ∈ rowLock kind oid :: h := List.mem_cons_self
  -- no obligation has appeared under the locked identifier since the check
  have hsame : SameObligation kind oid g₂ g' := (hr₃.1.trans (hr₄.1.trans hr.1)) kind oid hlock
  have hrely : outstandingDiscipline.rely (rowLock kind oid :: h) g₁ g' :=
    outstandingDiscipline.rely_trans _ _ _ _ hr₂ (outstandingDiscipline.rely_trans _ _ _ _ hr₃
      (outstandingDiscipline.rely_trans _ _ _ _ hr₄ hr))
  obtain ⟨hcommit, hkeeps, hperson⟩ := WithPerson.stable () w h g g₁ hr₁ hi₁ hw
  obtain ⟨⟨hok, hpeople⟩, hobligations, hborn⟩ := commit_lock (l := rowLock kind oid) hcommit g' hrely hi
  obtain ⟨person, hmem, hid, howner⟩ := hperson g' (rely_of_cons hrely) hi
  have hfresh' : ∀ o ∈ obligations kind (w g'), o.id ≠ oid := by
    intro o ho hoid
    rw [(hkeeps g').obligations_eq kind] at ho
    exact hfresh o ((hsame.row o hoid).1 ho) hoid
  simp only [Function.comp_apply, hstore]
  obtain ⟨hok', hobligations'⟩ := create_commit (o := {
    id := oid
    userId := userId
    personId := command.personId
    amount := stored
    currency := command.currency
    description := command.description
    issuedDate := command.issuedDate
    dueDate := command.dueDate
    status := .opened
    transactionId := command.transactionId }) hok hlock hfresh' rfl hpos
  refine ⟨⟨hok', ⟨?_, ?_⟩⟩, ?_, ?_⟩
  · rw [people_setObligations]
    exact hpeople.ids
  · intro kind' o ho
    rw [people_setObligations]
    rw [obligations_setObligations] at ho
    by_cases hk : kind' = kind
    · subst hk
      rw [if_pos rfl, List.mem_append, List.mem_singleton] at ho
      rcases ho with ho | rfl
      · exact hpeople.known kind' o ho
      · exact ⟨person, hmem, hid, howner⟩
    · rw [if_neg hk] at ho
      exact hpeople.known kind' o ho
  · intro kind' id'
    rcases hobligations' kind' id' with hsame' | hlocked
    · exact .inl (((hkeeps g').same kind' id').trans hsame')
    · rw [(hkeeps g').obligations_eq kind'] at hlocked
      exact .inr hlocked
  · constructor
    · intro p hp
      rw [people_setObligations]
      exact hborn.kept p hp
    · intro p hp
      rw [people_setObligations] at hp
      exact hborn.born p hp

/-- A session that adds a person under a free and locked identifier sees it from then on. -/
theorem WithPerson.insert {p : Person} (hw : Quiet w) (hlock : .row .people p.id ∈ h)
    (hfree : ∀ q ∈ g.people, q.id ≠ p.id) :
    WithPerson p.userId p.id ((fun g : Db => { g with people := g.people ++ [p] }) ∘ w) h g where
  keeps g' := (hw g').obligations
  person g' _ _ := ⟨p, List.mem_append_right _ (List.mem_singleton_self p), rfl, rfl⟩
  commit g' hr hi := by
    have hfree' : ∀ q ∈ g'.people, q.id ≠ p.id := fun q hq hid =>
      hfree q (hr.2.unborn q hq (hid ▸ hlock)) hid
    have hpeople : (w g').people = g'.people := (hw g').people
    have hkeeps : KeepsObligations g'
        (((fun g : Db => { g with people := g.people ++ [p] }) ∘ w) g') := (hw g').obligations
    refine ⟨⟨hkeeps.ok hi.1, ?_, ?_⟩, fun kind id => .inl (hkeeps.same kind id), ?_, ?_⟩
    · show (((w g').people ++ [p]).map Person.id).Nodup
      rw [hpeople]
      exact Table.nodup_append_one hi.2.ids hfree'
    · intro kind o ho
      rw [hkeeps.obligations_eq kind] at ho
      obtain ⟨q, hq, hid, howner⟩ := hi.2.known kind o ho
      exact ⟨q, List.mem_append_left _ (hpeople.symm ▸ hq), hid, howner⟩
    · exact fun q hq => List.mem_append_left _ (hpeople.symm ▸ hq)
    · intro q hq
      rcases List.mem_append.1 hq with hq | hq
      · exact .inl (hpeople ▸ hq)
      · rw [List.mem_singleton.1 hq]
        exact .inr hlock

/-- The insert of a person: it was there under its name, or the session sees it from now on. -/
theorem wp_createPersonRow {command : CreatePersonCommand} (hw : Quiet w) :
    outstandingDiscipline.wp (createPersonRow personId userId command)
      (fun created w h g => created = none ∧ Quiet w ∨
        created = some personId ∧ WithPerson userId personId w h g) w h g := by
  rw [createPersonRow, outstandingDiscipline.wp_bind, wp_require]
  intro _
  rw [outstandingDiscipline.wp_bind, wp_require]
  intro _
  rw [outstandingDiscipline.wp_bind, wp_require]
  intro _
  rw [outstandingDiscipline.wp_bind]
  apply wp_insertOrIgnore
  · exact fun _ _ _ _ _ _ _ => .inl ⟨rfl, hw⟩
  intro g₁ g₂ g₃ g₄ g₅ _ _ _ _ _ _ _ _ _ hviol hr₅ _
  have hlock : Lock.row .people personId ∈ Lock.row .people personId ::
      Lock.key .people [userId] [command.normalizedName] :: h := List.mem_cons_self
  -- the identifier is free in the store the check saw, and locked from then on
  have hfree : ∀ p ∈ g₅.people, p.id ≠ personId := by
    intro p hp hid
    have hp₄ := hr₅.2.unborn p hp (hid ▸ hlock)
    rw [← (hw g₄).people] at hp₄
    refine Table.fresh_of_any (fun hany => ?_) p hp₄ hid
    rw [if_pos hany] at hviol
    cases hviol
  exact .inr ⟨rfl, WithPerson.insert (p := ⟨personId, userId, command.name, command.normalizedName⟩) hw
    hlock hfree⟩

/-- The person of an approved obligation. -/
theorem wp_counterpartyPerson {U : Unicode} {fresh : FreshIds} {counterparty : PyStr}
    (hw : Quiet w) :
    outstandingDiscipline.wp (Ai.counterpartyPerson U fresh userId counterparty)
      (fun personId => WithPerson userId personId) w h g := by
  rw [Ai.counterpartyPerson, outstandingDiscipline.wp_bind, wp_ofExcept]
  intro command _
  rw [outstandingDiscipline.wp_bind]
  refine outstandingDiscipline.wp_mono ?_ _ _ _ _ (wp_createPersonRow hw)
  intro created w h g hcreated
  rw [outstandingDiscipline.wp_bind, outstandingDiscipline.wp_reads]
  intro g₁ hr₁ hi₁
  rw [wp_requireSome]
  intro personId hperson
  rcases hcreated with ⟨rfl, hquiet⟩ | ⟨rfl, hwith⟩
  · rw [Option.none_or, Option.map_eq_some_iff] at hperson
    obtain ⟨p, hfound, hid⟩ := hperson
    have hmem := List.mem_of_find?_eq_some hfound
    have howner := List.find?_some hfound
    rw [(hquiet g₁).people] at hmem
    simp only [Bool.and_eq_true, beq_iff_eq] at howner
    exact .of_mem hquiet hmem hid howner.1
  · obtain rfl : fresh.person = personId := by simpa using hperson
    exact WithPerson.stable () w h g g₁ hr₁ hi₁ hwith

theorem wp_approveObligation {C : Ai.ProposalConfig} {fresh : FreshIds} {now : Instant}
    {p : FinancialEventProposal} (hi : outstandingDiscipline.inv g) (hw : Quiet w) :
    outstandingDiscipline.wp (Ai.approveObligation C fresh now userId p kind)
      (fun _ => outstandingDiscipline.Commit ()) w h g := by
  rw [Ai.approveObligation, outstandingDiscipline.wp_bind]
  refine outstandingDiscipline.wp_of_readOnly Ai.readOnly_requireMoneyAndOccurred hi
    fun money g₁ _ hi₁ => ?_
  rw [outstandingDiscipline.wp_bind, wp_requireSome]
  intro counterparty _
  rw [outstandingDiscipline.wp_bind]
  refine outstandingDiscipline.wp_of_readOnly (Tx.readOnly_reads _) hi₁ fun timezone g₂ _ hi₂ => ?_
  rw [outstandingDiscipline.wp_bind, wp_requireSome]
  intro timezoneName _
  rw [outstandingDiscipline.wp_bind]
  refine outstandingDiscipline.wp_mono ?_ _ _ _ _ (wp_counterpartyPerson hw)
  intro personId w h g hwith
  rw [outstandingDiscipline.wp_bind, parseTimezone, wp_require]
  intro _
  rw [outstandingDiscipline.wp_bind, wp_ofExcept]
  intro command hcommand
  rw [outstandingDiscipline.wp_bind]
  obtain ⟨description, value, code, -, -, -, -, rfl⟩ := parseCreateObligation_ok hcommand
  exact outstandingDiscipline.wp_mono (fun _ _ _ _ hc => hc) _ _ _ _
    (wp_createObligationRow hwith)

theorem wp_approveTarget {C : Ai.ProposalConfig} {fresh : FreshIds} {now : Instant}
    {p : FinancialEventProposal} {event : NormalizedFinancialEvent}
    (hi : outstandingDiscipline.inv g) (hw : Quiet w) :
    outstandingDiscipline.wp (Ai.approveTarget C fresh now userId p event)
      (fun _ => outstandingDiscipline.Commit ()) w h g := by
  have hcommit : outstandingDiscipline.Commit () w h g := commit_of_quiet hw
  unfold Ai.approveTarget
  split
  · refine wp_commit_of_writes (Tx.writes_bind (Ai.writes_approveTransaction quiet_ofApproval)
      fun outcome => ?_) hcommit
    unfold Ai.reconciledTarget
    split
    · trivial
    · exact writes_requireSome_bind fun _ => trivial
  · rw [outstandingDiscipline.wp_bind]
    exact wp_approveObligation hi hw
  · rw [outstandingDiscipline.wp_bind]
    exact wp_approveObligation hi hw
  · exact wp_commit_of_writes (Tx.writes_bind (Ai.writes_approveRecurring quiet_ofApproval)
      fun _ => trivial) hcommit
  · trivial

theorem quiet_finishApproval {source : SourceConnection} {processing : RawEventProcessing}
    {p : FinancialEventProposal} {target : Option FinancialEventProposal} :
    (Ai.finishApproval source processing p target).Writes Quiet := by
  have hprocessing : ∀ q, (Ingestion.setProcessing q).Writes Quiet :=
    fun q => ⟨fun g => ⟨⟨rfl, rfl, rfl⟩, rfl⟩, trivial⟩
  have hupdate : ∀ q, (Reconciliation.updateProposal q).Writes Quiet := by
    intro q
    exact writes_require_bind ⟨fun g => ⟨⟨rfl, rfl, rfl⟩, rfl⟩, trivial⟩
  cases target with
  | none =>
    exact Tx.writes_bind (hprocessing _) fun _ => Tx.writes_bind (hupdate _) fun _ => trivial
  | some target =>
    refine writes_require_bind (Tx.writes_bind (hprocessing _) fun _ => ?_)
    exact Tx.writes_bind (hupdate _) fun _ => trivial

/-- What holds when the statements before an approval's target have run: quiet writes. -/
theorem wp_quiet_bind {β γ : Type} {p : DbTx β} {k : β → DbTx γ}
    {Q : γ → (Db → Db) → List Lock → Db → Prop} (hp : p.Writes Quiet)
    (hi : outstandingDiscipline.inv g) (hw : Quiet w)
    (hk : ∀ b w h g, Quiet w → outstandingDiscipline.inv g → outstandingDiscipline.wp (k b) Q w h g) :
    outstandingDiscipline.wp (p >>= k) Q w h g := by
  have hquiet := outstandingDiscipline.wp_of_kept
    (J := fun w _ g => Quiet w ∧ outstandingDiscipline.inv g)
    (fun _ _ _ _ _ hi' hj => ⟨hj.1, hi'⟩) (fun _ _ _ _ hu hj => ⟨hu.comp hj.1, hj.2⟩)
    (fun _ _ _ _ hj => hj) hp w h g ⟨hw, hi⟩
  rw [outstandingDiscipline.wp_bind]
  exact outstandingDiscipline.wp_mono (fun b w h g hj => hk b w h g hj.1 hj.2) _ _ _ _ hquiet

theorem wp_approve {C : Ai.ProposalConfig} {fresh : FreshIds} {now : Instant} {proposalId : Uuid}
    (hi : outstandingDiscipline.inv g) :
    outstandingDiscipline.wp (Ai.approve C fresh now userId proposalId)
      (fun _ => outstandingDiscipline.Commit ()) id [] g := by
  rw [Ai.approve]
  refine wp_quiet_bind (writes_selectForUpdate _ _ _ _) hi quiet_id fun locked w h g hw hi => ?_
  refine wp_quiet_bind (writes_requireSome_bind fun _ => writes_require_bind trivial) hi hw
    fun proposal w h g hw hi => ?_
  refine wp_quiet_bind (Tx.writes_reads_bind fun _ => Tx.writes_of_readOnly
    (readOnly_requireSome _ _)) hi hw fun source w h g hw hi => ?_
  refine wp_quiet_bind (Tx.writes_bind (writes_selectForUpdate _ _ _ _) fun _ =>
    Tx.writes_of_readOnly (readOnly_requireSome _ _)) hi hw fun processing w h g hw hi => ?_
  refine wp_quiet_bind (Tx.writes_of_readOnly (readOnly_ofExcept _ _)) hi hw
    fun normalized w h g hw hi => ?_
  refine wp_quiet_bind (Ai.writes_storeNormalizedEvent quiet_ofApproval) hi hw
    fun event w h g hw hi => ?_
  rw [outstandingDiscipline.wp_bind]
  refine outstandingDiscipline.wp_mono ?_ _ _ _ _ (wp_approveTarget hi hw)
  exact fun target w h g hc => wp_commit_of_writes quiet_finishApproval hc

theorem wp_createObligation {zones : TimeZones} {now : Instant}
    (command : CreateObligationCommand) (hi : outstandingDiscipline.inv g) :
    outstandingDiscipline.wp (createObligation kind zones now oid userId command)
      (fun _ => outstandingDiscipline.Commit ()) id [] g := by
  rw [createObligation, outstandingDiscipline.wp_bind]
  refine outstandingDiscipline.wp_of_readOnly readOnly_ownerToday hi fun asOf g₁ _ hi₁ => ?_
  rw [outstandingDiscipline.wp_bind, validateCreateReferences, outstandingDiscipline.wp_bind,
    personExists, outstandingDiscipline.wp_reads]
  intro g₂ hr₂ hi₂
  rw [outstandingDiscipline.wp_bind, wp_require]
  intro hpresent
  obtain ⟨p, hp, hmatch⟩ := List.any_eq_true.1 hpresent
  simp only [Bool.and_eq_true, beq_iff_eq] at hmatch
  have hwith : WithPerson userId command.personId id [] g₂ :=
    .of_mem quiet_id hp hmatch.2 hmatch.1
  refine outstandingDiscipline.wp_of_readOnly (readOnly_validateTransactionReference _) hi₂
    fun _ g₃ hr₃ hi₃ => ?_
  exact wp_createObligationRow (WithPerson.stable () id [] g₂ g₃ hr₃ hi₃ hwith)

theorem wp_createPerson {command : CreatePersonCommand} (hi : outstandingDiscipline.inv g) :
    outstandingDiscipline.wp (createPerson personId userId command)
      (fun _ => outstandingDiscipline.Commit ()) id [] g := by
  rw [createPerson]
  refine wp_quiet_bind (Tx.writes_reads_bind fun _ => Tx.writes_of_readOnly
    (readOnly_requireSome _ _)) hi quiet_id fun timezone w h g hw hi => ?_
  rw [outstandingDiscipline.wp_bind]
  refine outstandingDiscipline.wp_mono ?_ _ _ _ _ (wp_createPersonRow hw)
  intro created w h g hcreated
  rw [wp_requireSome]
  intro person hperson
  rcases hcreated with ⟨rfl, -⟩ | ⟨-, hwith⟩
  · cases hperson
  · exact hwith.commit

/-- A settlement's and a cancellation's update of an obligation. -/
theorem keepsPeople_status {f : Obligation → Obligation} (hperson : ∀ o, (f o).personId = o.personId)
    (howner : ∀ o, (f o).userId = o.userId) :
    KeepsPeople (setObligations kind (Table.set Obligation.id oid f)) := by
  intro g
  refine ⟨people_setObligations _ _ _, fun kind' o ho => ?_⟩
  rw [obligations_setObligations] at ho
  by_cases hk : kind' = kind
  · subst hk
    rw [if_pos rfl] at ho
    obtain ⟨o', ho', rfl⟩ := Table.mem_set.1 ho
    refine ⟨o', ho', ?_⟩
    by_cases hid : o'.id = oid
    · rw [if_pos hid]
      exact ⟨(hperson o').symm, (howner o').symm⟩
    · rw [if_neg hid]
      exact ⟨rfl, rfl⟩
  · rw [if_neg hk] at ho
    exact ⟨o, ho, rfl, rfl⟩

theorem keepsPeople_settlements (f : List ObligationSettlement → List ObligationSettlement) :
    KeepsPeople fun g => { g with settlements := f g.settlements } := by
  intro g
  refine ⟨rfl, fun kind o ho => ⟨o, ?_, rfl, rfl⟩⟩
  rwa [obligations_settlements] at ho

theorem keepsPeople_settle {zones : TimeZones} {now : Instant} {settlementId : Uuid}
    {command : SettleObligationCommand} :
    (settle kind zones now settlementId userId oid command).Writes KeepsPeople := by
  refine Tx.writes_bind (Tx.writes_of_readOnly readOnly_ownerToday) fun asOf => ?_
  refine Tx.writes_bind (writes_selectForUpdate _ _ _ _) fun locked => ?_
  refine writes_requireSome_bind fun obligation => ?_
  refine Tx.writes_bind (Tx.writes_of_readOnly (readOnly_validateTransactionReference _)) fun _ => ?_
  refine Tx.writes_reads_bind fun settled => writes_ofExcept_bind fun amount _ => ?_
  refine Tx.writes_bind (x := addSettlement _ _ _ _ _ _) ?_ fun settlement => ?_
  · refine Tx.writes_bind (writes_insertChecked ?_) fun _ => trivial
    cases Money.store amount with
    | none => exact fun g => ⟨rfl, fun kind o ho => ⟨o, ho, rfl, rfl⟩⟩
    | some stored => exact keepsPeople_settlements (· ++ [_])
  · refine Tx.writes_bind (x := setObligationStatus _ _ _) ?_ fun _ => ?_
    · exact ⟨keepsPeople_status (fun _ => rfl) fun _ => rfl, trivial⟩
    · exact Tx.writes_of_readOnly (readOnly_result _ _)

theorem keepsPeople_cancel {zones : TimeZones} {now : Instant} :
    (cancel kind zones now userId oid).Writes KeepsPeople := by
  refine Tx.writes_bind (Tx.writes_of_readOnly readOnly_ownerToday) fun asOf => ?_
  refine Tx.writes_bind (writes_selectForUpdate _ _ _ _) fun locked => ?_
  refine writes_requireSome_bind fun obligation => writes_require_bind ?_
  refine Tx.writes_bind (x := setObligationStatus _ _ _) ?_ fun _ => ?_
  · exact ⟨keepsPeople_status (fun _ => rfl) fun _ => rfl, trivial⟩
  · exact Tx.writes_of_readOnly (readOnly_view _)

/-- A workflow that meets the settlement discipline and keeps people meets this one. -/
theorem wp_of_settlement {β : Type} {p : DbTx β} {result : β → ObligationResult}
    (hsafe : settlementDiscipline.wp p (fun r => settlementDiscipline.Commit (result r)) id [] g)
    (hp : p.Writes KeepsPeople) :
    outstandingDiscipline.wp p (fun _ => outstandingDiscipline.Commit ()) id [] g := by
  have hcommit := outstandingDiscipline.wp_weaken (D := settlementDiscipline)
    (fun _ hi => hi.1) (fun _ _ _ hr => hr.1) p _ _ _ _ hsafe
  have hpeople := outstandingDiscipline.wp_of_writes (fun u w hu hw => KeepsPeople.comp hu hw) hp id [] g
    fun g => ⟨rfl, fun kind o ho => ⟨o, ho, rfl, rfl⟩⟩
  refine outstandingDiscipline.wp_mono ?_ p _ _ _ (outstandingDiscipline.wp_and p _ _ _ hcommit hpeople)
  intro r w h g ⟨hc, hw⟩ g' hr hi
  obtain ⟨hok, hobligations⟩ := hc g' hr.1 hi.1
  refine ⟨⟨hok, hw.peopleOk hi.2⟩, hobligations, fun p hp => ?_, fun p hp => ?_⟩
  · rwa [(hw g').1]
  · rw [(hw g').1] at hp
    exact .inl hp

/-- Every call is safe from any store that satisfies the invariant. -/
theorem requestsLedger_safe {zones : TimeZones} {log : List Unit} {p : DbTx Unit}
    (hp : RequestsLedger zones log p) (hi : outstandingDiscipline.inv g) :
    outstandingDiscipline.Safe p id [] g := by
  obtain ⟨call, rfl⟩ := hp
  have hreturn : ∀ {β : Type} (x : DbTx β),
      outstandingDiscipline.wp x (fun _ => outstandingDiscipline.Commit ()) id [] g →
      outstandingDiscipline.Safe (x >>= fun _ => pure ()) id [] g := by
    intro β x hx
    exact (outstandingDiscipline.wp_bind _ _ _ _ _ _).2 hx
  have hoperation : ∀ {β : Type} (x : DbTx β) (f : β → ObligationResult),
      outstandingDiscipline.wp x (fun _ => outstandingDiscipline.Commit ()) id [] g →
      outstandingDiscipline.Safe ((do pure (f (← x))) >>= fun _ => pure ()) id [] g := by
    intro β x f hx
    refine hreturn _ ?_
    exact (outstandingDiscipline.wp_bind _ _ _ _ _ _).2 hx
  cases call with
  | obligation operation =>
    cases operation with
    | createReceivable now oid userId command =>
      exact hoperation _ _ (wp_createObligation command hi)
    | createPayable now oid userId command => exact hoperation _ _ (wp_createObligation command hi)
    | settleReceivable now settlementId userId oid command =>
      exact hoperation _ _ (wp_of_settlement (settle_safe settlementId command hi.1) keepsPeople_settle)
    | settlePayable now settlementId userId oid command =>
      exact hoperation _ _ (wp_of_settlement (settle_safe settlementId command hi.1) keepsPeople_settle)
    | cancelReceivable now userId oid =>
      exact hoperation _ _ (wp_of_settlement (cancel_safe hi.1) keepsPeople_cancel)
    | cancelPayable now userId oid =>
      exact hoperation _ _ (wp_of_settlement (cancel_safe hi.1) keepsPeople_cancel)
  | createPerson personId userId command => exact hreturn _ (wp_createPerson hi)
  | approve C fresh now userId proposalId => exact hreturn _ (wp_approve hi)

end Safety

/-! ### The two views -/

/-- What the lists of an owner's receivables and payables and the totals by currency have in
    common. -/
structure ViewsAgree (userId : Uuid) (g : Db) (receivables payables : List ObligationView)
    (totals : List OutstandingByCurrency) : Prop where
  currencies : ∀ c, c ∈ totals.map OutstandingByCurrency.currency ↔
    ∃ kind, ∃ o ∈ obligations kind g, o.userId = userId ∧ o.currency = c
  distinct : (totals.map OutstandingByCurrency.currency).Nodup
  receivable : ∀ t ∈ totals, t.receivable =
    ((receivables.filter fun v => v.currency == t.currency).map ObligationView.outstandingAmount).sum
  payable : ∀ t ∈ totals, t.payable =
    ((payables.filter fun v => v.currency == t.currency).map ObligationView.outstandingAmount).sum
  net : ∀ t ∈ totals, t.netExposure = decSub t.receivable t.payable
  exact : ∀ t ∈ totals, |t.receivable - t.payable| < 10 ^ 24 →
    t.netExposure = t.receivable - t.payable
  nonneg : ∀ v ∈ receivables ++ payables, 0 ≤ v.outstandingAmount
  settled : ∀ v ∈ receivables ++ payables,
    v.settlementStatus = .paid ∨ v.settlementStatus = .cancelled → v.outstandingAmount = 0

section Views

variable {kind : ObligationKind} {userId : Uuid} {asOf : Date} {g : Db}

/-- The owner's obligations of one kind. -/
def ownObligations (kind : ObligationKind) (userId : Uuid) (g : Db) : List Obligation :=
  (obligations kind g).filter fun o => o.userId == userId

theorem mem_ownObligations {o : Obligation} :
    o ∈ ownObligations kind userId g ↔ o ∈ obligations kind g ∧ o.userId = userId := by
  rw [ownObligations, List.mem_filter, beq_iff_eq]

/-- The views that are listed. -/
def listed (kind : ObligationKind) (userId : Uuid) (asOf : Date) (g : Db) : List ObligationView :=
  ((joinedObligations kind userId g).insertionSort fun a b => newer a b = true).map
    (joinedView kind asOf g)

/-- Every listed view is one of the owner's obligations, each once. -/
theorem listed_perm (kind : ObligationKind) (userId : Uuid) (asOf : Date) (hp : PeopleOk g) :
    ∃ name : Obligation → PyStr,
    (listed kind userId asOf g).Perm
      ((ownObligations kind userId g).map fun o => joinedView kind asOf g (o, name o)) := by
  obtain ⟨name, hname⟩ := joined_eq kind userId hp
  refine ⟨name, ?_⟩
  have hsorted := (List.perm_insertionSort (fun a b => newer a b = true)
    (joinedObligations kind userId g)).map (joinedView kind asOf g)
  refine hsorted.trans (List.Perm.of_eq ?_)
  rw [hname, List.map_map]
  rfl

/-- The listed outstanding amounts in one currency add up to what the query sums. -/
theorem listed_sum (hg : ObligationsOk g) (hp : PeopleOk g) (c : PyStr) :
    (((listed kind userId asOf g).filter fun v => v.currency == c).map
      ObligationView.outstandingAmount).sum =
      Group.sumOf Obligation.currency (outstandingOf kind g) c (ownObligations kind userId g) := by
  obtain ⟨name, hperm⟩ := listed_perm kind userId asOf hp
  rw [((hperm.filter _).map _).sum_eq, List.filter_map, List.map_map, Group.sumOf]
  have hsame : (ownObligations kind userId g).filter (fun o => o.currency == c) =
      (ownObligations kind userId g).filter fun o => o.currency = c :=
    List.filter_congr fun o _ => beq_eq_decide o.currency c
  show (List.map _ ((ownObligations kind userId g).filter fun o => o.currency == c)).sum = _
  rw [hsame]
  congr 1
  refine List.map_congr_left fun o ho => ?_
  exact outstanding_view hg (mem_ownObligations.1 (List.mem_of_mem_filter ho)).1 (name o)

/-- What the query sums is a number of units. -/
theorem sumOf_units (kind : ObligationKind) (userId : Uuid) (g : Db) (c : PyStr) : ∃ n : ℤ,
    Group.sumOf Obligation.currency (outstandingOf kind g) c (ownObligations kind userId g) =
      n / 10 ^ 4 := by
  rw [Group.sumOf]
  induction (ownObligations kind userId g).filter fun o => o.currency = c with
  | nil => exact ⟨0, by simp⟩
  | cons o rows ih =>
    obtain ⟨n, hn⟩ := ih
    rw [List.map_cons, List.sum_cons, hn, outstandingOf, Money.value]
    split_ifs
    · exact ⟨n, by rw [zero_add]⟩
    · refine ⟨o.amount.units - settledUnits (settlementsOf kind o.id g) + n, ?_⟩
      push_cast
      ring

theorem listed_spec (hg : ObligationsOk g) (hp : PeopleOk g) {v : ObligationView}
    (hv : v ∈ listed kind userId asOf g) : 0 ≤ v.outstandingAmount ∧
      (v.settlementStatus = .paid ∨ v.settlementStatus = .cancelled → v.outstandingAmount = 0) := by
  obtain ⟨name, hperm⟩ := listed_perm kind userId asOf hp
  obtain ⟨o, ho, rfl⟩ := List.mem_map.1 (hperm.mem_iff.1 hv)
  have hmem := (mem_ownObligations.1 ho).1
  rw [outstanding_view hg hmem]
  exact outstandingOf_spec hg hmem

/-- The entries of `byCurrency`, with what their sums are. -/
theorem outstandingTotals_spec {t : OutstandingByCurrency}
    (ht : t ∈ byCurrency (totals .receivable userId g) (totals .payable userId g)) :
    t.receivable = Group.sumOf Obligation.currency (outstandingOf .receivable g) t.currency
      (ownObligations .receivable userId g) ∧
    t.payable = Group.sumOf Obligation.currency (outstandingOf .payable g) t.currency
      (ownObligations .payable userId g) ∧
    t.netExposure = decSub t.receivable t.payable := by
  obtain ⟨c, -, rfl⟩ := List.mem_map.1 ht
  exact ⟨Group.lookup_sums _ _, Group.lookup_sums _ _, rfl⟩

theorem currencies_byCurrency (receivables payables : List (PyStr × ℚ)) :
    (byCurrency receivables payables).map OutstandingByCurrency.currency =
      (receivables.map Prod.fst ++ payables.map Prod.fst).dedup.insertionSort (· ≤ ·) := by
  rw [byCurrency, List.map_map]
  exact List.map_id _

/-- The two views agree on every store whose obligations and people are in order. -/
theorem viewsAgree (hg : ObligationsOk g) (hp : PeopleOk g) :
    ViewsAgree userId g (listed .receivable userId asOf g) (listed .payable userId asOf g)
      (byCurrency (totals .receivable userId g) (totals .payable userId g)) where
  currencies c := by
    rw [currencies_byCurrency, List.mem_insertionSort, List.mem_dedup, List.mem_append, totals,
      totals, Group.mem_keys_sums, Group.mem_keys_sums]
    constructor
    · rintro (⟨o, ho, hc⟩ | ⟨o, ho, hc⟩)
      · obtain ⟨hmem, howner⟩ := mem_ownObligations.1 ho
        exact ⟨.receivable, o, hmem, howner, hc⟩
      · obtain ⟨hmem, howner⟩ := mem_ownObligations.1 ho
        exact ⟨.payable, o, hmem, howner, hc⟩
    · rintro ⟨kind, o, hmem, howner, hc⟩
      cases kind with
      | receivable => exact .inl ⟨o, mem_ownObligations.2 ⟨hmem, howner⟩, hc⟩
      | payable => exact .inr ⟨o, mem_ownObligations.2 ⟨hmem, howner⟩, hc⟩
  distinct := by
    rw [currencies_byCurrency, (List.perm_insertionSort _ _).nodup_iff]
    exact List.nodup_dedup _
  receivable t ht := by rw [listed_sum hg hp, (outstandingTotals_spec ht).1]
  payable t ht := by rw [listed_sum hg hp, (outstandingTotals_spec ht).2.1]
  net t ht := (outstandingTotals_spec ht).2.2
  exact t ht hlt := by
    obtain ⟨hreceivable, hpayable, hnet⟩ := outstandingTotals_spec ht
    obtain ⟨m, hm⟩ := sumOf_units .receivable userId g t.currency
    obtain ⟨n, hn⟩ := sumOf_units .payable userId g t.currency
    rw [hnet, hreceivable, hpayable, hm, hn]
    rw [hreceivable, hpayable, hm, hn, ← sub_div, abs_div, div_lt_iff₀ (by norm_num)] at hlt
    have hmax : |m - n| < 10 ^ 28 := by
      have hcast : |((m - n : ℤ) : ℚ)| < 10 ^ 28 := by
        push_cast
        refine hlt.trans_eq ?_
        norm_num
      exact_mod_cast hcast
    rw [decSub_exact hmax]
    push_cast
    rw [sub_div]
  nonneg v hv := (List.mem_append.1 hv).elim (fun hv => (listed_spec hg hp hv).1)
    fun hv => (listed_spec hg hp hv).1
  settled v hv := (List.mem_append.1 hv).elim (fun hv => (listed_spec hg hp hv).2)
    fun hv => (listed_spec hg hp hv).2

end Views

/-! ### A ledger of many loans -/

section Sample

/-- A clock that knows every zone and shows the first day. -/
def sampleZones : TimeZones := ⟨fun _ => true, fun _ _ => 0⟩

/-- An obligation of the only owner and the only person of the sample store. -/
def sampleCommand (amount : ℚ) : CreateObligationCommand :=
  ⟨2, amount, py "EUR", py "loan", 0, none, none⟩

/-- The row it is stored as. -/
def sampleRow (id : Nat) (amount : Money) : Obligation where
  id := id
  userId := 1
  personId := 2
  amount := amount
  currency := py "EUR"
  description := py "loan"
  issuedDate := 0
  dueDate := none
  status := .opened
  transactionId := none

/-- In a store with the owner and the person, a new identifier is an obligation created. -/
theorem create_run (kind : ObligationKind) {g : Db} {id : Nat} {amount : ℚ} {stored : Money}
    (husers : g.users = sampleStore.users) (hpeople : g.people = sampleStore.people)
    (hfresh : ∀ o ∈ obligations kind g, o.id ≠ id)
    (hviol : obligationViolation kind id (sampleCommand amount) g = none)
    (hstore : Money.store amount = some stored) :
    ∃ v, (createObligation kind sampleZones 0 id 1 (sampleCommand amount)).run g =
      .ok (v, setObligations kind (· ++ [sampleRow id stored]) g) := by
  have htoday : (ownerToday sampleZones 0 1).run g = .ok (0, g) := by
    simp only [ownerToday, requireOwner, ownerTimezone, Tx.run_bind, Tx.run_reads, husers]
    rfl
  have hrefs : (validateCreateReferences 1 (sampleCommand amount)).run g = .ok ((), g) := by
    simp only [validateCreateReferences, personExists, Tx.run_bind, Tx.run_reads, hpeople]
    rfl
  have hfound : (obligations kind (setObligations kind (· ++ [sampleRow id stored]) g)).find?
      (fun o => o.userId == 1 && o.id == id) = some (sampleRow id stored) := by
    rw [obligations_setObligations, if_pos rfl]
    refine Table.find?_append_fresh (fun o ho => ?_) (by simp [sampleRow])
    simp [hfresh o ho]
  have hperson : (setObligations kind (· ++ [sampleRow id stored]) g).people = sampleStore.people := by
    rw [people_setObligations, hpeople]
  rw [createObligation, Tx.run_bind, htoday]
  dsimp only
  rw [Tx.run_bind, hrefs]
  dsimp only
  rw [createObligationRow, Tx.run_bind, run_insertChecked, hviol]
  simp only [sampleCommand, hstore]
  show ∃ v, ((getObligation kind 1 id (some amount) 0 >>= fun projected =>
    requireSome projected _).run (setObligations kind (· ++ [sampleRow id stored]) g)) = .ok (v, _)
  rw [Tx.run_bind, getObligation, Tx.run_reads, hfound]
  dsimp only [bind, Option.bind]
  rw [hperson]
  exact ⟨_, rfl⟩

/-- The smallest amount owed, and `n` times a hundred thousand billion lent. -/
def lent (n : Nat) : Db := { sampleStore with
  payables := [sampleRow 0 ⟨1, by norm_num⟩]
  receivables := (List.range n).map fun id => sampleRow id ⟨10 ^ 18, by norm_num⟩ }

theorem lent_reachable (n : Nat) : ∃ log,
    Reachable (RequestsLedger sampleZones) Keeps sampleStore
      (⟨lent n, log, fun _ => none⟩ : State Db Lock AppError Unit Unit) := by
  induction n with
  | zero =>
    obtain ⟨v, hv⟩ := create_run .payable (g := sampleStore) rfl rfl
      (show ∀ o ∈ obligations .payable sampleStore, o.id ≠ 0 by
        simp [obligations, sampleStore, Db.empty])
      (show obligationViolation .payable 0 (sampleCommand (1 / 10 ^ 4)) sampleStore = none by
        decide +kernel)
      (show Money.store (1 / 10 ^ 4) = some ⟨1, by norm_num⟩ by decide +kernel)
    have hrun : ((LedgerCall.obligation (.createPayable 0 0 1 (sampleCommand (1 / 10 ^ 4)))).program
        sampleZones).run sampleStore = .ok ((), lent 0) := by
      show ((createObligation .payable sampleZones 0 0 1 (sampleCommand (1 / 10 ^ 4)) >>= fun view =>
        pure (ObligationResult.obligation view)) >>= fun _ => pure ()).run sampleStore = _
      rw [Tx.run_bind, Tx.run_bind, hv]
      rfl
    exact ⟨_, Reachable.alone () .init ⟨_, rfl⟩ hrun⟩
  | succ n ih =>
    obtain ⟨log, hlent⟩ := ih
    have hfresh : ∀ o ∈ obligations .receivable (lent n), o.id ≠ n := by
      intro o ho
      obtain ⟨m, hm, rfl⟩ := List.mem_map.1 ho
      exact (List.mem_range.1 hm).ne
    have hviol : obligationViolation .receivable n (sampleCommand (10 ^ 14)) (lent n) = none := by
      have hany : ((obligations .receivable (lent n)).any fun o => o.id == n) = false := by
        rw [List.any_eq_false]
        exact fun o ho => by simpa using hfresh o ho
      rw [obligationViolation, hany]
      decide +kernel
    obtain ⟨v, hv⟩ := create_run .receivable (g := lent n) rfl rfl hfresh hviol
      (show Money.store (10 ^ 14) = some ⟨10 ^ 18, by norm_num⟩ by decide +kernel)
    have hrows : setObligations .receivable (· ++ [sampleRow n ⟨10 ^ 18, by norm_num⟩]) (lent n) =
        lent (n + 1) := by
      rw [lent, lent, List.range_succ, List.map_append, List.map_singleton]
      rfl
    have hrun : ((LedgerCall.obligation (.createReceivable 0 n 1 (sampleCommand (10 ^ 14)))).program
        sampleZones).run (lent n) = .ok ((), lent (n + 1)) := by
      show ((createObligation .receivable sampleZones 0 n 1 (sampleCommand (10 ^ 14)) >>= fun view =>
        pure (ObligationResult.obligation view)) >>= fun _ => pure ()).run (lent n) = _
      rw [Tx.run_bind, Tx.run_bind, hv, hrows]
      rfl
    exact ⟨_, hlent.alone () ⟨_, rfl⟩ hrun⟩

/-- What is outstanding of that. -/
theorem lent_sum (n : Nat) : Group.sumOf Obligation.currency (outstandingOf .receivable (lent n))
    (py "EUR") (ownObligations .receivable 1 (lent n)) = n * 10 ^ 14 := by
  have hrow : ∀ id, outstandingOf .receivable (lent n) (sampleRow id ⟨10 ^ 18, by norm_num⟩) =
      10 ^ 14 := by
    intro id
    show (10 ^ 18 : ℤ) / 10 ^ 4 - ((0 : ℤ) : ℚ) / 10 ^ 4 = (10 ^ 14 : ℚ)
    norm_num
  have hall : (ownObligations .receivable 1 (lent n)).filter (fun o => o.currency = py "EUR") =
      (List.range n).map fun id => sampleRow id ⟨10 ^ 18, by norm_num⟩ := by
    rw [ownObligations, List.filter_filter]
    refine List.filter_eq_self.2 fun o ho => ?_
    obtain ⟨id, -, rfl⟩ := List.mem_map.1 ho
    rfl
  rw [Group.sumOf, hall, List.map_map]
  have hconst : (List.range n).map (outstandingOf .receivable (lent n) ∘
      fun id => sampleRow id ⟨10 ^ 18, by norm_num⟩) = List.replicate n (10 ^ 14 : ℚ) := by
    refine (List.map_congr_left fun id _ => hrow id).trans ?_
    rw [List.map_const', List.length_range]
  rw [hconst, List.sum_replicate, nsmul_eq_mul]

theorem lent_debt (n : Nat) : Group.sumOf Obligation.currency (outstandingOf .payable (lent n))
    (py "EUR") (ownObligations .payable 1 (lent n)) = 1 / 10 ^ 4 := by
  show ((1 : ℤ) / 10 ^ 4 - ((0 : ℤ) : ℚ) / 10 ^ 4) + 0 = (1 / 10 ^ 4 : ℚ)
  norm_num

end Sample

/-! ### Runs -/

section Runs

variable {ι : Type} [DecidableEq ι] {zones : TimeZones} {g₀ : Db}

/-- A store without obligations whose people have distinct identifiers satisfies the
    invariant. -/
theorem outstandingInv_of_empty (hrows : ∀ kind, obligations kind g₀ = [])
    (hsettlements : g₀.settlements = []) (hpeople : (g₀.people.map Person.id).Nodup) :
    outstandingDiscipline.inv g₀ :=
  ⟨.of_empty hrows hsettlements, hpeople, by simp [hrows]⟩

/-- **The two views of outstanding money agree.**  In every state that any interleaving of the
    calls that write obligations and people reaches from a store without obligations, for every
    owner and day: the totals have one entry for each currency of the owner's obligations; it
    adds up the outstanding amounts of the listed receivables and of the listed payables, and
    its net exposure is their difference in the decimal context, hence the difference itself
    where that has at most 28 digits; and every listed outstanding amount is nonnegative, and
    zero for a paid or cancelled obligation. -/
theorem views_agree (hrows : ∀ kind, obligations kind g₀ = []) (hsettlements : g₀.settlements = [])
    (hpeople : (g₀.people.map Person.id).Nodup) {s : State Db Lock AppError Unit ι}
    (hs : Reachable (RequestsLedger zones) Keeps g₀ s) (userId : Uuid) (asOf : Date) :
    ∃ receivables payables totals,
      (listReceivables userId asOf).run s.db = .ok (receivables, s.db) ∧
      (listPayables userId asOf).run s.db = .ok (payables, s.db) ∧
      (outstandingTotals userId).run s.db = .ok (totals, s.db) ∧
      ViewsAgree userId s.db receivables payables totals := by
  have hgood : outstandingDiscipline.Good s :=
    Discipline.sound (fun _ _ _ hp hi => requestsLedger_safe hp hi)
      (outstandingInv_of_empty hrows hsettlements hpeople) hs
  exact ⟨_, _, _, rfl, rfl, rfl, viewsAgree hgood.inv.1 hgood.inv.2⟩

/-- One loan and the smallest debt: one of the ledgers of `views_agree`. -/
theorem views_agree_lent : ∃ s : State Db Lock AppError Unit Unit,
    Reachable (RequestsLedger sampleZones) Keeps sampleStore s ∧ s.db = lent 1 ∧
      ∃ receivables payables totals,
        (listReceivables 1 0).run s.db = .ok (receivables, s.db) ∧
        (listPayables 1 0).run s.db = .ok (payables, s.db) ∧
        (outstandingTotals 1).run s.db = .ok (totals, s.db) ∧
        ViewsAgree 1 s.db receivables payables totals := by
  obtain ⟨log, hs⟩ := lent_reachable 1
  have hrows : ∀ kind, obligations kind sampleStore = [] := fun kind => by cases kind <;> rfl
  exact ⟨_, hs, rfl, views_agree hrows rfl (by decide) hs 1 0⟩

/-- The net exposure is not always the receivables minus the payables: of twenty billion loans
    of `10 ^ 14` and a debt of `0.0001` it is rounded to 28 digits. -/
theorem net_exposure_rounds : ∃ s : State Db Lock AppError Unit Unit,
    Reachable (RequestsLedger sampleZones) Keeps sampleStore s ∧
    ∃ totals, (outstandingTotals 1).run s.db = .ok (totals, s.db) ∧
      ∃ t ∈ totals, t.netExposure ≠ t.receivable - t.payable := by
  obtain ⟨log, hs⟩ := lent_reachable (2 * 10 ^ 10)
  refine ⟨_, hs, _, rfl, ?_⟩
  have hcurrency : py "EUR" ∈ (byCurrency (totals .receivable 1 (lent (2 * 10 ^ 10)))
      (totals .payable 1 (lent (2 * 10 ^ 10)))).map OutstandingByCurrency.currency := by
    rw [currencies_byCurrency, List.mem_insertionSort, List.mem_dedup, List.mem_append]
    refine .inr (Group.mem_keys_sums.2 ⟨sampleRow 0 ⟨1, by norm_num⟩, ?_, rfl⟩)
    exact mem_ownObligations.2 ⟨List.mem_singleton_self _, rfl⟩
  obtain ⟨t, ht, hc⟩ := List.mem_map.1 hcurrency
  refine ⟨t, ht, ?_⟩
  obtain ⟨hreceivable, hpayable, hnet⟩ := outstandingTotals_spec ht
  rw [hc, lent_sum] at hreceivable
  rw [hc, lent_debt] at hpayable
  rw [hnet, hreceivable, hpayable]
  decide +kernel

end Runs

end Expensea.Ledger
