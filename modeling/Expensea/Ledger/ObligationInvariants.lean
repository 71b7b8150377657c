import Expensea.Ledger.Obligations

namespace Expensea.Ledger

open Txn

/-!
# Obligations — the settlement invariant

The status of an obligation caches a function of the sum of its settlements, and settle
and cancel keep the two in step while they hold the obligation's row lock.

* `StatusAgrees` — the status and the settlements of one obligation agree;
* `SameObligation` — an obligation and its settlements are untouched;
* `settlementDiscipline` — who may change an obligation, and what a holder of its lock
  relies on;
* `settlement_invariant` — the invariant of every reachable state.
-/

/-! ### Invariants -/

/-- The status and the settlements of one obligation agree. -/
structure StatusAgrees (o : Obligation) (settlements : List ObligationSettlement) :
    Prop where
  principal_pos : 0 < o.amount.units
  sum_le : settledUnits settlements ≤ o.amount.units
  amount_pos : ∀ s ∈ settlements, 0 < s.amount.units
  currency_eq : ∀ s ∈ settlements, s.currency = o.currency
  owner_eq : ∀ s ∈ settlements, s.userId = o.userId
  opened_iff : o.status = .opened ↔ o.status ≠ .cancelled ∧ settledUnits settlements = 0
  partiallyPaid_iff : o.status = .partiallyPaid ↔ o.status ≠ .cancelled ∧
    0 < settledUnits settlements ∧ settledUnits settlements < o.amount.units
  paid_iff : o.status = .paid ↔ settledUnits settlements = o.amount.units
  cancelled_lt : o.status = .cancelled → settledUnits settlements < o.amount.units
  not_overdue : o.status ≠ .overdue

/-- What holds of the committed obligations. -/
structure ObligationsOk (g : Db) : Prop where
  ids : ∀ kind, ((obligations kind g).map Obligation.id).Nodup
  rows : ∀ kind, ∀ o ∈ obligations kind g, StatusAgrees o (settlementsOf kind o.id g)
  targets : ∀ kind id, ∀ s ∈ settlementsOf kind id g, ∃ o ∈ obligations kind g, o.id = id

/-- An obligation and its settlements are the same in both stores. -/
structure SameObligation (kind : ObligationKind) (id : Uuid) (g g' : Db) : Prop where
  row : ∀ o : Obligation, o.id = id → (o ∈ obligations kind g' ↔ o ∈ obligations kind g)
  settlements : settlementsOf kind id g' = settlementsOf kind id g

theorem SameObligation.refl (kind : ObligationKind) (id : Uuid) (g : Db) :
    SameObligation kind id g g := ⟨fun _ _ => Iff.rfl, rfl⟩

theorem SameObligation.trans {kind : ObligationKind} {id : Uuid} {g g' g'' : Db}
    (h₁ : SameObligation kind id g g') (h₂ : SameObligation kind id g' g'') :
    SameObligation kind id g g'' where
  row := fun o ho => (h₂.row o ho).trans (h₁.row o ho)
  settlements := h₂.settlements.trans h₁.settlements

/-- The obligation is in the store. -/
def HasObligation (kind : ObligationKind) (id : Uuid) (g : Db) : Prop :=
  ∃ o ∈ obligations kind g, o.id = id

theorem SameObligation.has {kind : ObligationKind} {id : Uuid} {g g' : Db}
    (h : SameObligation kind id g g') (hg : HasObligation kind id g) :
    HasObligation kind id g' := by
  obtain ⟨o, ho, hid⟩ := hg
  exact ⟨o, (h.row o hid).2 ho, hid⟩

/-- The obligation tables are left alone. -/
def KeepsObligations (g g' : Db) : Prop :=
  g'.receivables = g.receivables ∧ g'.payables = g.payables ∧ g'.settlements = g.settlements

theorem KeepsObligations.obligations_eq {g g' : Db} (h : KeepsObligations g g')
    (kind : ObligationKind) : obligations kind g' = obligations kind g := by
  cases kind with
  | receivable => exact h.1
  | payable => exact h.2.1

theorem KeepsObligations.settlementsOf_eq {g g' : Db} (h : KeepsObligations g g')
    (kind : ObligationKind) (id : Uuid) : settlementsOf kind id g' = settlementsOf kind id g := by
  rw [settlementsOf, settlementsOf, h.2.2]

theorem KeepsObligations.same {g g' : Db} (h : KeepsObligations g g') (kind : ObligationKind)
    (id : Uuid) : SameObligation kind id g g' :=
  ⟨fun o _ => by rw [h.obligations_eq kind], h.settlementsOf_eq kind id⟩

theorem KeepsObligations.ok {g g' : Db} (h : KeepsObligations g g') (hg : ObligationsOk g) :
    ObligationsOk g' where
  ids := fun kind => by rw [h.obligations_eq kind]; exact hg.ids kind
  rows := fun kind o ho => by
    rw [h.obligations_eq kind] at ho
    rw [h.settlementsOf_eq kind]
    exact hg.rows kind o ho
  targets := fun kind id s hs => by
    rw [h.settlementsOf_eq kind] at hs
    rw [h.obligations_eq kind]
    exact hg.targets kind id s hs

/-! ### The discipline -/

/-- The lock of an obligation's row. -/
abbrev rowLock (kind : ObligationKind) (id : Uuid) : Lock := .row (obligationTable kind) id

/-- What a commit under the locks `h` does: an obligation is untouched, or its row is
    locked and it was neither paid nor cancelled. -/
def CommitsObligations (h : List Lock) (g g' : Db) : Prop :=
  ∀ kind id, SameObligation kind id g g' ∨ rowLock kind id ∈ h ∧
    ∀ o ∈ obligations kind g, o.id = id → o.status ≠ .paid ∧ o.status ≠ .cancelled

/-- What a session that holds the locks `h` relies on: locked obligations are untouched. -/
def ReliesOnObligations (h : List Lock) (g g' : Db) : Prop :=
  ∀ kind id, rowLock kind id ∈ h → SameObligation kind id g g'

/-- The locking discipline of obligations. -/
def settlementDiscipline : Discipline Db Lock AppError ObligationResult where
  inv := ObligationsOk
  post h _ g g' := CommitsObligations h g g'
  rely := ReliesOnObligations
  env := KeepsObligations
  rely_refl h g := fun kind id _ => .refl kind id g
  rely_trans h g g' g'' h₁ h₂ := fun kind id hl => (h₁ kind id hl).trans (h₂ kind id hl)
  post_rely h h' a g g' _ _ hdisj hc := fun kind id hl => by
    rcases hc kind id with hsame | ⟨hlock, -⟩
    · exact hsame
    · exact absurd hl (hdisj _ hlock)
  env_inv g g' hg he := he.ok hg
  env_rely h g g' _ he := fun kind id _ => he.same kind id

/-! ### The tables under the writes of a workflow -/

section Writes

variable {kind kind' : ObligationKind} {id id' : Uuid} {g : Db}

@[simp] theorem obligations_setObligations (f : List Obligation → List Obligation) :
    obligations kind' (setObligations kind f g) =
      if kind' = kind then f (obligations kind g) else obligations kind' g := by
  cases kind <;> cases kind' <;> rfl

@[simp] theorem settlementsOf_setObligations (f : List Obligation → List Obligation) :
    settlementsOf kind' id' (setObligations kind f g) = settlementsOf kind' id' g := by
  cases kind <;> rfl

@[simp] theorem obligations_settlements (ss : List ObligationSettlement) :
    obligations kind { g with settlements := ss } = obligations kind g := by
  cases kind <;> rfl

theorem settledUnits_append (ss : List ObligationSettlement) (s : ObligationSettlement) :
    settledUnits (ss ++ [s]) = settledUnits ss + s.amount.units := by
  induction ss with
  | nil => simp [settledUnits]
  | cons a ss ih =>
    show a.amount.units + settledUnits (ss ++ [s]) = a.amount.units + settledUnits ss + _
    rw [ih]
    omega

theorem settledUnits_nonneg {ss : List ObligationSettlement}
    (h : ∀ s ∈ ss, 0 < s.amount.units) : 0 ≤ settledUnits ss := by
  induction ss with
  | nil => exact le_refl _
  | cons a ss ih =>
    have ha := h a List.mem_cons_self
    have hss := ih fun s hs => h s (List.mem_cons_of_mem a hs)
    show 0 ≤ a.amount.units + settledUnits ss
    omega

/-- The settlement row of an obligation refers to it and to no other one. -/
theorem refersTo_settlementRow {settlementId userId : Uuid} {command : SettleObligationCommand}
    {amount : Money} :
    refersTo kind' id' (settlementRow kind settlementId userId id command amount)
      = decide (kind' = kind ∧ id' = id) := by
  cases kind <;> cases kind' <;>
    simp [refersTo, settlementRow, eq_comm, beq_eq_decide]

/-- Appending a settlement row adds it to its own obligation only. -/
theorem settlementsOf_append {settlementId userId : Uuid} {command : SettleObligationCommand}
    {amount : Money} :
    settlementsOf kind' id'
        { g with settlements := g.settlements ++
          [settlementRow kind settlementId userId id command amount] } =
      if kind' = kind ∧ id' = id then
        settlementsOf kind' id' g ++ [settlementRow kind settlementId userId id command amount]
      else settlementsOf kind' id' g := by
  show List.filter _ (_ ++ [_]) = _
  rw [List.filter_append, List.filter_singleton, refersTo_settlementRow]
  by_cases h : kind' = kind ∧ id' = id <;> simp [h, settlementsOf]

/-- Two obligations of one kind with one identifier are one row. -/
theorem ObligationsOk.unique (hg : ObligationsOk g) {o o' : Obligation}
    (ho : o ∈ obligations kind g) (ho' : o' ∈ obligations kind g) (hid : o.id = o'.id) :
    o = o' := List.inj_on_of_nodup_map (hg.ids kind) ho ho' hid

/-- Changing one obligation: its row by `f`, its settlements to `ss`, nothing else. -/
structure Changes (kind : ObligationKind) (id : Uuid) (f : Obligation → Obligation)
    (ss : List ObligationSettlement) (g g' : Db) : Prop where
  row : obligations kind g' = Table.set Obligation.id id f (obligations kind g)
  settlements : settlementsOf kind id g' = ss
  others : ∀ kind' id', ¬ (kind' = kind ∧ id' = id) →
    settlementsOf kind' id' g' = settlementsOf kind' id' g
  otherKind : ∀ kind', kind' ≠ kind → obligations kind' g' = obligations kind' g

/-- Any other obligation is untouched. -/
theorem Changes.same_other {f : Obligation → Obligation} {ss : List ObligationSettlement}
    {g' : Db} (hc : Changes kind id f ss g g') (hf : ∀ o, (f o).id = o.id)
    (h : ¬ (kind' = kind ∧ id' = id)) : SameObligation kind' id' g g' where
  row := by
    intro o ho
    by_cases hk : kind' = kind
    · subst hk
      have hne : id' ≠ id := fun e => h ⟨rfl, e⟩
      rw [hc.row, Table.mem_set]
      constructor
      · rintro ⟨o₀, ho₀, rfl⟩
        by_cases he : o₀.id = id
        · rw [if_pos he, hf, he] at ho
          exact absurd ho.symm hne
        · rwa [if_neg he]
      · intro hmem
        exact ⟨o, hmem, by rw [if_neg (ho ▸ hne)]⟩
    · rw [hc.otherKind kind' hk]
  settlements := hc.others kind' id' h

/-- A change of one obligation that leaves it settled keeps the invariant. -/
theorem Changes.ok {f : Obligation → Obligation} {ss : List ObligationSettlement} {g' : Db}
    (hc : Changes kind id f ss g g') (hf : ∀ o, (f o).id = o.id) (hg : ObligationsOk g)
    {o : Obligation} (ho : o ∈ obligations kind g) (hid : o.id = id) (hok : StatusAgrees (f o) ss) :
    ObligationsOk g' where
  ids := by
    intro kind'
    by_cases hk : kind' = kind
    · subst hk
      rw [hc.row, Table.map_key_set hf]
      exact hg.ids kind'
    · rw [hc.otherKind kind' hk]
      exact hg.ids kind'
  rows := by
    intro kind' o' ho'
    by_cases hk : kind' = kind ∧ o'.id = id
    · obtain ⟨rfl, hid'⟩ := hk
      rw [hc.row, Table.mem_set] at ho'
      obtain ⟨o₀, ho₀, rfl⟩ := ho'
      by_cases he : o₀.id = id
      · obtain rfl : o₀ = o := hg.unique ho₀ ho (he.trans hid.symm)
        rw [if_pos he, hf, he, hc.settlements]
        exact hok
      · rw [if_neg he] at hid'
        exact absurd hid' he
    · have hsame := hc.same_other hf hk
      rw [hsame.settlements]
      exact hg.rows kind' o' ((hsame.row o' rfl).1 ho')
  targets := by
    intro kind' id' s hs
    by_cases hk : kind' = kind ∧ id' = id
    · obtain ⟨rfl, rfl⟩ := hk
      refine ⟨f o, ?_, by rw [hf, hid]⟩
      rw [hc.row, Table.mem_set]
      exact ⟨o, ho, by rw [if_pos hid]⟩
    · have hsame := hc.same_other hf hk
      rw [hsame.settlements] at hs
      exact hsame.has (hg.targets kind' id' s hs)

end Writes

/-! ### What a settlement and a cancellation do to one obligation -/

section Steps

variable {o : Obligation} {ss : List ObligationSettlement}

/-- What `_validate_settlement` lets through. -/
theorem validateSettlement_ok {command : SettleObligationCommand} {settled amount : ℚ}
    (h : validateSettlement o command settled = .ok amount) :
    validatePositiveMoney command.amount = .ok amount ∧ o.status ≠ .cancelled ∧
      o.status ≠ .paid ∧ command.currency = o.currency ∧ amount ≤ decSub o.amount.value settled := by
  unfold validateSettlement at h
  cases hm : validatePositiveMoney command.amount with
  | error e => simp [hm] at h
  | ok a =>
    simp only [hm] at h
    split_ifs at h with hcancelled hpaid hcur hout
    obtain rfl : a = amount := by simpa using h
    exact ⟨rfl, hcancelled, hpaid, not_not.1 hcur, not_lt.1 hout⟩

/-- A validated settlement is stored as a positive amount that the outstanding principal
    covers, and the next status compares the stored sum with the principal. -/
theorem validateSettlement_stored {command : SettleObligationCommand} {amount : ℚ}
    (hagrees : StatusAgrees o ss)
    (h : validateSettlement o command (settledUnits ss / 10 ^ 4) = .ok amount) {stored : Money}
    (hstore : Money.store amount = some stored) :
    settledUnits ss + stored.units ≤ o.amount.units ∧
      nextStatus o.amount.value (decAdd (settledUnits ss / 10 ^ 4) amount) =
        if settledUnits ss + stored.units = o.amount.units then .paid else .partiallyPaid := by
  obtain ⟨hm, -, -, -, hle⟩ := validateSettlement_ok h
  obtain ⟨-, hpos, hlt, n, hn⟩ := validatePositiveMoney_ok hm
  have hnonneg : 0 ≤ settledUnits ss := settledUnits_nonneg hagrees.amount_pos
  have hrange : o.amount.units < 10 ^ 19 := (abs_lt.1 o.amount.range).2
  -- the stored units are the rounding of the amount
  have hunits : stored.units = n := by
    rw [Money.store] at hstore
    split at hstore
    · obtain rfl := Option.some.inj hstore
      exact fixed_of_accepted hpos hlt hn
    · cases hstore
  have hout : n ≤ o.amount.units - settledUnits ss := by
    rw [Money.value, decSub_units hagrees.sum_le (by omega)] at hle
    exact stored_le_of_accepted hpos hlt hn hle
  have hle' := hagrees.sum_le
  refine ⟨by omega, ?_⟩
  rw [nextStatus, decAdd_accepted hpos hlt hn hnonneg (by omega), hunits, Money.value]
  have hcmp : (((settledUnits ss + n : ℤ) : ℚ) / 10 ^ 4 = o.amount.units / 10 ^ 4) ↔
      settledUnits ss + n = o.amount.units := by
    rw [div_left_inj' (by norm_num)]
    exact_mod_cast Iff.rfl
  simp only [hcmp]

/-- A settlement keeps the status and the settlements in step. -/
theorem StatusAgrees.settle {command : SettleObligationCommand} {amount : ℚ}
    (hagrees : StatusAgrees o ss)
    (h : validateSettlement o command (settledUnits ss / 10 ^ 4) = .ok amount)
    {row : ObligationSettlement} (hstore : Money.store amount = some row.amount)
    (hpos : 0 < row.amount.units) (hcur : row.currency = command.currency)
    (howner : row.userId = o.userId) :
    StatusAgrees { o with
        status := nextStatus o.amount.value (decAdd (settledUnits ss / 10 ^ 4) amount) }
      (ss ++ [row]) := by
  obtain ⟨-, -, -, hcurrency, -⟩ := validateSettlement_ok h
  obtain ⟨hle, hstatus⟩ := validateSettlement_stored hagrees h hstore
  have hnonneg : 0 ≤ settledUnits ss := settledUnits_nonneg hagrees.amount_pos
  have hsum : settledUnits (ss ++ [row]) = settledUnits ss + row.amount.units :=
    settledUnits_append ss row
  have hall : ∀ {p : ObligationSettlement → Prop}, (∀ s ∈ ss, p s) → p row →
      ∀ s ∈ ss ++ [row], p s := by
    intro p hss hrow s hs
    rcases List.mem_append.1 hs with hs | hs
    · exact hss s hs
    · rwa [List.mem_singleton.1 hs]
  rw [hstatus]
  constructor
  case principal_pos => exact hagrees.principal_pos
  case sum_le => rw [hsum]; exact hle
  case amount_pos => exact hall hagrees.amount_pos hpos
  case currency_eq => exact hall hagrees.currency_eq (hcur.trans hcurrency)
  case owner_eq => exact hall hagrees.owner_eq howner
  case not_overdue =>
    dsimp only
    split <;> simp
  all_goals
    rw [hsum]
    dsimp only
    split <;> simp <;> omega

/-- A cancellation of an obligation that is not paid keeps them in step. -/
theorem StatusAgrees.cancel (hagrees : StatusAgrees o ss) (hpaid : o.status ≠ .paid) :
    StatusAgrees { o with status := .cancelled } ss := by
  have hlt : settledUnits ss < o.amount.units :=
    lt_of_le_of_ne hagrees.sum_le fun e => hpaid (hagrees.paid_iff.2 e)
  constructor
  case principal_pos => exact hagrees.principal_pos
  case sum_le => exact hagrees.sum_le
  case amount_pos => exact hagrees.amount_pos
  case currency_eq => exact hagrees.currency_eq
  case owner_eq => exact hagrees.owner_eq
  case cancelled_lt => exact fun _ => hlt
  case paid_iff => simp [hlt.ne]
  all_goals simp

/-- A new obligation has no settlements and is open. -/
theorem StatusAgrees.create (hopen : o.status = .opened) (hpos : 0 < o.amount.units) :
    StatusAgrees o [] := by
  constructor
  case principal_pos => exact hpos
  case sum_le => exact hpos.le
  case paid_iff => simp [settledUnits, hopen, hpos.ne]
  case cancelled_lt => exact fun _ => hpos
  all_goals simp [settledUnits, hopen]

end Steps

/-! ### Commits -/

section Commits

variable {kind : ObligationKind} {id userId : Uuid} {g : Db} {h : List Lock}

/-- A change of one obligation under its lock commits, if the obligation was neither paid
    nor cancelled or stays as it was. -/
theorem Changes.commits {f : Obligation → Obligation} {ss : List ObligationSettlement} {g' : Db}
    (hc : Changes kind id f ss g g') (hf : ∀ o, (f o).id = o.id) (hg : ObligationsOk g)
    {o : Obligation} (ho : o ∈ obligations kind g) (hid : o.id = id)
    (hlock : rowLock kind id ∈ h)
    (hopen : (o.status ≠ .paid ∧ o.status ≠ .cancelled) ∨ f o = o ∧ ss = settlementsOf kind id g) :
    CommitsObligations h g g' := by
  intro kind' id'
  by_cases hk : kind' = kind ∧ id' = id
  · obtain ⟨rfl, rfl⟩ := hk
    rcases hopen with hopen | ⟨hfix, hss⟩
    · refine .inr ⟨hlock, fun o' ho' hid' => ?_⟩
      rwa [hg.unique ho' ho (hid'.trans hid.symm)]
    · -- the update rewrites the row to itself
      have hrow : obligations kind' g' = obligations kind' g := by
        rw [hc.row]
        refine (List.map_congr_left fun o' ho' => ?_).trans (List.map_id _)
        by_cases he : o'.id = id'
        · rw [if_pos he, hg.unique ho' ho (he.trans hid.symm), hfix]
          rfl
        · rw [if_neg he]
          rfl
      exact .inl ⟨fun o' _ => by rw [hrow], by rw [hc.settlements, hss]⟩
  · exact .inl (hc.same_other hf hk)

/-- The writes of `settle`. -/
theorem settle_commit (settlementId : Uuid) {o : Obligation} {command : SettleObligationCommand}
    {amount : ℚ} {stored : Money} (hg : ObligationsOk g)
    (ho : o ∈ obligations kind g) (hid : o.id = id) (howner : o.userId = userId)
    (hlock : rowLock kind id ∈ h)
    (hval : validateSettlement o command (settledUnits (settlementsOf kind id g) / 10 ^ 4) =
      .ok amount)
    (hstore : Money.store amount = some stored) (hpos : 0 < stored.units) :
    let g' := setObligations kind
      (Table.set Obligation.id id fun o' => { o' with
        status := nextStatus o.amount.value
          (decAdd (settledUnits (settlementsOf kind id g) / 10 ^ 4) amount) })
      { g with settlements := g.settlements ++
        [settlementRow kind settlementId userId id command stored] }
    ObligationsOk g' ∧ CommitsObligations h g g' := by
  intro g'
  have hc : Changes kind id
      (fun o' => { o' with
        status := nextStatus o.amount.value
          (decAdd (settledUnits (settlementsOf kind id g) / 10 ^ 4) amount) })
      (settlementsOf kind id g ++ [settlementRow kind settlementId userId id command stored])
      g g' := by
    constructor
    · simp [g']
    · simp [g', settlementsOf_append]
    · intro kind' id' hk
      simp [g', settlementsOf_append, hk]
    · intro kind' hk
      simp [g', hk]
  have hagrees : StatusAgrees o (settlementsOf kind id g) := hid ▸ hg.rows kind o ho
  obtain ⟨-, hcancelled, hpaid, -, -⟩ := validateSettlement_ok hval
  refine ⟨hc.ok (fun _ => rfl) hg ho hid ?_, hc.commits (fun _ => rfl) hg ho hid hlock
    (.inl ⟨hpaid, hcancelled⟩)⟩
  exact hagrees.settle hval hstore hpos rfl howner.symm

/-- The write of `cancel`. -/
theorem cancel_commit {o : Obligation} (hg : ObligationsOk g) (ho : o ∈ obligations kind g)
    (hid : o.id = id) (hlock : rowLock kind id ∈ h) (hpaid : o.status ≠ .paid) :
    let g' := setObligations kind
      (Table.set Obligation.id id fun o' => { o' with status := .cancelled }) g
    ObligationsOk g' ∧ CommitsObligations h g g' := by
  intro g'
  have hc : Changes kind id (fun o' => { o' with status := .cancelled })
      (settlementsOf kind id g) g g' := by
    constructor
    · simp [g']
    · simp [g']
    · intro kind' id' hk
      simp [g']
    · intro kind' hk
      simp [g', hk]
  have hagrees : StatusAgrees o (settlementsOf kind id g) := hid ▸ hg.rows kind o ho
  refine ⟨hc.ok (fun _ => rfl) hg ho hid (hagrees.cancel hpaid),
    hc.commits (fun _ => rfl) hg ho hid hlock ?_⟩
  by_cases hcancelled : o.status = .cancelled
  · exact .inr ⟨by rw [← hcancelled], rfl⟩
  · exact .inl ⟨hpaid, hcancelled⟩

/-- The write of `create`: a row under a new identifier. -/
theorem create_commit {o : Obligation} (hg : ObligationsOk g) (hlock : rowLock kind o.id ∈ h)
    (hfresh : ∀ o' ∈ obligations kind g, o'.id ≠ o.id) (hopen : o.status = .opened)
    (hpos : 0 < o.amount.units) :
    let g' := setObligations kind (· ++ [o]) g
    ObligationsOk g' ∧ CommitsObligations h g g' := by
  intro g'
  have hrows : ∀ kind', obligations kind' g' =
      if kind' = kind then obligations kind g ++ [o] else obligations kind' g := by
    intro kind'
    simp [g']
  have hss : ∀ kind' id', settlementsOf kind' id' g' = settlementsOf kind' id' g := by
    intro kind' id'
    simp [g']
  have hnone : settlementsOf kind o.id g = [] := by
    refine List.eq_nil_iff_forall_not_mem.2 fun s hs => ?_
    obtain ⟨o', ho', hid'⟩ := hg.targets kind o.id s hs
    exact hfresh o' ho' hid'
  have hmem : ∀ kind' o', o' ∈ obligations kind' g → o' ∈ obligations kind' g' := by
    intro kind' o' ho'
    rw [hrows]
    split
    · rename_i hk
      exact List.mem_append_left _ (hk ▸ ho')
    · exact ho'
  have hnew : ∀ kind' o', o' ∈ obligations kind' g' →
      o' ∈ obligations kind' g ∨ kind' = kind ∧ o' = o := by
    intro kind' o' ho'
    rw [hrows] at ho'
    split at ho'
    · rename_i hk
      rcases List.mem_append.1 ho' with ho' | ho'
      · exact .inl (hk ▸ ho')
      · exact .inr ⟨hk, List.mem_singleton.1 ho'⟩
    · exact .inl ho'
  refine ⟨⟨?_, ?_, ?_⟩, ?_⟩
  · intro kind'
    rw [hrows]
    split
    · rw [List.map_append, List.nodup_append]
      refine ⟨hg.ids kind, by simp, ?_⟩
      intro a ha b hb
      obtain ⟨o', ho', rfl⟩ := List.mem_map.1 ha
      rw [List.map_singleton, List.mem_singleton] at hb
      exact hb ▸ hfresh o' ho'
    · exact hg.ids kind'
  · intro kind' o' ho'
    rw [hss]
    rcases hnew kind' o' ho' with ho' | ⟨rfl, rfl⟩
    · exact hg.rows kind' o' ho'
    · rw [hnone]
      exact .create hopen hpos
  · intro kind' id' s hs
    rw [hss] at hs
    obtain ⟨o', ho', hid'⟩ := hg.targets kind' id' s hs
    exact ⟨o', hmem kind' o' ho', hid'⟩
  · intro kind' id'
    by_cases hk : kind' = kind ∧ id' = o.id
    · obtain ⟨rfl, rfl⟩ := hk
      exact .inr ⟨hlock, fun o' ho' hid' => absurd hid' (hfresh o' ho')⟩
    · refine .inl ⟨fun o' hid' => ⟨fun ho' => ?_, hmem kind' o'⟩, hss kind' id'⟩
      rcases hnew kind' o' ho' with ho' | ⟨hk', rfl⟩
      · exact ho'
      · exact absurd ⟨hk', hid'.symm⟩ hk

end Commits

/-! ### The workflows are safe -/

section Safety

variable {kind : ObligationKind} {zones : TimeZones} {now : Instant} {oid userId : Uuid}

theorem readOnly_ownerToday : (ownerToday zones now userId).ReadOnly := by
  refine Tx.readOnly_bind (Tx.readOnly_bind (Tx.readOnly_reads _) fun _ => ?_) fun _ => ?_
  · exact readOnly_requireSome _ _
  · exact Tx.readOnly_bind (readOnly_require _ _) fun _ => Tx.readOnly_pure _

theorem readOnly_validateTransactionReference (transactionId : Option Uuid) :
    (validateTransactionReference userId transactionId).ReadOnly := by
  cases transactionId with
  | none => exact Tx.readOnly_pure ()
  | some t => exact Tx.readOnly_bind (Tx.readOnly_reads _) fun _ => readOnly_require _ _

theorem readOnly_validateCreateReferences (command : CreateObligationCommand) :
    (validateCreateReferences userId command).ReadOnly :=
  Tx.readOnly_bind (Tx.readOnly_reads _) fun _ =>
    Tx.readOnly_bind (readOnly_require _ _) fun _ => readOnly_validateTransactionReference _

theorem readOnly_result {asOf : Date} (settlement : SettlementView) (e : AppError) :
    (do
      let projected ← getObligation kind userId oid none asOf
      let projected ← requireSome projected e
      pure (⟨settlement, projected⟩ : SettlementResult) : DbTx SettlementResult).ReadOnly :=
  Tx.readOnly_bind (Tx.readOnly_reads _) fun _ =>
    Tx.readOnly_bind (readOnly_requireSome _ _) fun _ => Tx.readOnly_pure _

theorem readOnly_view {given : Option ℚ} {asOf : Date} (e : AppError) :
    (do
      let projected ← getObligation kind userId oid given asOf
      requireSome projected e).ReadOnly :=
  Tx.readOnly_bind (Tx.readOnly_reads _) fun _ => readOnly_requireSome _ _

theorem ReliesOnObligations.trans {h : List Lock} {g g' g'' : Db}
    (h₁ : ReliesOnObligations h g g') (h₂ : ReliesOnObligations h g' g'') :
    ReliesOnObligations h g g'' := settlementDiscipline.rely_trans h g g' g'' h₁ h₂

/-- Once the row lock is held, the obligation stays as it was read. -/
theorem ReliesOnObligations.locked {h : List Lock} {g g' : Db} {o : Obligation}
    (hr : ReliesOnObligations h g g') (hlock : rowLock kind oid ∈ h)
    (ho : o ∈ obligations kind g) (hid : o.id = oid) :
    o ∈ obligations kind g' ∧ settlementsOf kind oid g' = settlementsOf kind oid g :=
  have hsame := hr kind oid hlock
  ⟨(hsame.row o hid).2 ho, hsame.settlements⟩

/-- What the locking read of a workflow returns. -/
theorem lockObligation_found {g : Db} {r o : Obligation}
    (hr : (r.userId == userId && r.id == oid) = true)
    (ho : (obligations kind g).find? (fun o' => o'.id == r.id && (o'.userId == userId && o'.id == oid))
      = some o) :
    r.id = oid ∧ o ∈ obligations kind g ∧ o.id = oid ∧ o.userId = userId := by
  have hp := List.find?_some ho
  simp only [Bool.and_eq_true, beq_iff_eq] at hr hp
  exact ⟨hr.2, List.mem_of_find?_eq_some ho, hp.2.2, hp.2.1⟩

/-- What the constraints on a settlement row leave. -/
theorem settlementViolation_none {settlementId : Uuid} {command : SettleObligationCommand}
    {amount : ℚ} {g : Db} (h : settlementViolation settlementId command amount g = none) :
    ∃ stored, Money.store amount = some stored ∧ 0 < stored.units := by
  simp only [settlementViolation] at h
  cases hstore : Money.store amount with
  | none =>
    rw [hstore] at h
    split_ifs at h
  | some stored =>
    refine ⟨stored, rfl, ?_⟩
    by_contra hpos
    simp only [hstore, hpos, decide_false, Bool.not_false, if_true] at h
    split_ifs at h

theorem settle_safe (settlementId : Uuid) (command : SettleObligationCommand) {g : Db}
    (hi : ObligationsOk g) :
    settlementDiscipline.wp (settle kind zones now settlementId userId oid command)
      (fun r => settlementDiscipline.Commit (.settlement r)) id [] g := by
  rw [settle, settlementDiscipline.wp_bind]
  refine settlementDiscipline.wp_of_readOnly readOnly_ownerToday hi fun asOf g₁ _ hi₁ => ?_
  rw [settlementDiscipline.wp_bind]
  apply wp_selectForUpdate
  · exact fun g₂ _ _ => trivial
  intro r g₂ hr hi₂
  rw [settlementDiscipline.wp_bind, wp_requireSome]
  intro o hfound
  obtain ⟨hid, ho, hoid, howner⟩ := lockObligation_found hr hfound
  rw [hid, settlementDiscipline.wp_bind]
  have hlock : rowLock kind oid ∈ [rowLock kind oid] := List.mem_singleton_self _
  refine settlementDiscipline.wp_of_readOnly (readOnly_validateTransactionReference _) hi₂
    fun _ g₃ hr₃ hi₃ => ?_
  obtain ⟨ho₃, -⟩ := hr₃.locked hlock ho hoid
  -- the sum is read under the lock: it is the sum at the commit
  rw [settlementDiscipline.wp_bind, settledAmount, settlementDiscipline.wp_reads]
  intro g₄ hr₄ hi₄
  obtain ⟨ho₄, -⟩ := hr₄.locked hlock ho₃ hoid
  have hsum : (settlementsOf kind oid g₄).filter (fun s => s.userId == userId) =
      settlementsOf kind oid g₄ := by
    refine List.filter_eq_self.2 fun s hs => ?_
    have := (hi₄.rows kind o ho₄).owner_eq s (hoid ▸ hs)
    simp [this, howner]
  rw [settlementDiscipline.wp_bind, wp_ofExcept, id, hsum]
  intro amount hval
  rw [settlementDiscipline.wp_bind, addSettlement, settlementDiscipline.wp_bind]
  apply wp_insertChecked
  intro g₅ g₆ g₇ hr₅ _ hr₆ _ hviol hr₇ hi₇
  obtain ⟨stored, hstore, hpos⟩ := settlementViolation_none hviol
  rw [settlementDiscipline.wp_pure, settlementDiscipline.wp_bind, setObligationStatus,
    settlementDiscipline.wp_modify]
  intro g₈ hr₈ hi₈
  refine settlementDiscipline.wp_of_readOnly (readOnly_result _ _) hi₈ fun view g₉ hr₉ _ => ?_
  intro g hr hi
  -- from the sum to the commit, the locked obligation stays as it was
  obtain ⟨ho₅, hss₅⟩ := hr₅.locked hlock ho₄ hoid
  have hlock' := List.mem_cons_of_mem (.row .settlements settlementId) hlock
  obtain ⟨ho', hss'⟩ := ReliesOnObligations.locked (hr₆.trans (hr₇.trans (hr₈.trans
    (hr₉.trans hr)))) hlock' ho₅ hoid
  rw [← hss₅, ← hss'] at hval
  have hcommit := settle_commit settlementId hi ho' hoid howner hlock' hval
    hstore hpos
  rw [hss', hss₅] at hcommit
  simp only [Function.comp_apply, id, hstore]
  exact hcommit

theorem cancel_safe {g : Db} (hi : ObligationsOk g) :
    settlementDiscipline.wp (cancel kind zones now userId oid)
      (fun r => settlementDiscipline.Commit (.obligation r)) id [] g := by
  rw [cancel, settlementDiscipline.wp_bind]
  refine settlementDiscipline.wp_of_readOnly readOnly_ownerToday hi fun asOf g₁ _ hi₁ => ?_
  rw [settlementDiscipline.wp_bind]
  apply wp_selectForUpdate
  · exact fun g₂ _ _ => trivial
  intro r g₂ hr hi₂
  rw [settlementDiscipline.wp_bind, wp_requireSome]
  intro o hfound
  obtain ⟨hid, ho, hoid, -⟩ := lockObligation_found hr hfound
  rw [hid, settlementDiscipline.wp_bind, wp_require]
  intro hpaid
  have hlock : rowLock kind oid ∈ [rowLock kind oid] := List.mem_singleton_self _
  rw [settlementDiscipline.wp_bind, setObligationStatus, settlementDiscipline.wp_modify]
  intro g₃ hr₃ hi₃
  refine settlementDiscipline.wp_of_readOnly (readOnly_view _) hi₃ fun view g₄ hr₄ _ => ?_
  intro g₅ hr₅ hi₅
  have hr₂₅ : ReliesOnObligations [rowLock kind oid] g₂ g₅ :=
    settlementDiscipline.rely_trans _ _ _ _ (settlementDiscipline.rely_trans _ _ _ _ hr₃ hr₄) hr₅
  obtain ⟨ho₅, -⟩ := hr₂₅.locked hlock ho hoid
  exact cancel_commit hi₅ ho₅ hoid hlock (by simpa using hpaid)

/-- What the constraints on a new obligation leave. -/
theorem obligationViolation_none {command : CreateObligationCommand} {g : Db}
    (h : obligationViolation kind oid command g = none) :
    (∀ o ∈ obligations kind g, o.id ≠ oid) ∧
      ∃ stored, Money.store command.amount = some stored ∧ 0 < stored.units := by
  simp only [obligationViolation] at h
  have hfresh : ((obligations kind g).any fun o => o.id == oid) = false := by
    by_contra hany
    rw [if_pos (by simpa using hany)] at h
    cases h
  refine ⟨by simpa using hfresh, ?_⟩
  rw [hfresh, if_neg (by simp)] at h
  cases hstore : Money.store command.amount with
  | none =>
    rw [hstore] at h
    split_ifs at h
  | some stored =>
    refine ⟨stored, rfl, ?_⟩
    by_contra hpos
    simp only [hstore, hpos, decide_false, Bool.not_false, if_true] at h
    split_ifs at h

theorem createObligation_safe (command : CreateObligationCommand) {g : Db}
    (hi : ObligationsOk g) :
    settlementDiscipline.wp (createObligation kind zones now oid userId command)
      (fun r => settlementDiscipline.Commit (.obligation r)) id [] g := by
  rw [createObligation, settlementDiscipline.wp_bind]
  refine settlementDiscipline.wp_of_readOnly readOnly_ownerToday hi fun asOf g₁ _ hi₁ => ?_
  rw [settlementDiscipline.wp_bind]
  refine settlementDiscipline.wp_of_readOnly (readOnly_validateCreateReferences _) hi₁
    fun _ g₂ _ hi₂ => ?_
  rw [createObligationRow, settlementDiscipline.wp_bind]
  apply wp_insertChecked
  intro g₃ g₄ g₅ _ _ _ _ hviol hr₅ hi₅
  obtain ⟨hfresh, stored, hstore, hpos⟩ := obligationViolation_none hviol
  refine settlementDiscipline.wp_of_readOnly (readOnly_view _) hi₅ fun view g₆ hr₆ _ => ?_
  intro g hr hi
  have hlock : rowLock kind oid ∈ [rowLock kind oid] := List.mem_singleton_self _
  have hsame : SameObligation kind oid g₄ g := (hr₅.trans (hr₆.trans hr)) kind oid hlock
  simp only [Function.comp_apply, id, hstore]
  refine create_commit hi hlock (fun o ho hid => ?_) rfl hpos
  exact hfresh o ((hsame.row o hid).1 ho) hid

/-- A session runs one of the workflows. -/
def Requested (zones : TimeZones) (_ : List ObligationResult) (p : DbTx ObligationResult) : Prop :=
  ∃ operation : ObligationOperation, p = operation.program zones

/-- Every workflow is safe from any store that satisfies the invariant. -/
theorem requested_safe {log : List ObligationResult} {p : DbTx ObligationResult}
    (hp : Requested zones log p) {g : Db} (hi : ObligationsOk g) :
    settlementDiscipline.Safe p id [] g := by
  obtain ⟨operation, rfl⟩ := hp
  have hreturn : ∀ {β : Type} (f : β → ObligationResult) (x : DbTx β),
      settlementDiscipline.wp x (fun r => settlementDiscipline.Commit (f r)) id [] g →
      settlementDiscipline.Safe (do pure (f (← x))) id [] g := by
    intro β f x hx
    exact (settlementDiscipline.wp_bind _ _ _ _ _ _).2 hx
  cases operation with
  | createReceivable now oid userId command => exact hreturn _ _ (createObligation_safe command hi)
  | createPayable now oid userId command => exact hreturn _ _ (createObligation_safe command hi)
  | settleReceivable now settlementId userId oid command =>
    exact hreturn _ _ (settle_safe settlementId command hi)
  | settlePayable now settlementId userId oid command =>
    exact hreturn _ _ (settle_safe settlementId command hi)
  | cancelReceivable now userId oid => exact hreturn _ _ (cancel_safe hi)
  | cancelPayable now userId oid => exact hreturn _ _ (cancel_safe hi)

end Safety

/-! ### Runs -/

section Runs

variable {ι : Type} [DecidableEq ι] {zones : TimeZones} {g₀ : Db}

/-- One step of the sessions that run the workflows. -/
def Moves (zones : TimeZones) (s s' : State Db Lock AppError ObligationResult ι) : Prop :=
  ∃ ev, Step (Requested zones) KeepsObligations s ev s'

/-- A store without obligations and settlements satisfies the invariant. -/
theorem ObligationsOk.of_empty {g : Db} (hrows : ∀ kind, obligations kind g = [])
    (hsettlements : g.settlements = []) : ObligationsOk g where
  ids := by simp [hrows]
  rows := by simp [hrows]
  targets := by simp [settlementsOf, hsettlements]

/-- In a good state a paid or cancelled obligation survives the next step. -/
theorem finished_step {s s' : State Db Lock AppError ObligationResult ι}
    (hgood : settlementDiscipline.Good s) (hmove : Moves zones s s') {kind : ObligationKind}
    {o : Obligation} (ho : o ∈ obligations kind s.db)
    (hdone : o.status = .paid ∨ o.status = .cancelled) :
    SameObligation kind o.id s.db s'.db := by
  obtain ⟨ev, hstep⟩ := hmove
  cases ev with
  | commit a =>
    obtain ⟨⟨h, hpost⟩, -⟩ := hgood.commit_post hstep
    rcases hpost kind o.id with hsame | ⟨-, hopen⟩
    · exact hsame
    · obtain ⟨hpaid, hcancelled⟩ := hopen o ho rfl
      rcases hdone with hdone | hdone
      · exact absurd hdone hpaid
      · exact absurd hdone hcancelled
  | environment =>
    cases hstep with
    | env g he => exact he.same kind o.id
  | silent =>
    rw [hstep.db_eq (by simp) (by simp)]
    exact .refl kind o.id s.db
  | rollback e =>
    rw [hstep.db_eq (by simp) (by simp)]
    exact .refl kind o.id s.db

/-- **The settlement invariant.**  From a store without obligations, in every state that
    any interleaving of create, settle and cancel with crashes and other writes reaches:
    the status and the settlements of every obligation agree; a paid or cancelled
    obligation and its settlements stay as they are in every later state; and a step that
    rolls back leaves the store as it was. -/
theorem settlement_invariant (hrows : ∀ kind, obligations kind g₀ = [])
    (hsettlements : g₀.settlements = []) {s : State Db Lock AppError ObligationResult ι}
    (hs : Reachable (Requested zones) KeepsObligations g₀ s) :
    (∀ kind, ∀ o ∈ obligations kind s.db, StatusAgrees o (settlementsOf kind o.id s.db)) ∧
    (∀ s', Relation.ReflTransGen (Moves zones) s s' → ∀ kind, ∀ o ∈ obligations kind s.db,
      o.status = .paid ∨ o.status = .cancelled →
        (∀ o', o'.id = o.id → (o' ∈ obligations kind s'.db ↔ o' = o)) ∧
        settlementsOf kind o.id s'.db = settlementsOf kind o.id s.db) ∧
    (∀ e s', Step (Requested zones) KeepsObligations s (.rollback e) s' → s'.db = s.db) := by
  have hprog : ∀ log p g, Requested zones log p → settlementDiscipline.inv g →
      settlementDiscipline.Safe p id [] g := fun log p g hp hi => requested_safe hp hi
  have hgood : ∀ {t : State Db Lock AppError ObligationResult ι},
      Reachable (Requested zones) KeepsObligations g₀ t → settlementDiscipline.Good t :=
    fun ht => Discipline.sound hprog (ObligationsOk.of_empty hrows hsettlements) ht
  have hok : ObligationsOk s.db := (hgood hs).inv
  refine ⟨hok.rows, fun s' hlater kind o ho hdone => ?_, fun e s' hstep => ?_⟩
  · -- along the later steps the obligation is the same row with the same settlements
    have hsame : Reachable (Requested zones) KeepsObligations g₀ s' ∧
        SameObligation kind o.id s.db s'.db := by
      induction hlater with
      | refl => exact ⟨hs, .refl kind o.id s.db⟩
      | @tail t t' _ hmove ih =>
        obtain ⟨hreach, hsame⟩ := ih
        have ho' : o ∈ obligations kind t.db := (hsame.row o rfl).2 ho
        have hnext := finished_step (hgood hreach) hmove ho' hdone
        obtain ⟨ev, hstep⟩ := hmove
        exact ⟨hreach.step hstep, hsame.trans hnext⟩
    refine ⟨fun o' hid => ⟨fun ho' => ?_, fun heq => ?_⟩, hsame.2.settlements⟩
    · exact hok.unique ((hsame.2.row o' hid).1 ho') ho hid
    · exact heq ▸ (hsame.2.row o rfl).2 ho
  · exact hstep.db_eq (by simp) (by simp)

/-- A store with one owner and one person. -/
def sampleStore : Db :=
  { Db.empty 0 with
    users := [⟨1, py "UTC", py "EUR"⟩]
    people := [⟨2, 1, py "Ada", py "ada"⟩] }

/-- Lending ten euros. -/
def sampleLoan : ObligationOperation :=
  .createReceivable 0 3 1 ⟨2, 10, py "EUR", py "lunch", 0, none, none⟩

/-- Paying them back. -/
def sampleRepayment : ObligationOperation :=
  .settleReceivable 0 4 1 3 ⟨.finite 10, py "EUR", 0, none, none⟩

/-- Ten euros lent and paid back: one of the runs of `settlement_invariant`. -/
theorem settlement_invariant_paid_back :
    ∃ s : State Db Lock AppError ObligationResult Unit,
      Reachable (Requested ⟨fun _ => true, fun _ _ => 0⟩) KeepsObligations sampleStore s ∧
      (s.db.receivables.map Obligation.status) = [.paid] ∧
      ∀ kind, ∀ o ∈ obligations kind s.db, StatusAgrees o (settlementsOf kind o.id s.db) := by
  have hlent : (sampleLoan.program ⟨fun _ => true, fun _ _ => 0⟩).commits sampleStore = true := by
    decide +kernel
  obtain ⟨a, hrun⟩ := Tx.run_of_commits hlent
  have hpaid : (sampleRepayment.program ⟨fun _ => true, fun _ _ => 0⟩).commits
      ((sampleLoan.program ⟨fun _ => true, fun _ _ => 0⟩).after sampleStore) = true := by
    decide +kernel
  obtain ⟨b, hrun'⟩ := Tx.run_of_commits hpaid
  have hstatus : (((sampleRepayment.program ⟨fun _ => true, fun _ _ => 0⟩).after
      ((sampleLoan.program ⟨fun _ => true, fun _ _ => 0⟩).after sampleStore)).receivables.map
        Obligation.status) = [.paid] := by
    decide +kernel
  have h₁ : Reachable (Requested ⟨fun _ => true, fun _ _ => 0⟩) KeepsObligations sampleStore
      (⟨_, [] ++ [a], fun _ => none⟩ : State Db Lock AppError ObligationResult Unit) :=
    Reachable.alone () .init ⟨_, rfl⟩ hrun
  have h₂ := Reachable.alone () h₁ ⟨_, rfl⟩ hrun'
  have hrows : ∀ kind, obligations kind sampleStore = [] := fun kind => by cases kind <;> rfl
  exact ⟨_, h₂, hstatus, (settlement_invariant hrows rfl h₂).1⟩

end Runs

end Expensea.Ledger
