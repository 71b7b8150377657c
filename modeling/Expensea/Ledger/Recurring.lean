import Expensea.Domain.Calendar
import Expensea.Ledger.Service

namespace Expensea.Ledger

open Txn Txn.Discipline
open Txn.Tx (reads modify acquire)

/-!
# Recurring payments — requests and their runs

`transition_status` and `record_due_payment` of `app/ledger/recurring_service.py`, run by any
number of sessions.  Both hold the row lock of their payment from the time they read it.

* `transitionStatus` — the other operation that changes a payment;
* `lt_advanceExpectedDate` — a recurrence leads to a later date;
* `RecurringDid` — what the commit of a request does;
* `recurring_posts_once` — what every interleaving of requests leaves.
-/

/-- `_STATUS_TRANSITIONS` -/
def STATUS_TRANSITIONS : RecurringPaymentStatus → List RecurringPaymentStatus
  | .active => [.paused, .ended]
  | .paused => [.active, .ended]
  | .ended => []
  | .needsReview => []

/-- `RECURRING_PAYMENT_NOT_FOUND` -/
def recurringMissing : LedgerError :=
  ⟨.notFound, "RECURRING_PAYMENT_NOT_FOUND", "The recurring payment was not found.", none⟩

/-- `_projection_statement`: the owner's payment with the name of its merchant. -/
def recurringProjection (userId id : Uuid) (g : Db) : Option (RecurringPayment × PyStr) := do
  let payment ← g.recurringPayments.find? fun p => p.userId == userId && p.id == id
  let merchant ← g.merchants.find? fun m => m.id == payment.merchantId
  pure (payment, merchant.displayName)

/-- `transition_status` -/
def transitionStatus (userId paymentId : Uuid) (target : RecurringPaymentStatus) :
    DbTx (RecurringPayment × PyStr) := do
  let locked ← selectForUpdate Db.recurringPayments .recurringPayments RecurringPayment.id
    fun p => p.userId == userId && p.id == paymentId
  let payment ← requireSome locked (.ledger recurringMissing)
  let merchant ← reads fun g => g.merchants.find? fun m => m.id == payment.merchantId
  let _ ← requireSome merchant (.ledger recurringMissing)
  require ((STATUS_TRANSITIONS payment.status).contains target) (.ledger ⟨.conflict,
    "INVALID_RECURRING_STATUS_TRANSITION",
    "That recurring-payment status transition is not allowed.", some "status"⟩)
  modify fun g => { g with
    recurringPayments := Table.set RecurringPayment.id payment.id
      (fun p => { p with status := target }) g.recurringPayments }
  let projection ← reads (recurringProjection userId payment.id)
  requireSome projection
    (.runtime "Recurring payment write was not visible in its owner scope")

/-! ### The calendar advance -/

/-- A recurrence leads to a later date. -/
theorem lt_advanceExpectedDate {current next : Date} {rule : RecurrenceRule}
    (h : advanceExpectedDate current rule = some next) : current < next := by
  have hmonths : ∀ months : ℤ, 0 < months →
      current < advanceExpectedDate.addMonths current months := by
    intro months hpos
    obtain ⟨hvalid, hdate⟩ := Date.civil_spec current
    -- this month ends before the target month starts
    have hlt := hvalid.lt_monthStart
    rw [hdate] at hlt
    have hmono : monthStart ((Date.civil current).monthNumber + 1) ≤
        monthStart ((Date.civil current).monthNumber + months) :=
      monthStart_mono (by omega)
    refine lt_of_lt_of_le (lt_of_lt_of_le hlt hmono) ?_
    -- and the target is a day of that month
    obtain ⟨number, hnumber⟩ : ∃ n : ℤ, n = (Date.civil current).monthNumber + months := ⟨_, rfl⟩
    rw [← hnumber]
    have htarget : ∀ day : ℤ, 1 ≤ day →
        monthStart number ≤ (CivilDate.mk (number / 12) (number % 12 + 1) day).toDate := by
      intro day hday
      show daysBeforeYear (number / 12) + daysBeforeMonth (number / 12) (number % 12 + 1) + 1 - 1 ≤
        daysBeforeYear (number / 12) + daysBeforeMonth (number / 12) (number % 12 + 1) + day - 1
      omega
    have hfirst := hvalid.day_pos
    simp only [advanceExpectedDate.addMonths]
    show monthStart number ≤ (CivilDate.mk
      (((Date.civil current).monthNumber + months) / 12)
      (((Date.civil current).monthNumber + months) % 12 + 1) _).toDate
    rw [← hnumber]
    apply htarget
    split_ifs
    · exact daysInMonth_pos _ _
    · exact le_min hfirst (daysInMonth_pos _ _)
  simp only [advanceExpectedDate] at h
  split_ifs at h
  obtain rfl := Option.some.inj h
  cases rule with
  | weekly => exact lt_add_of_pos_right current (by decide)
  | monthly => exact hmonths 1 (by decide)
  | quarterly => exact hmonths 3 (by decide)
  | yearly => exact hmonths 12 (by decide)

/-! ### Requests -/

/-- What `record_due_payment` returns. -/
structure Recording where
  paymentId : Uuid
  expectedDate : Date
  transactionId : Uuid
  nextExpectedDate : Date
  deriving DecidableEq

/-- What the commit of a request tells. -/
inductive RecurringResult where
  | recorded (recording : Recording)
  | transitioned (paymentId : Uuid) (target : RecurringPaymentStatus)
  deriving DecidableEq

/-- A request on a recurring payment, with the identifier the expense draws. -/
inductive RecurringRequest where
  | record (transactionId userId paymentId : Uuid) (expectedDate : Date) (transactionDate : Instant)
  | transition (userId paymentId : Uuid) (target : RecurringPaymentStatus)

/-- The transaction of a request. -/
def RecurringRequest.program : RecurringRequest → DbTx RecurringResult
  | .record transactionId userId paymentId expectedDate transactionDate => do
    let next ← recordDuePayment transactionId userId paymentId expectedDate transactionDate
    pure (.recorded ⟨paymentId, expectedDate, transactionId, next⟩)
  | .transition userId paymentId target => do
    let _ ← transitionStatus userId paymentId target
    pure (.transitioned paymentId target)

/-- The payment a result is about. -/
def RecurringResult.paymentId : RecurringResult → Uuid
  | .recorded recording => recording.paymentId
  | .transitioned paymentId _ => paymentId

/-- The payment of an identifier. -/
def paymentOf (id : Uuid) (g : Db) : Option RecurringPayment :=
  Table.get RecurringPayment.id id g.recurringPayments

/-- The expense that a recording of a payment posts. -/
structure PostedExpense (p : RecurringPayment) (transactionId : Uuid) (t : LedgerTransaction) :
    Prop where
  id : t.id = transactionId
  userId : t.userId = p.userId
  transactionType : t.transactionType = .expense
  status : t.status = .posted
  amount : t.amount = p.amount
  currency : t.currency = p.currency
  merchantId : t.merchantId = some p.merchantId

/-- What a request does to its payment `p` and to the transactions. -/
def RecurringResult.Effect (p : RecurringPayment) (g g' : Db) : RecurringResult → Prop
  | .recorded r =>
    p.status = .active ∧ p.nextExpectedDate = r.expectedDate ∧
      r.expectedDate < r.nextExpectedDate ∧
      paymentOf p.id g' = some { p with nextExpectedDate := r.nextExpectedDate } ∧
      ∃ t, PostedExpense p r.transactionId t ∧ g'.transactions = g.transactions ++ [t]
  | .transitioned _ target =>
    target ∈ STATUS_TRANSITIONS p.status ∧ paymentOf p.id g' = some { p with status := target } ∧
      g'.transactions = g.transactions

/-- What the commit of a request under the locks `h` does: its payment is locked and changes
    as the result says, and no other payment does. -/
structure RecurringDid (h : List Lock) (o : RecurringResult) (g g' : Db) : Prop where
  locked : .row .recurringPayments o.paymentId ∈ h
  effect : ∃ p, paymentOf o.paymentId g = some p ∧ o.Effect p g g'
  others : ∀ id, id ≠ o.paymentId → paymentOf id g' = paymentOf id g

/-- Other requests may create payments. -/
structure RecurringOthers (g g' : Db) : Prop where
  ids : (g'.recurringPayments.map RecurringPayment.id).Nodup
  payments : ∃ created, g'.recurringPayments = g.recurringPayments ++ created
  transactions : g'.transactions = g.transactions

theorem RecurringOthers.paymentOf {g g' : Db} (h : RecurringOthers g g') {id : Uuid}
    {p : RecurringPayment} (hp : Ledger.paymentOf id g = some p) :
    Ledger.paymentOf id g' = some p := by
  obtain ⟨created, hcreated⟩ := h.payments
  rw [Ledger.paymentOf, Table.get_eq_some_iff h.ids, hcreated]
  exact ⟨List.mem_append_left _ (Table.mem_of_get hp), Table.key_of_get hp⟩

/-- The locking discipline of recurring payments. -/
def recurringDiscipline : Discipline Db Lock AppError RecurringResult where
  inv g := (g.recurringPayments.map RecurringPayment.id).Nodup
  post h o g g' := RecurringDid h o g g'
  rely h g g' := ∀ id p, .row .recurringPayments id ∈ h → paymentOf id g = some p →
    paymentOf id g' = some p
  env := RecurringOthers
  rely_refl _ _ := fun _ _ _ hp => hp
  rely_trans _ _ _ _ h₁ h₂ := fun id p hl hp => h₂ id p hl (h₁ id p hl hp)
  post_rely h h' o g g' _ _ hdisj hdid := fun id p hl hp => by
    rw [hdid.others id, hp]
    rintro rfl
    exact hdisj _ hdid.locked hl
  env_inv _ _ _ he := he.ids
  env_rely _ _ _ _ he := fun _ _ _ hp => he.paymentOf hp

/-! ### Safety -/

section Safety

variable {g : Db} {userId paymentId : Uuid}

/-- A payment of a store is the one found under its identifier. -/
theorem paymentOf_of_find {p : RecurringPayment} {q : RecurringPayment → Bool}
    (hg : (g.recurringPayments.map RecurringPayment.id).Nodup)
    (hp : g.recurringPayments.find? q = some p) : paymentOf p.id g = some p :=
  Table.get_of_mem hg (List.mem_of_find?_eq_some hp)

/-- What follows the locking read of a payment goes on with the owner's payment as it is
    committed, under its row lock. -/
theorem wp_lockedPayment {β : Type} {e₁ e₂ : AppError} {k : RecurringPayment → Merchant → DbTx β}
    {Q : β → (Db → Db) → List Lock → Db → Prop}
    (hk : ∀ p m g', p.id = paymentId → p.userId = userId → recurringDiscipline.inv g' →
      paymentOf paymentId g' = some p →
      recurringDiscipline.wp (k p m) Q id [.row .recurringPayments paymentId] g') :
    recurringDiscipline.wp (do
      let locked ← selectForUpdate Db.recurringPayments .recurringPayments RecurringPayment.id
        fun p => p.userId == userId && p.id == paymentId
      let payment ← requireSome locked e₁
      let merchant ← reads fun g => g.merchants.find? fun m => m.id == payment.merchantId
      let merchant ← requireSome merchant e₂
      k payment merchant) Q id [] g := by
  rw [recurringDiscipline.wp_bind]
  apply wp_selectForUpdate
  · intro g₁ _ _
    trivial
  · intro r g₁ hr hg₁
    simp only [Bool.and_eq_true, beq_iff_eq] at hr
    rw [hr.2, recurringDiscipline.wp_bind, wp_requireSome]
    intro p hp
    have hfound := List.find?_some hp
    simp only [Bool.and_eq_true, beq_iff_eq] at hfound
    have hid : p.id = paymentId := hfound.2.2
    have hpayment : paymentOf paymentId g₁ = some p := hid ▸ paymentOf_of_find hg₁ hp
    rw [recurringDiscipline.wp_bind, recurringDiscipline.wp_reads]
    intro g₂ hr₂ hg₂
    rw [recurringDiscipline.wp_bind, wp_requireSome]
    intro m _
    exact hk p m g₂ hid hfound.2.1 hg₂ (hr₂ paymentId p (by simp) hpayment)

/-- An update of the locked payment changes the payment of its identifier only. -/
theorem paymentOf_set (f : RecurringPayment → RecurringPayment) (hf : ∀ p, (f p).id = p.id)
    {p : RecurringPayment} (hg : (g.recurringPayments.map RecurringPayment.id).Nodup)
    (hp : paymentOf paymentId g = some p) (g' : Db)
    (hrow : g'.recurringPayments = Table.set RecurringPayment.id paymentId f g.recurringPayments) :
    (g'.recurringPayments.map RecurringPayment.id).Nodup ∧ paymentOf paymentId g' = some (f p) ∧
      ∀ id, id ≠ paymentId → paymentOf id g' = paymentOf id g := by
  have hnodup : (g'.recurringPayments.map RecurringPayment.id).Nodup := by
    rw [hrow, Table.map_key_set hf]
    exact hg
  refine ⟨hnodup, ?_, fun id hid => ?_⟩
  · have hid := Table.key_of_get hp
    rw [paymentOf, Table.get_eq_some_iff hnodup, hrow, Table.mem_set]
    exact ⟨⟨p, Table.mem_of_get hp, (if_pos hid).symm⟩, (hf p).trans hid⟩
  · rw [paymentOf, hrow, Table.get_set_of_ne hid.symm fun r hr => (hf r).trans hr]
    rfl

/-- The expense of an occurrence has the amount, the currency and the merchant of its
    payment. -/
theorem postedExpense_row {transactionId : Uuid} {p : RecurringPayment} {merchantName : PyStr}
    {transactionDate : Instant} {row : LedgerTransaction}
    (h : transactionRow transactionId p.userId (some p.merchantId)
      (recurringExpense p merchantName transactionDate) = .ok row) :
    PostedExpense p transactionId row := by
  obtain ⟨-, amount, _, _, hamount, rfl⟩ := transactionRow_inv h
  have hstore : Money.store p.amount.value = some amount := hamount
  rw [Money.store_value] at hstore
  exact ⟨rfl, rfl, rfl, rfl, (Option.some.inj hstore).symm, rfl, rfl⟩

/-- A recording under the lock of its payment. -/
theorem recordDuePayment_safe (transactionId userId paymentId : Uuid) (expectedDate : Date)
    (transactionDate : Instant) :
    recurringDiscipline.Safe (RecurringRequest.record transactionId userId paymentId expectedDate
      transactionDate).program id [] g := by
  show recurringDiscipline.wp (recordDuePayment transactionId userId paymentId expectedDate
    transactionDate >>= _) _ _ _ _
  rw [recurringDiscipline.wp_bind]
  apply wp_lockedPayment
  intro p m g₁ hid howner _ hp
  subst howner
  rw [recurringDiscipline.wp_bind, wp_require]
  intro hactive
  rw [recurringDiscipline.wp_bind, wp_require]
  intro hdate
  rw [recurringDiscipline.wp_bind, wp_ofExcept]
  intro row hrow
  rw [recurringDiscipline.wp_bind]
  apply wp_insertChecked
  intro g₂ g₃ g₄ hr₂ _ hr₃ _ _ hr₄ _
  have hp₄ : paymentOf paymentId g₄ = some p :=
    hr₄ _ _ (by simp) (hr₃ _ _ (by simp) (hr₂ _ _ (by simp) hp))
  rw [recurringDiscipline.wp_bind, wp_requireSome]
  intro next hnext
  rw [recurringDiscipline.wp_bind, recurringDiscipline.wp_modify]
  intro g₅ hr₅ _ g' hr' hg'
  have hp' : paymentOf paymentId g' = some p :=
    hr' _ _ (by simp) (hr₅ _ _ (by simp) hp₄)
  obtain ⟨hnodup, hself, hothers⟩ := paymentOf_set
    (fun p => { p with nextExpectedDate := next }) (fun _ => rfl) hg' hp'
    { g' with
      transactions := g'.transactions ++ [row]
      recurringPayments := Table.set RecurringPayment.id p.id
        (fun p => { p with nextExpectedDate := next }) g'.recurringPayments }
    (by rw [hid])
  have hactive : p.status = .active := of_decide_eq_true hactive
  have hdate : p.nextExpectedDate = expectedDate := of_decide_eq_true hdate
  refine ⟨hnodup, by simp [RecurringResult.paymentId], ⟨p, hp', ?_⟩, hothers⟩
  refine ⟨hactive, hdate, hdate ▸ lt_advanceExpectedDate hnext, hid ▸ hself, row, ?_, rfl⟩
  exact postedExpense_row hrow

/-- A transition under the lock of its payment. -/
theorem transitionStatus_safe (userId paymentId : Uuid) (target : RecurringPaymentStatus) :
    recurringDiscipline.Safe (RecurringRequest.transition userId paymentId target).program id []
      g := by
  show recurringDiscipline.wp (transitionStatus userId paymentId target >>= _) _ _ _ _
  rw [recurringDiscipline.wp_bind]
  apply wp_lockedPayment
  intro p m g₁ hid _ _ hp
  rw [recurringDiscipline.wp_bind, wp_require]
  intro hallowed
  rw [recurringDiscipline.wp_bind, recurringDiscipline.wp_modify]
  intro g₂ hr₂ _
  rw [recurringDiscipline.wp_bind, recurringDiscipline.wp_reads]
  intro g₃ hr₃ _
  rw [wp_requireSome]
  intro view _ g' hr' hg'
  have hp' : paymentOf paymentId g' = some p :=
    hr' _ _ (by simp) (hr₃ _ _ (by simp) (hr₂ _ _ (by simp) hp))
  obtain ⟨hnodup, hself, hothers⟩ := paymentOf_set
    (fun p => { p with status := target }) (fun _ => rfl) hg' hp'
    { g' with
      recurringPayments := Table.set RecurringPayment.id p.id
        (fun p => { p with status := target }) g'.recurringPayments }
    (by rw [hid])
  refine ⟨hnodup, by simp [RecurringResult.paymentId], ⟨p, hp', ?_⟩, hothers⟩
  exact ⟨by simpa using hallowed, hid ▸ hself, rfl⟩

end Safety

/-! ### Runs -/

section Runs

variable {ι : Type} [DecidableEq ι] {g₀ : Db}

/-- A session runs a request. -/
def RecurringRequests (_ : List RecurringResult) (p : DbTx RecurringResult) : Prop :=
  ∃ r : RecurringRequest, p = r.program

theorem request_safe (log : List RecurringResult) (p : DbTx RecurringResult) (g : Db)
    (hp : RecurringRequests log p) : recurringDiscipline.Safe p id [] g := by
  obtain ⟨r, rfl⟩ := hp
  cases r with
  | record transactionId userId paymentId expectedDate transactionDate =>
    exact recordDuePayment_safe transactionId userId paymentId expectedDate transactionDate
  | transition userId paymentId target => exact transitionStatus_safe userId paymentId target

/-- The recording a result is about. -/
def RecurringResult.recording : RecurringResult → Option Recording
  | .recorded r => some r
  | .transitioned _ _ => none

/-- The recordings so far, oldest first. -/
def recordings (log : List RecurringResult) : List Recording :=
  log.filterMap RecurringResult.recording

/-- The expected dates recorded of one payment, oldest first. -/
def recordedDates (id : Uuid) (log : List RecurringResult) : List Date :=
  ((recordings log).filter fun r => r.paymentId == id).map Recording.expectedDate

/-- How a payment goes on in one step: not at all, by a recording of its expected date, or by
    a listed status transition. -/
def PaymentMoves (ev : Event AppError RecurringResult) (p p' : RecurringPayment) : Prop :=
  p' = p ∨
  (∃ r, ev = .commit (.recorded r) ∧ r.paymentId = p.id ∧ p.status = .active ∧
    p.nextExpectedDate = r.expectedDate ∧ r.expectedDate < r.nextExpectedDate ∧
    p' = { p with nextExpectedDate := r.nextExpectedDate }) ∨
  (∃ target ∈ STATUS_TRANSITIONS p.status, ev = .commit (.transitioned p.id target) ∧
    p' = { p with status := target })

/-- An ended payment has no transition and is not active. -/
theorem PaymentMoves.ended {ev : Event AppError RecurringResult} {p p' : RecurringPayment}
    (h : PaymentMoves ev p p') (hended : p.status = .ended) : p' = p := by
  rcases h with h | ⟨r, -, -, hactive, -⟩ | ⟨target, htarget, -⟩
  · exact h
  · rw [hended] at hactive
    cases hactive
  · rw [hended] at htarget
    cases htarget

/-- Amount, currency and merchant stay, and the next expected date never goes back. -/
theorem PaymentMoves.kept {ev : Event AppError RecurringResult} {p p' : RecurringPayment}
    (h : PaymentMoves ev p p') : p'.id = p.id ∧ p'.userId = p.userId ∧ p'.amount = p.amount ∧
      p'.currency = p.currency ∧ p'.merchantId = p.merchantId ∧
      p.nextExpectedDate ≤ p'.nextExpectedDate := by
  rcases h with rfl | ⟨r, -, -, -, hdate, hlt, rfl⟩ | ⟨target, -, -, rfl⟩
  · exact ⟨rfl, rfl, rfl, rfl, rfl, le_refl _⟩
  · exact ⟨rfl, rfl, rfl, rfl, rfl, le_of_lt (lt_of_eq_of_lt hdate hlt)⟩
  · exact ⟨rfl, rfl, rfl, rfl, rfl, le_refl _⟩

/-- What a commit does to a payment. -/
theorem RecurringDid.moves {h : List Lock} {o : RecurringResult} {g g' : Db}
    (hdid : RecurringDid h o g g') {id : Uuid} {p : RecurringPayment}
    (hp : paymentOf id g = some p) :
    ∃ p', paymentOf id g' = some p' ∧ PaymentMoves (.commit o) p p' := by
  by_cases hid : id = o.paymentId
  · subst hid
    obtain ⟨q, hq, heffect⟩ := hdid.effect
    rw [hp] at hq
    obtain rfl := Option.some.inj hq
    have hkey : p.id = o.paymentId := Table.key_of_get hp
    cases o with
    | recorded r =>
      obtain ⟨hactive, hdate, hlt, hself, -⟩ := heffect
      refine ⟨{ p with nextExpectedDate := r.nextExpectedDate }, ?_,
        .inr (.inl ⟨r, rfl, hkey.symm, hactive, hdate, hlt, rfl⟩)⟩
      rw [← hkey]
      exact hself
    | transitioned paymentId target =>
      obtain ⟨hallowed, hself, -⟩ := heffect
      refine ⟨{ p with status := target }, ?_, .inr (.inr ⟨target, hallowed, ?_, rfl⟩)⟩
      · rw [← hkey]
        exact hself
      · rw [hkey]
        rfl
  · exact ⟨p, (hdid.others id hid).trans hp, .inl rfl⟩

/-- The expense of a recording, by the payment as it is stored. -/
def Posts (g : Db) (r : Recording) (t : LedgerTransaction) : Prop :=
  ∃ p, paymentOf r.paymentId g = some p ∧ PostedExpense p r.transactionId t

theorem Posts.moves {ev : Event AppError RecurringResult} {g g' : Db}
    (hmoves : ∀ id p, paymentOf id g = some p →
      ∃ p', paymentOf id g' = some p' ∧ PaymentMoves ev p p')
    {r : Recording} {t : LedgerTransaction} (h : Posts g r t) : Posts g' r t := by
  obtain ⟨p, hp, hposted⟩ := h
  obtain ⟨p', hp', hmove⟩ := hmoves _ p hp
  obtain ⟨-, huser, hamount, hcurrency, hmerchant, -⟩ := hmove.kept
  refine ⟨p', hp', hposted.id, ?_, hposted.transactionType, hposted.status, ?_, ?_, ?_⟩
  · rw [huser, hposted.userId]
  · rw [hamount, hposted.amount]
  · rw [hcurrency, hposted.currency]
  · rw [hmerchant, hposted.merchantId]

/-- What the requests so far have left. -/
structure Recorded (g₀ g : Db) (log : List RecurringResult) : Prop where
  known : ∀ r ∈ recordings log, (paymentOf r.paymentId g).isSome
  before : ∀ id p, paymentOf id g = some p → ∀ d ∈ recordedDates id log, d < p.nextExpectedDate
  increasing : ∀ id, (recordedDates id log).Pairwise (· < ·)
  posted : ∃ posted, g.transactions = g₀.transactions ++ posted ∧
    List.Forall₂ (Posts g) (recordings log) posted

theorem Recorded.init : Recorded g₀ g₀ [] where
  known := by simp [recordings]
  before := by simp [recordedDates, recordings]
  increasing := by simp [recordedDates, recordings]
  posted := ⟨[], (List.append_nil _).symm, .nil⟩

section Step

variable {ev : Event AppError RecurringResult} {g g' : Db} {log : List RecurringResult}

/-- A payment that was recorded stays. -/
theorem Recorded.known_moves (hrec : Recorded g₀ g log)
    (hmoves : ∀ id p, paymentOf id g = some p →
      ∃ p', paymentOf id g' = some p' ∧ PaymentMoves ev p p') :
    ∀ r ∈ recordings log, (paymentOf r.paymentId g').isSome := by
  intro r hr
  obtain ⟨p, hp⟩ := Option.isSome_iff_exists.1 (hrec.known r hr)
  obtain ⟨p', hp', -⟩ := hmoves _ p hp
  rw [hp']
  rfl

/-- The dates recorded of a payment stay before its next expected date. -/
theorem Recorded.before_moves (hrec : Recorded g₀ g log)
    (hmoves : ∀ id p, paymentOf id g = some p →
      ∃ p', paymentOf id g' = some p' ∧ PaymentMoves ev p p') :
    ∀ id p, paymentOf id g' = some p → ∀ d ∈ recordedDates id log, d < p.nextExpectedDate := by
  intro id p' hp' d hd
  -- the payment of a recorded date was there before
  obtain ⟨r, hr, -⟩ := List.mem_map.1 hd
  obtain ⟨hr, hid⟩ := List.mem_filter.1 hr
  obtain ⟨p, hp⟩ := Option.isSome_iff_exists.1 (hrec.known r hr)
  rw [beq_iff_eq.1 hid] at hp
  obtain ⟨q, hq, hmove⟩ := hmoves id p hp
  rw [hp'] at hq
  obtain rfl := Option.some.inj hq
  obtain ⟨-, -, -, -, -, hle⟩ := hmove.kept
  exact lt_of_lt_of_le (hrec.before id p hp d hd) hle

/-- A change that records nothing. -/
theorem Recorded.unrecorded {log' : List RecurringResult} (hrec : Recorded g₀ g log)
    (hsame : recordings log' = recordings log) (htransactions : g'.transactions = g.transactions)
    (hmoves : ∀ id p, paymentOf id g = some p →
      ∃ p', paymentOf id g' = some p' ∧ PaymentMoves ev p p') : Recorded g₀ g' log' := by
  have hdates : ∀ id, recordedDates id log' = recordedDates id log := fun id => by
    rw [recordedDates, hsame, recordedDates]
  constructor
  · rw [hsame]
    exact hrec.known_moves hmoves
  · intro id p hp
    rw [hdates]
    exact hrec.before_moves hmoves id p hp
  · intro id
    rw [hdates]
    exact hrec.increasing id
  · obtain ⟨posted, heq, hall⟩ := hrec.posted
    refine ⟨posted, htransactions.trans heq, ?_⟩
    rw [hsame]
    exact hall.imp fun r t h => h.moves hmoves

/-- A recording: its date is later than the ones before and earlier than the next one. -/
theorem Recorded.recorded {h : List Lock} {r : Recording} (hrec : Recorded g₀ g log)
    (hdid : RecurringDid h (.recorded r) g g') : Recorded g₀ g' (log ++ [.recorded r]) := by
  have hmoves : ∀ id p, paymentOf id g = some p →
      ∃ p', paymentOf id g' = some p' ∧ PaymentMoves (.commit (.recorded r)) p p' :=
    fun id p hp => hdid.moves hp
  have hlog : recordings (log ++ [.recorded r]) = recordings log ++ [r] := by
    rw [recordings, List.filterMap_append]
    rfl
  have hdates : ∀ id, recordedDates id (log ++ [.recorded r]) =
      recordedDates id log ++ if r.paymentId = id then [r.expectedDate] else [] := by
    intro id
    rw [recordedDates, hlog, List.filter_append, List.map_append]
    by_cases hid : r.paymentId = id
    · simp [hid, recordedDates]
    · rw [if_neg hid, List.filter_cons_of_neg (by simpa using hid)]
      rfl
  obtain ⟨p, hp, hactive, hdate, hlt, hself, t, hposted, htransactions⟩ := hdid.effect
  have hkey : p.id = r.paymentId := Table.key_of_get hp
  rw [hkey] at hself
  constructor
  · intro r' hr'
    rw [hlog] at hr'
    rcases List.mem_append.1 hr' with hr' | hr'
    · exact hrec.known_moves hmoves r' hr'
    · rw [List.mem_singleton.1 hr', hself]
      rfl
  · intro id p' hp' d hd
    rw [hdates] at hd
    rcases List.mem_append.1 hd with hold | hnew
    · exact hrec.before_moves hmoves id p' hp' d hold
    · split_ifs at hnew with hid
      · subst hid
        rw [hself] at hp'
        obtain rfl := Option.some.inj hp'
        rw [List.mem_singleton.1 hnew]
        exact hlt
      · cases hnew
  · intro id
    rw [hdates, List.pairwise_append]
    refine ⟨hrec.increasing id, by split <;> simp, fun d hd d' hd' => ?_⟩
    split_ifs at hd' with hid
    · subst hid
      rw [List.mem_singleton.1 hd', ← hdate]
      exact hrec.before _ p hp d hd
    · cases hd'
  · obtain ⟨posted, heq, hall⟩ := hrec.posted
    refine ⟨posted ++ [t], by rw [htransactions, heq, List.append_assoc], ?_⟩
    rw [hlog]
    refine List.rel_append (hall.imp fun r t h => h.moves hmoves) (.cons ?_ .nil)
    exact Posts.moves hmoves ⟨p, hp, hposted⟩

end Step

/-- What every step does to the payments. -/
theorem step_moves (hids : (g₀.recurringPayments.map RecurringPayment.id).Nodup)
    {s s' : State Db Lock AppError RecurringResult ι} {ev : Event AppError RecurringResult}
    (hs : Reachable RecurringRequests RecurringOthers g₀ s)
    (hstep : Step RecurringRequests RecurringOthers s ev s') {id : Uuid} {p : RecurringPayment}
    (hp : paymentOf id s.db = some p) :
    ∃ p', paymentOf id s'.db = some p' ∧ PaymentMoves ev p p' := by
  have hgood := Discipline.sound (D := recurringDiscipline)
    (fun log p g hp _ => request_safe log p g hp) hids hs
  by_cases hcommit : ∃ o, ev = .commit o
  · obtain ⟨o, rfl⟩ := hcommit
    obtain ⟨⟨h, hdid⟩, -⟩ := hgood.commit_post hstep
    exact RecurringDid.moves hdid hp
  · cases hstep with
    | commit i a w h hi => exact absurd ⟨a, rfl⟩ hcommit
    | env g hg => exact ⟨p, RecurringOthers.paymentOf hg hp, .inl rfl⟩
    | _ => exact ⟨p, hp, .inl rfl⟩

/-- **Recurring payments post exactly once.**  In every state that any interleaving of
    requests reaches, with rollbacks, crashes and payments created meanwhile: the expected
    dates recorded of a payment increase; the transactions are the ones there were and one
    posted expense for each recording, with the payment's amount, currency and merchant.  In
    every step: a request commits a recording only if the payment is active and expects that
    date, whoever does not commit changes nothing, a payment moves only by a recording, to a
    later date, or by a listed transition, and an ended payment not at all. -/
theorem recurring_posts_once (hids : (g₀.recurringPayments.map RecurringPayment.id).Nodup)
    {s : State Db Lock AppError RecurringResult ι}
    (hs : Reachable RecurringRequests RecurringOthers g₀ s) :
    (∀ id, (recordedDates id s.log).Pairwise (· < ·)) ∧
    (∃ posted, s.db.transactions = g₀.transactions ++ posted ∧
      List.Forall₂ (Posts s.db) (recordings s.log) posted) ∧
    ∀ ev s', Step RecurringRequests RecurringOthers s ev s' →
      (∀ r, ev = .commit (.recorded r) → ∃ p t, paymentOf r.paymentId s.db = some p ∧
        p.status = .active ∧ p.nextExpectedDate = r.expectedDate ∧
        PostedExpense p r.transactionId t ∧ s'.db.transactions = s.db.transactions ++ [t]) ∧
      ((∀ o, ev ≠ .commit o) → ev ≠ .environment → s'.db = s.db) ∧
      ∀ id p, paymentOf id s.db = some p → ∃ p', paymentOf id s'.db = some p' ∧
        PaymentMoves ev p p' ∧ (p.status = .ended → p' = p) := by
  have hgood := Discipline.sound (D := recurringDiscipline)
    (fun log p g hp _ => request_safe log p g hp) hids hs
  have hrec : Recorded g₀ s.db s.log := by
    refine Discipline.commit_induction (D := recurringDiscipline) (J := Recorded g₀)
      (fun log p g hp _ => request_safe log p g hp) hids .init ?_ ?_ hs
    · intro h o g g' log _ _ hdid hrec
      cases o with
      | recorded r => exact hrec.recorded hdid
      | transitioned paymentId target =>
        obtain ⟨p, hp, -, -, htransactions⟩ := hdid.effect
        refine hrec.unrecorded ?_ htransactions fun id p hp => hdid.moves hp
        rw [recordings, List.filterMap_append]
        exact List.append_nil _
    · intro g g' log _ he hrec
      have hmoves : ∀ id p, paymentOf id g = some p →
          ∃ p', paymentOf id g' = some p' ∧ PaymentMoves .environment p p' :=
        fun id p hp => ⟨p, he.paymentOf hp, .inl rfl⟩
      exact hrec.unrecorded rfl he.transactions hmoves
  refine ⟨hrec.increasing, hrec.posted, fun ev s' hstep => ⟨?_, ?_, ?_⟩⟩
  · rintro r rfl
    obtain ⟨⟨h, hdid⟩, -⟩ := hgood.commit_post hstep
    obtain ⟨p, hp, hactive, hdate, -, -, t, hposted, htransactions⟩ := hdid.effect
    exact ⟨p, t, hp, hactive, hdate, hposted, htransactions⟩
  · exact hstep.db_eq
  · intro id p hp
    obtain ⟨p', hp', hmove⟩ := step_moves hids hs hstep hp
    exact ⟨p', hp', hmove, hmove.ended⟩

/-- A store with a monthly payment that is expected at the end of January. -/
def sampleSubscription : Db :=
  { Db.empty 0 with
    merchants := [⟨5, py "netflix", py "Netflix"⟩]
    recurringPayments := [{
      id := 1
      userId := 9
      merchantId := 5
      amount := ⟨150000, by decide⟩
      currency := py "EUR"
      recurrenceRule := .monthly
      nextExpectedDate := (CivilDate.mk 2024 1 31).toDate
      status := .active }] }

/-- The January payment is recorded. -/
def sampleRecording : RecurringRequest := .record 20 9 1 (CivilDate.mk 2024 1 31).toDate 0

/-- January is recorded and the payment is ended: one of the runs of `recurring_posts_once`. -/
theorem recurring_posts_once_ended :
    ∃ s : State Db Lock AppError RecurringResult Unit,
      Reachable RecurringRequests RecurringOthers sampleSubscription s ∧
      recordedDates 1 s.log = [(CivilDate.mk 2024 1 31).toDate] ∧
      s.db.recurringPayments.map (fun p => (Date.civil p.nextExpectedDate, p.status)) =
        [(⟨2024, 2, 29⟩, .ended)] ∧
      ∃ posted, s.db.transactions = [] ++ posted ∧
        List.Forall₂ (Posts s.db) (recordings s.log) posted := by
  have h₁ : Reachable RecurringRequests RecurringOthers sampleSubscription
      (⟨_, [] ++ [_], fun _ => none⟩ : State Db Lock AppError RecurringResult Unit) :=
    Reachable.alone_returns (a := .recorded ⟨1, (CivilDate.mk 2024 1 31).toDate, 20,
      (CivilDate.mk 2024 2 29).toDate⟩) () .init ⟨sampleRecording, rfl⟩ (by decide +kernel)
  have h₂ := Reachable.alone_returns (a := .transitioned 1 .ended) () h₁
    ⟨.transition 9 1 .ended, rfl⟩ (by decide +kernel)
  have hids : (sampleSubscription.recurringPayments.map RecurringPayment.id).Nodup := by decide
  exact ⟨_, h₂, by decide +kernel, by decide +kernel, (recurring_posts_once hids h₂).2.1⟩

end Runs

end Expensea.Ledger
