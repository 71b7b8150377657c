import Expensea.Jobs.Fencing

namespace Expensea.Jobs

open Txn Txn.Discipline
open Txn.Tx (reads modify acquire tryAcquire throw each)

/-!
# Durable jobs — payloads and idempotent admission

* `creator` — the enqueue call that created a job, read off the log of calls;
* `PayloadsKept` — every row holds the payload of its creator until it is erased on a status
  that is never left, and every lease carries it;
* `enqueue_existing` — an enqueue under a key that has a job returns that job or conflicts, and
  writes nothing, whatever the others do meanwhile.
-/

variable {settings : JobsSettings} {fingerprint : Fingerprint} {h : List JobLock}

/-! ### The call that created a job -/

/-- The owner and the command of an enqueue call that returned the row it drew the identifier
    for. -/
def Call.creates (jobId : Uuid) (c : Call) : Option (Uuid × EnqueueJob) :=
  match c.request, c.outcome with
  | .enqueue id owner command, .view v =>
    if id = jobId ∧ v.id = jobId then some (owner, command) else none
  | _, _ => none

theorem Call.creates_enqueue (id owner : Uuid) (command : EnqueueJob) (started : Time)
    (v : JobView) (jobId : Uuid) :
    (⟨.enqueue id owner command, started, .view v⟩ : Call).creates jobId =
      if id = jobId ∧ v.id = jobId then some (owner, command) else none := rfl

/-- The call that created this job: the first that returned it under the identifier it drew. -/
def creator (jobId : Uuid) (log : List Call) : Option (Uuid × EnqueueJob) :=
  log.findSome? (Call.creates jobId)

theorem creator_append (jobId : Uuid) (log : List Call) (c : Call) :
    creator jobId (log ++ [c]) = (creator jobId log).or (c.creates jobId) := by
  rw [creator, List.findSome?_append]
  cases h : c.creates jobId <;> simp [creator, h]

/-- A job holds this payload, or holds none any more because its status is final. -/
def Job.Holds (payload : FinancialNotePayload) (j : Job) : Prop :=
  j.payload = some payload ∨ j.payload = none ∧ (j.status = .succeeded ∨ j.status = .cancelled)

theorem Job.Holds.of_open {payload : FinancialNotePayload} {j : Job} (hj : j.Holds payload)
    (hs : ¬ (j.status = .succeeded ∨ j.status = .cancelled)) : j.payload = some payload := by
  rcases hj with hj | ⟨-, hterm⟩
  · exact hj
  · exact absurd hterm hs

/-- A payload is erased only together with a final status. -/
theorem JobStep.holds {c : Time} {j j' : Job} (hstep : JobStep c j j')
    {payload : FinancialNotePayload} (hj : j.Holds payload) : j'.Holds payload := by
  have hpayload := hj.of_open hstep.not_terminal
  cases hstep with
  | expireDead t _ _ _ => exact .inl hpayload
  | expireRetry delay clock _ _ _ => exact .inl hpayload
  | lease token expires _ _ => exact .inl hpayload
  | requeue t _ _ => exact .inl hpayload
  | cancel t _ => exact .inr ⟨rfl, .inr rfl⟩
  | finish t r _ =>
    rw [Job.finish]
    split
    · exact .inr ⟨rfl, .inl rfl⟩
    · split
      · exact .inl hpayload
      · exact .inl hpayload

theorem Outcome.Effect.holds {c : Time} {a : Outcome} {j j' : Job} (heff : a.Effect c j j')
    {payload : FinancialNotePayload} (hj : j.Holds payload) : j'.Holds payload := by
  have hsteps := heff.steps
  clear heff
  induction hsteps with
  | refl => exact hj
  | tail _ hstep ih => exact hstep.holds ih

/-- A lease carries the payload its job holds. -/
theorem Outcome.Effect.lease_payload {c : Time} {l : Lease} {j j' : Job}
    (heff : (Outcome.claimed (some l)).Effect c j j') (hid : j.id = l.id)
    {payload : FinancialNotePayload} (hj : j.Holds payload) : l.payload = some payload := by
  rw [Outcome.Effect, if_pos hid] at heff
  obtain ⟨m, _, hm, hs, -, hl, -⟩ := heff
  have hrecovered : m.Holds payload :=
    Outcome.Effect.holds (a := .claimed none) (c := c) hm hj
  rw [hl]
  refine hrecovered.of_open ?_
  rcases hs with hs | hs <;> simp [hs]

/-- Every job was created by an enqueue call, whose payload its row and its leases carry. -/
structure PayloadsKept (fingerprint : Fingerprint) (g : JobDb) (log : List Call) : Prop where
  rows : ∀ j ∈ g.jobs, ∃ command, creator j.id log = some (j.userId, command) ∧
    j.idempotencyKey = command.idempotencyKey ∧ j.payloadHash = fingerprint command ∧
      j.Holds command.payload
  fresh : ∀ jobId, (∀ j ∈ g.jobs, j.id ≠ jobId) → creator jobId log = none
  leases : ∀ c ∈ log, ∀ l, c.outcome = .claimed (some l) → ∃ owner command,
    creator l.id log = some (owner, command) ∧ l.payload = some command.payload

/-- What an enqueue call creates is the row it added, or one that was there. -/
theorem Call.Did.creates {c : Call} {g g' : JobDb} (hdid : c.Did settings fingerprint g g')
    {jobId : Uuid} {x : Uuid × EnqueueJob} (hx : c.creates jobId = some x) :
    (∃ j ∈ g.jobs, j.id = jobId) ∨ ∃ createdAt availableAt, g'.jobs = g.jobs ++
      [x.2.row settings fingerprint jobId x.1 createdAt availableAt] := by
  obtain ⟨request, started, outcome⟩ := c
  cases request with
  | enqueue id owner command =>
    obtain ⟨v, hout, hrows⟩ := hdid
    simp only at hout
    subst hout
    rw [Call.creates_enqueue] at hx
    split at hx
    · rename_i hids
      obtain ⟨rfl, hid⟩ := hids
      obtain rfl := Option.some.inj hx
      rcases hrows with ⟨-, j, hj, hjid⟩ | ⟨-, createdAt, availableAt, hjobs⟩
      · exact .inl ⟨j, hj, hjid.trans hid⟩
      · exact .inr ⟨createdAt, availableAt, hjobs⟩
    · cases hx
  | claim token jitter => simp [Call.creates] at hx
  | finish lease r => simp [Call.creates] at hx
  | reviewRetry owner id => simp [Call.creates] at hx
  | cancel owner id => simp [Call.creates] at hx

/-- A row added by a commit is the row of its enqueue call. -/
theorem Call.Did.added {c : Call} {g g' : JobDb} (hdid : c.Did settings fingerprint g g')
    {j : Job} (hadded : g'.jobs.map Job.id = g.jobs.map Job.id ++ [j.id]) :
    ∃ owner command createdAt availableAt,
      g'.jobs = g.jobs ++
        [command.row settings fingerprint j.id owner createdAt availableAt] ∧
      c.creates j.id = some (owner, command) := by
  have hlen := congrArg List.length hadded
  have hne : g'.jobs.map Job.id ≠ g.jobs.map Job.id := by
    intro heq
    rw [heq] at hlen
    simp at hlen
  obtain ⟨request, started, outcome⟩ := c
  cases request with
  | enqueue id owner command =>
    obtain ⟨v, hout, ⟨hjobs, -⟩ | ⟨hid, createdAt, availableAt, hjobs⟩⟩ := hdid
    · exact absurd (congrArg _ hjobs) hne
    · rw [hjobs, List.map_append] at hadded
      have hlast : id = j.id := List.head_eq_of_cons_eq (List.append_cancel_left hadded)
      subst hlast
      refine ⟨owner, command, createdAt, availableAt, hjobs, ?_⟩
      simp only at hout
      subst hout
      rw [Call.creates_enqueue, if_pos ⟨rfl, hid⟩]
  | claim token jitter => exact absurd hdid.1 hne
  | finish lease r => exact absurd hdid.1 hne
  | reviewRetry owner jobId =>
    obtain ⟨v, -, k, -, t, -, -, -, hjobs⟩ := hdid
    refine absurd ?_ hne
    rw [hjobs]
    exact keepsIds_set k.id (f := Job.requeue t) (fun _ => rfl) g
  | cancel owner jobId =>
    obtain ⟨v, -, hjobs | ⟨k, -, t, -, hjobs⟩⟩ := hdid
    · exact absurd (congrArg _ hjobs) hne
    · refine absurd ?_ hne
      rw [hjobs]
      exact keepsIds_set k.id (f := Job.cancel t) (fun _ => rfl) g

/-- A commit keeps the payloads. -/
theorem Call.Did.payloadsKept {c : Call} {g g' : JobDb} {φ : Job → Job} {new : Option Job}
    (hg' : g'.Ok settings) (hdid : c.Did settings fingerprint g g')
    (hc : Committed settings fingerprint h c.outcome g g' φ new) {log : List Call}
    (hlog : PayloadsKept fingerprint g log) : PayloadsKept fingerprint g' (log ++ [c]) := by
  have hids : (g.jobs.map φ).map Job.id = g.jobs.map Job.id := by
    rw [List.map_map]
    exact List.map_congr_left fun j hj => (hc.effect j hj).sameIdentity.id
  refine ⟨fun j' hj' => ?_, fun jobId hno => ?_, fun d hd l hl => ?_⟩
  · rw [hc.jobs] at hj'
    rcases List.mem_append.1 hj' with hj' | hj'
    · -- a row that was there keeps its creator
      obtain ⟨j, hj, rfl⟩ := List.mem_map.1 hj'
      obtain ⟨command, hcreator, hkey, hhash, hholds⟩ := hlog.rows j hj
      have hsame := (hc.effect j hj).sameIdentity
      refine ⟨command, ?_, hsame.idempotencyKey.trans hkey, hsame.payloadHash.trans hhash,
        (hc.effect j hj).holds hholds⟩
      rw [creator_append, hsame.id, hcreator, hsame.userId]
      rfl
    · -- a new row is the row of this call, and its identifier has had no creator
      have hnew : new = some j' := by simpa using hj'
      have hadded : g'.jobs.map Job.id = g.jobs.map Job.id ++ [j'.id] := by
        rw [hc.jobs, List.map_append, hids, hnew]
        rfl
      obtain ⟨owner, command, createdAt, availableAt, hjobs, hcreates⟩ := hdid.added hadded
      have hrow : j' = command.row settings fingerprint j'.id owner createdAt availableAt := by
        have heq := hjobs.symm.trans hc.jobs
        rw [hnew] at heq
        exact (List.head_eq_of_cons_eq (List.append_inj' heq rfl).2).symm
      have hfresh := hlog.fresh j'.id fun k hk hkid => by
        have hnodup := hg'.ids
        rw [hadded] at hnodup
        exact (List.nodup_append.1 hnodup).2.2 _ (List.mem_map_of_mem hk) _
          List.mem_cons_self hkid
      refine ⟨command, ?_, ?_, ?_, ?_⟩
      · rw [creator_append, hfresh, Option.none_or, hcreates, hrow]
        rfl
      · rw [hrow]
        rfl
      · rw [hrow]
        rfl
      · rw [hrow]
        exact .inl rfl
  · have hno' : ∀ j ∈ g.jobs, j.id ≠ jobId := by
      intro j hj hid
      refine hno (φ j) ?_ ((hc.effect j hj).sameIdentity.id.trans hid)
      rw [hc.jobs]
      exact List.mem_append_left _ (List.mem_map_of_mem hj)
    rw [creator_append, hlog.fresh jobId hno', Option.none_or]
    cases hcreates : c.creates jobId with
    | none => rfl
    | some x =>
      rcases hdid.creates hcreates with ⟨j, hj, hid⟩ | ⟨createdAt, availableAt, hjobs⟩
      · exact absurd hid (hno' j hj)
      · refine absurd rfl (hno (x.2.row settings fingerprint jobId x.1 createdAt availableAt) ?_)
        rw [hjobs]
        exact List.mem_append_right _ List.mem_cons_self
  · rcases List.mem_append.1 hd with hd | hd
    · obtain ⟨owner, command, hcreator, hpayload⟩ := hlog.leases d hd l hl
      exact ⟨owner, command, by rw [creator_append, hcreator]; rfl, hpayload⟩
    · obtain rfl := List.mem_singleton.1 hd
      obtain ⟨j, hj, hid⟩ := hc.target l.id (by rw [hl]; rfl)
      obtain ⟨command, hcreator, -, -, hholds⟩ := hlog.rows j hj
      have heff := hc.effect j hj
      rw [hl] at heff
      refine ⟨j.userId, command, ?_, heff.lease_payload hid hholds⟩
      rw [creator_append, ← hid, hcreator]
      rfl

/-! ### Enqueue under a key that has a job -/

/-- The error of an enqueue whose key has a job with another fingerprint. -/
def conflict : JobError := ⟨"IDEMPOTENCY_CONFLICT", 409⟩

/-- The call returns this job and wrote nothing. -/
def Returned (job : Job) (c : Call) (w : JobDb → JobDb) : Prop :=
  w = id ∧ ∃ v, c.outcome = .view v ∧ v.id = job.id

/-- An enqueue under a key that has a job: with the job's fingerprint it returns the job, with
    another it conflicts; it writes nothing, and no capacity check is made. -/
theorem enqueue_existing (jobId : Uuid) (command : EnqueueJob) {job : Job} {g : JobDb}
    (hjob : job ∈ g.jobs) (hkey : command.idempotencyKey = job.idempotencyKey) :
    (callDiscipline settings fingerprint).wpe
      (fun e => e = conflict ∧ job.payloadHash ≠ fingerprint command)
      ((Request.enqueue jobId job.userId command).call settings fingerprint)
      (fun c w _ _ => job.payloadHash = fingerprint command ∧ Returned job c w) id [] g := by
  refine (wpe_bind _ _ _ _ _ _).2 ?_
  rintro g₁ ⟨φ₁, new₁, hi₁⟩ -
  refine (wpe_bind _ _ _ _ _ _).2 ((wpe_bind _ _ _ _ _ _).2 ((wpe_bind _ _ _ _ _ _).2 ?_))
  rintro g₂ ⟨φ₂, new₂, hi₂⟩ -
  refine (wpe_bind _ _ _ _ _ _).2 ?_
  rintro g₃ ⟨φ₃, new₃, hi₃⟩ -
  refine (wpe_bind _ _ _ _ _ _).2 ((wpe_reads _ _ _ _ _).2 ?_)
  rintro g₄ ⟨φ₄, new₄, hi₄⟩ hg₄
  -- the job is still there under its key, so the lookup finds it
  have hi := (hi₁.trans hi₂).trans
    (hi₃.trans (hi₄.mono fun l hl => absurd hl List.not_mem_nil))
  obtain ⟨row, hmem, hsame⟩ : ∃ row ∈ g₄.jobs, job.SameIdentity row :=
    ⟨_, hi.mem_same hjob⟩
  split
  · -- the row found is the job as it stands
    rename_i found hfound
    have hkeys := List.find?_some hfound
    simp only [Bool.and_eq_true, beq_iff_eq] at hkeys
    obtain rfl : found = row := by
      refine List.inj_on_of_nodup_map hg₄.keys (List.mem_of_find?_eq_some hfound) hmem ?_
      rw [hkeys.1, hkeys.2, hsame.userId, hsame.idempotencyKey, hkey]
    by_cases hhash : found.payloadHash = fingerprint command
    · rw [if_neg (not_not.2 hhash)]
      exact ⟨hsame.payloadHash ▸ hhash, rfl, found.view, rfl, hsame.id⟩
    · rw [if_pos hhash]
      exact ⟨rfl, hsame.payloadHash ▸ hhash⟩
  · rename_i hnone
    have hno := List.find?_eq_none.1 hnone row hmem
    simp [hsame.userId, hsame.idempotencyKey, hkey] at hno

/-! ### Every run -/

section Runs

variable {ι : Type} [DecidableEq ι] {clock : Time}

/-- **Payloads and idempotent admission.**  In every state reached from an empty table by any
    interleaving of the queue transactions with crashes and the passing of time: every lease
    handed out carries the payload of the enqueue call that created its job; an owner and an
    idempotency key have at most one job; and an enqueue that opens on such a pair, whatever
    the job's status and however full the queue, returns that job if its fingerprint is the
    job's and fails with `IDEMPOTENCY_CONFLICT` if it is not, and writes nothing. -/
theorem payload_and_idempotency (settings : JobsSettings) (fingerprint : Fingerprint)
    (clock : Time) {s : State JobDb JobLock JobError Call ι}
    (hs : Reachable (AdmitsCall settings fingerprint) Passes ⟨[], clock⟩ s) :
    (∀ c ∈ s.log, ∀ l, c.outcome = .claimed (some l) → ∃ owner command,
      creator l.id s.log = some (owner, command) ∧ l.payload = some command.payload) ∧
    (∀ j ∈ s.db.jobs, ∀ k ∈ s.db.jobs, j.userId = k.userId →
      j.idempotencyKey = k.idempotencyKey → j = k) ∧
    ∀ job ∈ s.db.jobs, ∀ jobId command, command.idempotencyKey = job.idempotencyKey →
      ∀ i s', s.sessions i = none →
        Follows (AdmitsCall settings fingerprint) Passes i (s.setSession i (some
          ⟨(Request.enqueue jobId job.userId command).call settings fingerprint, id, []⟩)) s' →
        (∀ c w h, s'.sessions i = some ⟨.pure c, w, h⟩ →
          job.payloadHash = fingerprint command ∧ Returned job c w) ∧
        ∀ e w h, s'.sessions i = some ⟨.fail e, w, h⟩ →
          e = conflict ∧ job.payloadHash ≠ fingerprint command := by
  have hgood := reachable_good hs
  have hkept : PayloadsKept fingerprint s.db s.log := by
    refine commit_induction (call_safe_from settings fingerprint) (JobDb.empty_ok clock)
      ⟨by simp, by simp [creator], by simp⟩ ?_ ?_ hs
    · rintro _ c g g' log - hg' ⟨⟨φ, new, hc⟩, hdid⟩ hlog
      exact hdid.payloadsKept hg' hc hlog
    · rintro g g' log - ⟨hjobs, -⟩ ⟨hrows, hfresh, hleases⟩
      exact ⟨hjobs ▸ hrows, hjobs ▸ hfresh, hleases⟩
  refine ⟨hkept.leases, fun j hj k hk huser hkey => ?_, ?_⟩
  · exact List.inj_on_of_nodup_map hgood.inv.keys hj hk (Prod.ext huser hkey)
  · intro job hjob jobId command hkey i s' hnone hfollows
    have hopened : (callDiscipline settings fingerprint).Good (s.setSession i (some
        ⟨(Request.enqueue jobId job.userId command).call settings fingerprint, id, []⟩)) :=
      hgood.step (fun p hp => call_safe_from settings fingerprint _ p _ hp hgood.inv)
        (.begin i _ hnone ⟨_, rfl⟩)
    obtain ⟨-, t, ht, hwp⟩ := hfollows.wpe (call_safe_from settings fingerprint)
      (fun _ _ _ _ _ _ _ hq => hq) hopened (Function.update_self i _ _)
      (enqueue_existing jobId command hjob hkey)
    constructor
    · intro c w h hc
      obtain rfl := Option.some.inj (ht.symm.trans hc)
      exact hwp
    · intro e w h he
      obtain rfl := Option.some.inj (ht.symm.trans he)
      exact hwp

/-- The note is enqueued and leased: one of the runs of `payload_and_idempotency`. -/
theorem payload_and_idempotency_leased :
    ∃ s : State JobDb JobLock JobError Call Unit,
      Reachable (AdmitsCall .default dinnerFingerprint) Passes ⟨[], 0⟩ s ∧
      (∃ l, (∃ c ∈ s.log, c.outcome = .claimed (some l)) ∧ ∃ owner command,
        creator l.id s.log = some (owner, command) ∧ l.payload = some command.payload) ∧
      s.db.jobs.length = 1 := by
  let enqueued := (Request.enqueue 7 1 dinnerCommand).call .default dinnerFingerprint
  let claimed := (Request.claim 9 fun _ => ⟨0, by norm_num⟩).call .default dinnerFingerprint
  let g₁ := enqueued.after ⟨[], 0⟩
  obtain ⟨a, hrun₁, -⟩ := Tx.run_of_returns
    (show enqueued.returns (fun _ => true) ⟨[], 0⟩ = true by decide +kernel)
  obtain ⟨b, hrun₂, hlease⟩ := Tx.run_of_returns
    (show claimed.returns (fun c => c.outcome == .claimed (some ⟨7, 1, 9, some dinnerCommand.payload, 1⟩))
      g₁ = true by decide +kernel)
  have h₁ : Reachable (AdmitsCall .default dinnerFingerprint) Passes ⟨[], 0⟩
      (⟨g₁, [] ++ [a], fun _ => none⟩ : State JobDb JobLock JobError Call Unit) :=
    Reachable.alone () .init ⟨_, rfl⟩ hrun₁
  have h₂ := Reachable.alone () h₁ ⟨_, rfl⟩ hrun₂
  obtain ⟨hleases, -, -⟩ := payload_and_idempotency _ _ _ h₂
  have hmem : b ∈ [] ++ [a] ++ [b] := List.mem_append_right _ List.mem_cons_self
  refine ⟨_, h₂, ⟨_, ⟨b, hmem, eq_of_beq hlease⟩, hleases b hmem _ (eq_of_beq hlease)⟩, ?_⟩
  show (claimed.after g₁).jobs.length = 1
  decide +kernel

end Runs

end Expensea.Jobs
