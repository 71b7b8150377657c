import Expensea.Jobs.Calls
import Mathlib.Data.List.Count

namespace Expensea.Jobs

open Txn Txn.Discipline

/-!
# Durable jobs — leases are fenced

A lease can be reported once, and only while it is current:

* `recorded_le_handed` — no token is reported more often than it was handed out;
* `Call.Did.stale_finish` — a report whose token is not the current one, or that comes when the
  lease has expired, leaves the job as it was;
* `Call.Did.moves` — succeeded and cancelled jobs stay, and a dead-letter job leaves only by
  `review_retry`, which `retryCount_le` bounds.
-/

variable {settings : JobsSettings} {fingerprint : Fingerprint} {h : List JobLock}

/-! ### Moves of a finished job -/

/-- No transaction moves a succeeded or cancelled job. -/
theorem JobStep.not_terminal {c : Time} {j j' : Job} (hstep : JobStep c j j') :
    ¬ (j.status = .succeeded ∨ j.status = .cancelled) := by
  rintro (hs | hs)
  · cases hstep <;> simp_all
  · cases hstep <;> simp_all

theorem Outcome.Effect.eq_of_terminal {c : Time} {a : Outcome} {j j' : Job} (heff : a.Effect c j j')
    (hj : j.status = .succeeded ∨ j.status = .cancelled) : j' = j := by
  rcases heff.steps.cases_head with heq | ⟨k, hstep, -⟩
  · exact heq.symm
  · exact absurd hj hstep.not_terminal

/-- Only what an outcome of `review_retry` or `cancel` can be moves a dead-letter job. -/
theorem Outcome.Effect.eq_of_deadLetter {c : Time} {a : Outcome} {j j' : Job}
    (heff : a.Effect c j j') (hj : j.status = .deadLetter) (ha : ∀ v, a ≠ .view v) : j' = j := by
  have hrecovered : ∀ {m : Job}, Recovered c j m → m = j := by
    intro m hm
    cases hm with
    | same => rfl
    | dead _ hs => rw [hj] at hs; cases hs
    | retry _ _ hs => rw [hj] at hs; cases hs
  match a, heff with
  | .claimed none, heff => exact hrecovered heff
  | .claimed (some l), heff =>
    simp only [Outcome.Effect] at heff
    split at heff
    · obtain ⟨m, _, hm, hs, -⟩ := heff
      rw [hrecovered hm, hj] at hs
      rcases hs with hs | hs <;> cases hs
    · exact hrecovered heff
  | .finished l true, heff =>
    simp only [Outcome.Effect] at heff
    split at heff
    · obtain ⟨t, r, -, howns, -⟩ := heff
      have hrunning := Lease.owns_running howns
      rw [hj] at hrunning
      cases hrunning
    · exact heff
  | .finished l false, heff => exact heff
  | .view v, _ => exact absurd rfl (ha v)

/-- Reviews are only ever counted up. -/
theorem JobStep.reviewRetries_le {c : Time} {j j' : Job} (hstep : JobStep c j j') :
    j.reviewRetries ≤ j'.reviewRetries := by
  cases hstep with
  | finish t r hs => exact (j.finish_attempts t r).2.ge
  | requeue t _ _ => exact Nat.le_succ _
  | _ => exact le_rfl

theorem Outcome.Effect.reviewRetries_le {c : Time} {a : Outcome} {j j' : Job}
    (heff : a.Effect c j j') : j.reviewRetries ≤ j'.reviewRetries := by
  have hsteps := heff.steps
  clear heff
  induction hsteps with
  | refl => exact le_rfl
  | tail _ hstep ih => exact ih.trans hstep.reviewRetries_le

/-! ### What a commit makes of each row -/

section Commit

variable {c : Call} {g g' : JobDb} {φ : Job → Job} {new : Option Job}

/-- A commit that keeps the identifiers adds no row. -/
theorem Committed.jobs_eq {a : Outcome} (hc : Committed settings fingerprint h a g g' φ new)
    (hids : g'.jobs.map Job.id = g.jobs.map Job.id) : g'.jobs = g.jobs.map φ := by
  have hlen := congrArg List.length hids
  rw [hc.jobs] at hlen ⊢
  cases new with
  | none => exact List.append_nil _
  | some j => simp at hlen

/-- Rows of other identifiers stay, and the updated row is the updated one. -/
theorem JobDb.mem_set {g : JobDb} (hids : (g.jobs.map Job.id).Nodup) {k : Job} (hk : k ∈ g.jobs)
    {f : Job → Job} {j : Job} (hj : j ∈ g.jobs) :
    (j = k ∧ f k ∈ (g.set k.id f).jobs) ∨ (j.id ≠ k.id ∧ j ∈ (g.set k.id f).jobs) := by
  by_cases hid : j.id = k.id
  · refine .inl ⟨List.inj_on_of_nodup_map hids hj hk hid, ?_⟩
    exact Table.mem_set.2 ⟨k, hk, (if_pos rfl).symm⟩
  · exact .inr ⟨hid, Table.mem_set_of_ne hj hid⟩

/-- Every row stays under its identifier: terminal rows as they are, dead-letter rows too unless
    the call is their review. -/
theorem Call.Did.moves (hg : g.Ok settings) (hdid : c.Did settings fingerprint g g')
    (hc : Committed settings fingerprint h c.outcome g g' φ new) {j : Job} (hj : j ∈ g.jobs) :
    ∃ j' ∈ g'.jobs, j'.id = j.id ∧
      ((j.status = .succeeded ∨ j.status = .cancelled) → j' = j) ∧
      (j.status = .deadLetter → j' = j ∨ c.request = .reviewRetry j.userId j.id) := by
  have heff := hc.effect j hj
  have hmem : φ j ∈ g'.jobs := by
    rw [hc.jobs]
    exact List.mem_append_left _ (List.mem_map_of_mem hj)
  -- calls that return no view move rows as their outcome says
  have hother : (∀ v, c.outcome ≠ .view v) → ∃ j' ∈ g'.jobs, j'.id = j.id ∧
      ((j.status = .succeeded ∨ j.status = .cancelled) → j' = j) ∧
      (j.status = .deadLetter → j' = j ∨ c.request = .reviewRetry j.userId j.id) := fun hview =>
    ⟨φ j, hmem, heff.sameIdentity.id, heff.eq_of_terminal,
      fun hs => .inl (heff.eq_of_deadLetter hs hview)⟩
  have hstays : j ∈ g'.jobs → ∃ j' ∈ g'.jobs, j'.id = j.id ∧
      ((j.status = .succeeded ∨ j.status = .cancelled) → j' = j) ∧
      (j.status = .deadLetter → j' = j ∨ c.request = .reviewRetry j.userId j.id) := fun hj' =>
    ⟨j, hj', rfl, fun _ => rfl, fun _ => .inl rfl⟩
  obtain ⟨request, started, outcome⟩ := c
  cases request with
  | enqueue jobId owner command =>
    obtain ⟨v, -, ⟨hjobs, -⟩ | ⟨-, _, _, hjobs⟩⟩ := hdid
    · exact hstays (hjobs ▸ hj)
    · exact hstays (hjobs ▸ List.mem_append_left _ hj)
  | claim token jitter =>
    obtain ⟨-, lease, hout⟩ := hdid
    exact hother fun v hv => by cases hv.symm.trans hout
  | finish lease r =>
    obtain ⟨-, recorded, hout, -⟩ := hdid
    exact hother fun v hv => by cases hv.symm.trans hout
  | reviewRetry owner jobId =>
    obtain ⟨v, -, k, hk, t, rfl, rfl, hs, hjobs⟩ := hdid
    rw [hjobs] at hstays ⊢
    rcases JobDb.mem_set hg.ids hk (f := Job.requeue t) hj with ⟨rfl, hmem⟩ | ⟨-, hmem⟩
    · refine ⟨_, hmem, rfl, fun hterm => ?_, fun _ => .inr rfl⟩
      rw [hs] at hterm
      rcases hterm with hterm | hterm <;> cases hterm
    · exact hstays hmem
  | cancel owner jobId =>
    obtain ⟨v, -, hjobs | ⟨k, hk, t, hs, hjobs⟩⟩ := hdid
    · exact hstays (hjobs ▸ hj)
    · rw [hjobs] at hstays ⊢
      rcases JobDb.mem_set hg.ids hk (f := Job.cancel t) hj with ⟨rfl, hmem⟩ | ⟨-, hmem⟩
      · refine ⟨_, hmem, rfl, fun hterm => ?_, fun hdead => ?_⟩
        · rcases hs with hs | hs <;> rw [hs] at hterm <;> rcases hterm with hterm | hterm <;>
            cases hterm
        · rcases hs with hs | hs <;> rw [hs] at hdead <;> cases hdead
      · exact hstays hmem

/-- A report under a token that is not the job's, or that came when the job's lease had expired,
    is not recorded and leaves the job as it was. -/
theorem Call.Did.stale_finish (hg : g.Ok settings) (hdid : c.Did settings fingerprint g g')
    (hc : Committed settings fingerprint h c.outcome g g' φ new) {lease : Lease}
    {r : FinishRequest} (hr : c.request = .finish lease r) {j : Job} (hj : j ∈ g.jobs)
    (hid : j.id = lease.id)
    (hstale : j.leaseToken ≠ some lease.token ∨ j.expiredAt c.started = true) :
    c.outcome = .finished lease false ∧ j ∈ g'.jobs := by
  rw [Call.Did, hr] at hdid
  obtain ⟨-, recorded, hout, howned⟩ := hdid
  cases recorded with
  | false =>
    refine ⟨hout, ?_⟩
    have heff := hc.effect j hj
    rw [hout] at heff
    have hj' : φ j = j := heff
    rw [hc.jobs, ← hj']
    exact List.mem_append_left _ (List.mem_map_of_mem hj)
  | true =>
    -- a recorded report found its own token on the row, and the lease still running
    obtain ⟨t, ht, k, hk, howns⟩ := howned rfl
    simp only [Lease.owns, Bool.and_eq_true, beq_iff_eq, Bool.not_eq_true'] at howns
    obtain ⟨⟨⟨⟨⟨hkid, -⟩, -⟩, htoken⟩, hlive⟩, -⟩ := howns
    obtain rfl := List.inj_on_of_nodup_map hg.ids hj hk (hid.trans hkid.symm)
    rcases hstale with hstale | hstale
    · exact absurd htoken hstale
    · rw [Job.expiredAt_mono ht hstale] at hlive
      cases hlive

end Commit

/-! ### Reports of a lease -/

/-- The job and the token an outcome hands out. -/
def Outcome.handed : Outcome → Option (Uuid × Uuid)
  | .claimed (some l) => some (l.id, l.token)
  | _ => none

/-- The job and the token whose report an outcome records. -/
def Outcome.recorded : Outcome → Option (Uuid × Uuid)
  | .finished l true => some (l.id, l.token)
  | _ => none

theorem Outcome.of_recorded {a : Outcome} {x : Uuid × Uuid} (h : a.recorded = some x) :
    ∃ l, a = .finished l true ∧ (l.id, l.token) = x := by
  cases a with
  | view v => cases h
  | claimed lease => cases h
  | finished l b =>
    cases b with
    | false => cases h
    | true => exact ⟨l, rfl, Option.some.inj h⟩

/-- The leases handed out so far. -/
def handed (log : List Call) : List (Uuid × Uuid) := log.filterMap fun c => c.outcome.handed

/-- The leases `finish` has returned true for so far. -/
def recorded (log : List Call) : List (Uuid × Uuid) := log.filterMap fun c => c.outcome.recorded

/-- The row of this job carries this token. -/
def JobDb.carries (x : Uuid × Uuid) (g : JobDb) : Bool :=
  g.jobs.any fun j => j.id == x.1 && j.leaseToken == some x.2

theorem JobDb.carries_iff {x : Uuid × Uuid} {g : JobDb} :
    g.carries x = true ↔ ∃ j ∈ g.jobs, j.id = x.1 ∧ j.leaseToken = some x.2 := by
  simp [JobDb.carries]

/-- Leases reported, and leases still open, were handed out. -/
def LeasesFenced (g : JobDb) (log : List Call) : Prop :=
  ∀ x, (recorded log).count x + (if g.carries x = true then 1 else 0) ≤ (handed log).count x

theorem count_filterMap_append {β : Type} [BEq β] [LawfulBEq β] [DecidableEq β] (f : Call → Option β) (log : List Call)
    (c : Call) (x : β) : ((log ++ [c]).filterMap f).count x =
      (log.filterMap f).count x + if f c = some x then 1 else 0 := by
  rw [List.filterMap_append, List.count_append]
  congr 1
  cases hf : f c with
  | none => simp [hf]
  | some y => simp [hf, List.count_singleton]

/-- A token on a row after a commit was there before, unless the commit handed it out; and a
    recorded report took it off. -/
theorem Outcome.Effect.leaseToken {t : Time} {a : Outcome} {j j' : Job} (heff : a.Effect t j j')
    {token : Uuid} (htoken : j'.leaseToken = some token) :
    a.handed = some (j.id, token) ∨
      (j.leaseToken = some token ∧ a.recorded ≠ some (j.id, token)) := by
  have hrecovered : ∀ {m : Job}, Recovered t j m → m.leaseToken = some token →
      j.leaseToken = some token := by
    intro m hm hmt
    cases hm with
    | same => exact hmt
    | dead => cases hmt
    | retry => cases hmt
  match a, heff with
  | .claimed none, heff => exact .inr ⟨hrecovered heff htoken, by simp [Outcome.recorded]⟩
  | .claimed (some l), heff =>
    simp only [Outcome.Effect] at heff
    split at heff
    · rename_i hid
      obtain ⟨m, _, -, -, -, -, rfl⟩ := heff
      refine .inl ?_
      rw [Outcome.handed, hid, Option.some.inj htoken]
    · exact .inr ⟨hrecovered heff htoken, by simp [Outcome.recorded]⟩
  | .finished l true, heff =>
    simp only [Outcome.Effect] at heff
    split at heff
    · obtain ⟨done, r, -, -, rfl⟩ := heff
      have hnone : (j.finish done r).leaseToken = none := by
        rw [Job.finish]
        split
        · rfl
        · split <;> rfl
      rw [hnone] at htoken
      cases htoken
    · rename_i hid
      refine .inr ⟨heff ▸ htoken, fun hrec => hid ?_⟩
      have hpair := Option.some.inj hrec
      exact (congrArg Prod.fst hpair).symm
  | .finished l false, heff =>
    obtain rfl : j' = j := heff
    exact .inr ⟨htoken, by simp [Outcome.recorded]⟩
  | .view v, heff =>
    refine .inr ⟨?_, by simp [Outcome.recorded]⟩
    rcases heff with rfl | ⟨-, ⟨_, -, -, rfl⟩ | ⟨_, -, rfl⟩⟩
    · exact htoken
    · exact htoken
    · exact htoken

/-- A commit keeps the leases fenced. -/
theorem Committed.leasesFenced {c : Call} {g g' : JobDb} {φ : Job → Job} {new : Option Job}
    (hc : Committed settings fingerprint h c.outcome g g' φ new) {log : List Call}
    (hlog : LeasesFenced g log) : LeasesFenced g' (log ++ [c]) := by
  rintro ⟨jobId, token⟩
  have hbefore := hlog (jobId, token)
  rw [recorded, handed, count_filterMap_append, count_filterMap_append]
  rw [recorded, handed] at hbefore
  -- a recorded report was of the lease on the row
  have hreported : c.outcome.recorded = some (jobId, token) → g.carries (jobId, token) = true := by
    intro hrec
    obtain ⟨l, hout, hids⟩ := Outcome.of_recorded hrec
    obtain ⟨rfl, rfl⟩ := Prod.mk.inj hids
    obtain ⟨j, hj, hid⟩ := hc.target l.id (by rw [hout]; rfl)
    have heff := hc.effect j hj
    rw [hout, Outcome.Effect, if_pos hid] at heff
    obtain ⟨t, r, -, howns, -⟩ := heff
    simp only [Lease.owns, Bool.and_eq_true, beq_iff_eq] at howns
    exact JobDb.carries_iff.2 ⟨j, hj, hid, howns.1.1.2⟩
  by_cases hcarries : g'.carries (jobId, token) = true
  · rw [if_pos hcarries]
    obtain ⟨j', hj', hid, htoken⟩ := JobDb.carries_iff.1 hcarries
    rw [hc.jobs] at hj'
    rcases List.mem_append.1 hj' with hj' | hj'
    · obtain ⟨j, hj, rfl⟩ := List.mem_map.1 hj'
      have heff := hc.effect j hj
      rw [heff.sameIdentity.id] at hid
      subst hid
      rcases heff.leaseToken htoken with hhanded | ⟨hold, hnot⟩
      · have hnone : c.outcome.recorded ≠ some (j.id, token) := by
          intro hrec
          obtain ⟨l, hout, -⟩ := Outcome.of_recorded hrec
          rw [hout] at hhanded
          cases hhanded
        rw [if_neg hnone, if_pos hhanded]
        omega
      · rw [if_pos (JobDb.carries_iff.2 ⟨j, hj, rfl, hold⟩)] at hbefore
        rw [if_neg hnot]
        omega
    · -- a new row carries no token
      obtain ⟨-, -, -, command, _, _, hrow⟩ := hc.added j' (by simpa using hj')
      rw [hrow] at htoken
      cases htoken
  · rw [if_neg hcarries]
    by_cases hrec : c.outcome.recorded = some (jobId, token)
    · rw [if_pos (hreported hrec)] at hbefore
      rw [if_pos hrec]
      omega
    · rw [if_neg hrec]
      omega

/-- Counting by a projection keeps an inequality that holds value by value. -/
theorem count_map_snd_le {l m : List (Uuid × Uuid)} (hle : ∀ x, l.count x ≤ m.count x)
    (token : Uuid) : (l.map Prod.snd).count token ≤ (m.map Prod.snd).count token := by
  obtain ⟨k, hperm, hsub⟩ := List.subperm_ext_iff.2 fun x _ => hle x
  rw [← (hperm.map Prod.snd).count_eq token]
  exact (hsub.map Prod.snd).count_le token

/-! ### Reviews of a job -/

/-- The call reviews this job. -/
def Call.retries (jobId : Uuid) (c : Call) : Bool :=
  match c.request with
  | .reviewRetry _ id => id == jobId
  | _ => false

/-- The number of committed reviews of a job. -/
def retryCount (jobId : Uuid) (log : List Call) : Nat := log.countP (Call.retries jobId)

/-- The reviews of a job are counted in its row. -/
def RetriesCounted (g : JobDb) (log : List Call) : Prop :=
  (∀ j ∈ g.jobs, retryCount j.id log ≤ j.reviewRetries) ∧
    ∀ jobId, (∀ j ∈ g.jobs, j.id ≠ jobId) → retryCount jobId log = 0

theorem retryCount_append (jobId : Uuid) (log : List Call) (c : Call) :
    retryCount jobId (log ++ [c]) =
      retryCount jobId log + if c.retries jobId = true then 1 else 0 := by
  simp only [retryCount, List.countP_append, List.countP_singleton]

/-- A commit keeps the reviews counted. -/
theorem Call.Did.retriesCounted {c : Call} {g g' : JobDb} {φ : Job → Job} {new : Option Job}
    (hg' : g'.Ok settings) (hdid : c.Did settings fingerprint g g')
    (hc : Committed settings fingerprint h c.outcome g g' φ new) {log : List Call}
    (hlog : RetriesCounted g log) : RetriesCounted g' (log ++ [c]) := by
  -- a call that is no review, and adds no row
  have hkept : (∀ jobId, c.retries jobId = false) →
      g'.jobs.map Job.id = g.jobs.map Job.id → RetriesCounted g' (log ++ [c]) := by
    intro hno hids
    constructor
    · intro j' hj'
      rw [hc.jobs_eq hids] at hj'
      obtain ⟨j, hj, rfl⟩ := List.mem_map.1 hj'
      have heff := hc.effect j hj
      rw [heff.sameIdentity.id, retryCount_append, hno, if_neg Bool.false_ne_true]
      exact (hlog.1 j hj).trans heff.reviewRetries_le
    · intro jobId hnone
      rw [retryCount_append, hno, if_neg Bool.false_ne_true]
      refine hlog.2 jobId fun j hj hid => ?_
      have hmem : jobId ∈ g'.jobs.map Job.id := hids ▸ hid ▸ List.mem_map_of_mem hj
      obtain ⟨j', hj', hid'⟩ := List.mem_map.1 hmem
      exact hnone j' hj' hid'
  obtain ⟨request, started, outcome⟩ := c
  cases request with
  | enqueue jobId owner command =>
    obtain ⟨v, -, ⟨hjobs, -⟩ | ⟨-, _, _, hjobs⟩⟩ := hdid
    · exact hkept (fun _ => rfl) (congrArg _ hjobs)
    · have hids := hg'.ids
      rw [hjobs, List.map_append] at hids
      have hfresh := (List.nodup_append.1 hids).2.2
      rw [RetriesCounted, hjobs]
      constructor
      · intro j hj
        rw [retryCount_append]
        rcases List.mem_append.1 hj with hj | hj
        · exact hlog.1 j hj
        · obtain rfl := List.mem_singleton.1 hj
          refine (hlog.2 _ fun k hk => ?_).le
          exact hfresh _ (List.mem_map_of_mem hk) _ List.mem_cons_self
      · intro id hnone
        rw [retryCount_append]
        exact hlog.2 id fun j hj => hnone j (List.mem_append_left _ hj)
  | claim token jitter => exact hkept (fun _ => rfl) hdid.1
  | finish lease r => exact hkept (fun _ => rfl) hdid.1
  | cancel owner jobId =>
    obtain ⟨v, -, hjobs | ⟨k, hk, t, -, hjobs⟩⟩ := hdid
    · exact hkept (fun _ => rfl) (congrArg _ hjobs)
    · refine hkept (fun _ => rfl) ?_
      rw [hjobs]
      exact keepsIds_set k.id (f := Job.cancel t) (fun _ => rfl) g
  | reviewRetry owner jobId =>
    obtain ⟨v, -, k, hk, t, -, hkid, -, hjobs⟩ := hdid
    subst hkid
    rw [RetriesCounted, hjobs]
    constructor
    · intro j' hj'
      obtain ⟨j, hj, rfl⟩ := Table.mem_set.1 hj'
      rw [retryCount_append]
      by_cases hid : j.id = k.id
      · rw [if_pos hid]
        show retryCount j.id log + _ ≤ j.reviewRetries + 1
        have := hlog.1 j hj
        split <;> omega
      · rw [if_neg hid, if_neg (by simpa [Call.retries] using Ne.symm hid)]
        exact hlog.1 j hj
    · intro id hnone
      have hne : ∀ j ∈ g.jobs, j.id ≠ id := by
        intro j hj hid
        have hids : (g.set k.id (Job.requeue t)).jobs.map Job.id = g.jobs.map Job.id :=
          keepsIds_set k.id (f := Job.requeue t) (fun _ => rfl) g
        have hmem : j.id ∈ g.jobs.map Job.id := List.mem_map_of_mem hj
        rw [← hids] at hmem
        obtain ⟨j', hj', hid'⟩ := List.mem_map.1 hmem
        exact hnone j' hj' (hid'.trans hid)
      rw [retryCount_append, hlog.2 id hne, if_neg (by simpa [Call.retries] using hne k hk)]

/-! ### Every run -/

section Runs

variable {ι : Type} [DecidableEq ι] {clock : Time}

theorem call_safe_from (settings : JobsSettings) (fingerprint : Fingerprint) (log : List Call)
    (p : JobTx Call) (g : JobDb) (hp : AdmitsCall settings fingerprint log p)
    (_ : (callDiscipline settings fingerprint).inv g) :
    (callDiscipline settings fingerprint).Safe p id [] g :=
  call_safe hp g

/-- Every state of the queue is good for the discipline of its calls. -/
theorem reachable_good {s : State JobDb JobLock JobError Call ι}
    (hs : Reachable (AdmitsCall settings fingerprint) Passes ⟨[], clock⟩ s) :
    (callDiscipline settings fingerprint).Good s :=
  sound (call_safe_from settings fingerprint) (JobDb.empty_ok clock) hs

/-- **Leases are fenced.**  In every state reached from an empty table by any interleaving of
    the queue transactions with crashes and the passing of time: no token has been reported
    more often than it was handed out, so at most once if the tokens drawn are distinct; a
    job has been reviewed at most three times; and whatever happens next, a succeeded or
    cancelled job stays as it is, a dead-letter job leaves only by its review, and a report
    that is stale when it comes is refused and leaves its job as it was. -/
theorem lease_fencing (settings : JobsSettings) (fingerprint : Fingerprint) (clock : Time)
    {s : State JobDb JobLock JobError Call ι}
    (hs : Reachable (AdmitsCall settings fingerprint) Passes ⟨[], clock⟩ s) :
    (∀ token, ((recorded s.log).map Prod.snd).count token ≤
      ((handed s.log).map Prod.snd).count token) ∧
    (((handed s.log).map Prod.snd).Nodup →
      ∀ token, ((recorded s.log).map Prod.snd).count token ≤ 1) ∧
    (∀ jobId, retryCount jobId s.log ≤ 3) ∧
    ∀ ev s', Step (AdmitsCall settings fingerprint) Passes s ev s' →
      (∀ j ∈ s.db.jobs, ∃ j' ∈ s'.db.jobs, j'.id = j.id ∧
        ((j.status = .succeeded ∨ j.status = .cancelled) → j' = j) ∧
        (j.status = .deadLetter → j' = j ∨
          ∃ c, ev = .commit c ∧ c.request = .reviewRetry j.userId j.id)) ∧
      ∀ c lease r, ev = .commit c → c.request = .finish lease r → ∀ j ∈ s.db.jobs,
        j.id = lease.id → (j.leaseToken ≠ some lease.token ∨ j.expiredAt c.started = true) →
          c.outcome = .finished lease false ∧ j ∈ s'.db.jobs := by
  have hgood := reachable_good hs
  -- counted over the commits: reports against leases, and reviews
  have hfenced : LeasesFenced s.db s.log := by
    refine commit_induction (call_safe_from settings fingerprint) (JobDb.empty_ok clock)
      (by simp [LeasesFenced, recorded, handed, JobDb.carries]) ?_ ?_ hs
    · rintro _ c g g' log - - ⟨⟨φ, new, hc⟩, -⟩ hlog
      exact hc.leasesFenced hlog
    · rintro g g' log - ⟨hjobs, -⟩ hlog x
      rw [show g'.carries x = g.carries x by rw [JobDb.carries, JobDb.carries, hjobs]]
      exact hlog x
  have hreviews : RetriesCounted s.db s.log := by
    refine commit_induction (call_safe_from settings fingerprint) (JobDb.empty_ok clock)
      ⟨by simp, by simp [retryCount]⟩ ?_ ?_ hs
    · rintro _ c g g' log - hg' ⟨⟨φ, new, hc⟩, hdid⟩ hlog
      exact hdid.retriesCounted hg' hc hlog
    · rintro g g' log - ⟨hjobs, -⟩ hlog
      simpa only [RetriesCounted, hjobs] using hlog
  have htokens := count_map_snd_le fun x => (Nat.le_add_right _ _).trans (hfenced x)
  refine ⟨htokens, fun hnodup token => (htokens token).trans ?_, fun jobId => ?_, ?_⟩
  · exact List.nodup_iff_count_le_one.1 hnodup token
  · by_cases hjob : ∃ j ∈ s.db.jobs, j.id = jobId
    · obtain ⟨j, hj, rfl⟩ := hjob
      exact (hreviews.1 j hj).trans (hgood.inv.rows j hj).reviewRetries_le
    · rw [hreviews.2 jobId fun j hj hid => hjob ⟨j, hj, hid⟩]
      exact Nat.zero_le _
  · intro ev s' hstep
    -- only a commit moves the rows
    by_cases hcommit : ∃ c, ev = .commit c
    · obtain ⟨c, rfl⟩ := hcommit
      obtain ⟨⟨_, ⟨φ, new, hc⟩, hdid⟩, -⟩ := hgood.commit_post hstep
      constructor
      · intro j hj
        obtain ⟨j', hj', hid, hterm, hdead⟩ := hdid.moves hgood.inv hc hj
        exact ⟨j', hj', hid, hterm, fun hs => (hdead hs).imp_right fun hr => ⟨c, rfl, hr⟩⟩
      · rintro _ lease r ⟨⟩ hr j hj hid hstale
        exact hdid.stale_finish hgood.inv hc hr hj hid hstale
    · have hjobs : s'.db.jobs = s.db.jobs := by
        cases hstep with
        | commit i c w h hi => exact absurd ⟨c, rfl⟩ hcommit
        | env g he => exact he.1
        | _ => rfl
      constructor
      · intro j hj
        exact ⟨j, hjobs ▸ hj, rfl, fun _ => rfl, fun _ => .inl rfl⟩
      · exact fun c lease r hev => absurd ⟨c, hev⟩ hcommit

/-- The note is enqueued, leased and reported: one of the runs of `lease_fencing`. -/
theorem lease_fencing_reported :
    ∃ s : State JobDb JobLock JobError Call Unit,
      Reachable (AdmitsCall .default dinnerFingerprint) Passes ⟨[], 0⟩ s ∧
      handed s.log = [(7, 9)] ∧ recorded s.log = [(7, 9)] ∧
      ((recorded s.log).map Prod.snd).count 9 ≤ ((handed s.log).map Prod.snd).count 9 ∧
      retryCount 7 s.log ≤ 3 := by
  let enqueued := (Request.enqueue 7 1 dinnerCommand).call .default dinnerFingerprint
  let claimed := (Request.claim 9 fun _ => ⟨0, by norm_num⟩).call .default dinnerFingerprint
  let reported := (Request.finish ⟨7, 1, 9, some dinnerCommand.payload, 1⟩
    ⟨some ⟨5⟩, none, false, 0⟩).call .default dinnerFingerprint
  let g₁ := enqueued.after ⟨[], 0⟩
  let g₂ := claimed.after g₁
  have hplain : ∀ (p : JobTx Call) (g : JobDb) (x y : Option (Uuid × Uuid)),
      p.returns (fun c => c.outcome.handed == x && c.outcome.recorded == y) g = true →
      ∃ c, p.run g = .ok (c, p.after g) ∧ c.outcome.handed = x ∧ c.outcome.recorded = y := by
    intro p g x y h
    obtain ⟨c, hrun, hc⟩ := Tx.run_of_returns h
    rw [Bool.and_eq_true, beq_iff_eq, beq_iff_eq] at hc
    exact ⟨c, hrun, hc⟩
  obtain ⟨a, hrun₁, ha, ha'⟩ := hplain enqueued ⟨[], 0⟩ none none (by decide +kernel)
  obtain ⟨b, hrun₂, hb, hb'⟩ := hplain claimed g₁ (some (7, 9)) none (by decide +kernel)
  obtain ⟨c, hrun₃, hc, hc'⟩ := hplain reported g₂ none (some (7, 9)) (by decide +kernel)
  have h₁ : Reachable (AdmitsCall .default dinnerFingerprint) Passes ⟨[], 0⟩
      (⟨g₁, [] ++ [a], fun _ => none⟩ : State JobDb JobLock JobError Call Unit) :=
    Reachable.alone () .init ⟨_, rfl⟩ hrun₁
  have h₂ := Reachable.alone () h₁ ⟨_, rfl⟩ hrun₂
  have h₃ := Reachable.alone () h₂ ⟨_, rfl⟩ hrun₃
  obtain ⟨htokens, -, hreviews, -⟩ := lease_fencing _ _ _ h₃
  refine ⟨_, h₃, ?_, ?_, htokens 9, hreviews 7⟩
  · simp [handed, ha, hb, hc]
  · simp [recorded, ha', hb', hc']
end Runs

end Expensea.Jobs
