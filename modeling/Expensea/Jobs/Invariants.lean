import Expensea.Jobs.Discipline

namespace Expensea.Jobs

open Txn Txn.Discipline
open Txn.Tx (reads modify acquire tryAcquire throw each)

/-!
# Durable jobs — the queue keeps its invariant

Each queue transaction is safe under `queueDiscipline`, whatever the others do between
its statements; so every reachable table satisfies `JobDb.Ok`.  Counting the leases in
the results of the commits against the attempts still recorded in the row bounds the
leases a job ever gets.
-/

variable {settings : JobsSettings} {fingerprint : Fingerprint} {h : List JobLock}

/-! ### Using interference -/

namespace Interference

variable {g g' : JobDb} {φ : Job → Job} {new : List Job}

/-- What more locks allow, fewer locks allow. -/
theorem mono {h' : List JobLock} (hsub : ∀ l ∈ h, l ∈ h') (hi : Interference h' g g' φ new) :
    Interference h g g' φ new where
  jobs := hi.jobs
  kept := fun j hj =>
    ⟨(hi.kept j hj).same, fun hl => (hi.kept j hj).locked (hsub _ hl),
      fun hadm => (hi.kept j hj).drains (hsub _ hadm)⟩
  added := fun j hj =>
    ⟨fun hadm => (hi.added j hj).1 (hsub _ hadm), fun hl => (hi.added j hj).2 (hsub _ hl)⟩
  clock := hi.clock

/-- A locked row stays. -/
theorem mem_of_locked (hi : Interference h g g' φ new) {j : Job} (hj : j ∈ g.jobs)
    (hl : .row j.id ∈ h) : j ∈ g'.jobs := by
  rw [hi.jobs, ← (hi.kept j hj).locked hl]
  exact List.mem_append_left _ (List.mem_map_of_mem hj)

/-- A locked row was there before. -/
theorem mem_before_of_locked (hi : Interference h g g' φ new) {j : Job} (hj : j ∈ g'.jobs)
    (hl : .row j.id ∈ h) : j ∈ g.jobs := by
  rw [hi.jobs] at hj
  rcases List.mem_append.1 hj with hj | hj
  · obtain ⟨k, hk, rfl⟩ := List.mem_map.1 hj
    have hkept := hi.kept k hk
    rw [hkept.locked (hkept.same.id ▸ hl)]
    exact hk
  · exact absurd hl (hi.added j hj).2

/-- Under the admission lock no row is added. -/
theorem new_eq_nil (hi : Interference h g g' φ new) (hadm : .admission ∈ h) : new = [] := by
  refine List.eq_nil_iff_forall_not_mem.2 fun j hj => ?_
  exact (hi.added j hj).1 hadm

/-- Under the admission lock a count of rows does not grow, if draining rows does not put
    them into it. -/
theorem countP_le (hi : Interference h g g' φ new) (hadm : .admission ∈ h) {p : Job → Bool}
    (hp : ∀ j j' : Job, j.SameIdentity j' → j.Drains j' → p j' = true → p j = true) :
    g'.jobs.countP p ≤ g.jobs.countP p := by
  rw [hi.jobs, hi.new_eq_nil hadm, List.append_nil, List.countP_map]
  refine List.countP_mono_left fun j hj hpj => ?_
  exact hp j (φ j) (hi.kept j hj).same ((hi.kept j hj).drains hadm) hpj

end Interference

/-- There is room for one more job of this owner. -/
structure HasRoom (settings : JobsSettings) (owner : Uuid) (g : JobDb) : Prop where
  pending : g.pendingCount < settings.maxPending
  owned : g.ownedCount owner < settings.maxPendingPerOwner

theorem Interference.pendingCount_le {g g' : JobDb} {φ : Job → Job} {new : List Job}
    (hi : Interference h g g' φ new) (hadm : .admission ∈ h) :
    g'.pendingCount ≤ g.pendingCount :=
  hi.countP_le hadm fun _ _ _ hd => hd.active

theorem Interference.ownedCount_le {g g' : JobDb} {φ : Job → Job} {new : List Job}
    (hi : Interference h g g' φ new) (hadm : .admission ∈ h) (owner : Uuid) :
    g'.ownedCount owner ≤ g.ownedCount owner := by
  refine hi.countP_le hadm fun j j' hs hd hj => ?_
  rw [Bool.and_eq_true] at hj ⊢
  exact ⟨hd.active hj.1, hs.userId ▸ hj.2⟩

theorem HasRoom.stable {owner : Uuid} {g g' : JobDb} {φ : Job → Job} {new : List Job}
    (hroom : HasRoom settings owner g) (hi : Interference h g g' φ new)
    (hadm : .admission ∈ h) : HasRoom settings owner g' :=
  ⟨(hi.pendingCount_le hadm).trans_lt hroom.pending,
    (hi.ownedCount_le hadm owner).trans_lt hroom.owned⟩

/-! ### Commits -/

section Commits

variable {a : Outcome} {g g' : JobDb} {φ : Job → Job} {new : Option Job}

/-- A commit within the limits keeps the invariant. -/
theorem Committed.ok (hc : Committed settings fingerprint h a g g' φ new) (hg : g.Ok settings)
    (hrun : g'.runningCount ≤ settings.concurrency)
    (hpend : g'.pendingCount ≤ settings.maxPending)
    (hown : ∀ owner, g'.ownedCount owner ≤ settings.maxPendingPerOwner) : g'.Ok settings := by
  have hids : (g.jobs.map φ).map Job.id = g.jobs.map Job.id := by
    rw [List.map_map]
    exact List.map_congr_left fun j hj => (hc.effect j hj).sameIdentity.id
  have hkeys : (g.jobs.map φ).map (fun j => (j.userId, j.idempotencyKey)) =
      g.jobs.map fun j => (j.userId, j.idempotencyKey) := by
    rw [List.map_map]
    refine List.map_congr_left fun j hj => ?_
    have hs := (hc.effect j hj).sameIdentity
    rw [Function.comp_apply, hs.userId, hs.idempotencyKey]
  refine ⟨?_, ?_, ?_, hrun, hpend, hown⟩
  · rw [hc.jobs, List.map_append, hids]
    cases new with
    | none => simpa using hg.ids
    | some j =>
      obtain ⟨-, -, hfresh, -⟩ := hc.added j rfl
      refine List.nodup_append.2 ⟨hg.ids, by simp, ?_⟩
      simp only [Option.toList_some, List.map_cons, List.map_nil, List.mem_singleton]
      rintro _ hk _ rfl
      obtain ⟨k, hmem, rfl⟩ := List.mem_map.1 hk
      exact (hfresh k hmem).1
  · rw [hc.jobs, List.map_append, hkeys]
    cases new with
    | none => simpa using hg.keys
    | some j =>
      obtain ⟨-, -, hfresh, -⟩ := hc.added j rfl
      refine List.nodup_append.2 ⟨hg.keys, by simp, ?_⟩
      simp only [Option.toList_some, List.map_cons, List.map_nil, List.mem_singleton]
      rintro _ hk _ rfl
      obtain ⟨k, hmem, rfl⟩ := List.mem_map.1 hk
      exact (hfresh k hmem).2
  · intro j hj
    rw [hc.jobs] at hj
    rcases List.mem_append.1 hj with hj | hj
    · obtain ⟨k, hk, rfl⟩ := List.mem_map.1 hj
      exact (hc.effect k hk).ok (hg.rows k hk)
    · obtain ⟨-, -, -, command, createdAt, availableAt, hj⟩ := hc.added j (by simpa using hj)
      rw [hj]
      exact command.row_ok fingerprint _ _ createdAt availableAt

/-- A transaction that wrote nothing may commit any outcome that claims nothing. -/
theorem commit_unchanged (a : Outcome) (heff : ∀ c j, a.Effect c j j) (ht : a.target = none)
    (h : List JobLock) (g : JobDb) :
    (queueDiscipline settings fingerprint).Commit a id h g := by
  rintro g' - hg'
  refine ⟨hg', id, none, ?_⟩
  exact ⟨by simp, rfl, fun j _ => heff _ j, fun j _ => .inl rfl, by simp [ht], by simp⟩

/-- A transaction that updated the one row it holds locked: as a commit. -/
private theorem committed_set (fingerprint : Fingerprint) {j : Job} {f : Job → Job} (hg : g.Ok settings) (hj : j ∈ g.jobs)
    (hl : .row j.id ∈ h) (heff : a.Effect g.clock j (f j))
    (hrest : ∀ c k, k.id ≠ j.id → a.Effect c k k) (ht : ∀ id, a.target = some id → j.id = id)
    (hguard : .admission ∈ h ∨ j.Drains (f j)) :
    Committed settings fingerprint h a g (g.set j.id f)
      (fun k => if k.id = j.id then f k else k) none where
  jobs := by simp [JobDb.set, Table.set]
  clock := rfl
  effect := by
    intro k hk
    by_cases hkj : k.id = j.id
    · rw [if_pos hkj, List.inj_on_of_nodup_map hg.ids hk hj hkj]
      exact heff
    · rw [if_neg hkj]
      exact hrest _ k hkj
  locked := by
    intro k hk
    by_cases hkj : k.id = j.id
    · rw [if_pos hkj, List.inj_on_of_nodup_map hg.ids hk hj hkj]
      exact .inr ⟨hl, hguard⟩
    · exact .inl (if_neg hkj)
  target := fun id hid => ⟨j, hj, ht id hid⟩
  added := by simp

/-- Updating one locked row so that it drains. -/
theorem commit_drain {a : Outcome} {j : Job} {f : Job → Job} {h : List JobLock} {g : JobDb}
    (hj : j ∈ g.jobs) (hl : .row j.id ∈ h) (hd : j.Drains (f j))
    (heff : ∀ c, g.clock ≤ c → a.Effect c j (f j))
    (hrest : ∀ c k, k.id ≠ j.id → a.Effect c k k) (ht : ∀ id, a.target = some id → j.id = id) :
    (queueDiscipline settings fingerprint).Commit a (fun g => g.set j.id f) h g := by
  rintro g' ⟨φ, new, hi⟩ hg'
  have hj' : j ∈ g'.jobs := hi.mem_of_locked hj hl
  have hc := committed_set fingerprint hg' hj' hl (heff _ hi.clock) hrest ht
    (.inr hd)
  have hdrain : ∀ p : Job → Bool, (p (f j) = true → p j = true) →
      (g'.set j.id f).jobs.countP p ≤ g'.jobs.countP p := by
    intro p hp
    rw [hc.jobs, Option.toList_none, List.append_nil, List.countP_map]
    refine List.countP_mono_left fun k hk hpk => ?_
    by_cases hkj : k.id = j.id
    · obtain rfl := List.inj_on_of_nodup_map hg'.ids hk hj' hkj
      exact hp (by simpa using hpk)
    · simpa [hkj] using hpk
  refine ⟨hc.ok hg' ?_ ?_ fun owner => ?_, _, _, hc⟩
  · exact (hdrain _ (by simpa using hd.running)).trans hg'.running_le
  · exact (hdrain _ hd.active).trans hg'.pending_le
  · refine (hdrain _ fun hp => ?_).trans (hg'.owned_le owner)
    rw [Bool.and_eq_true] at hp ⊢
    exact ⟨hd.active hp.1, (heff _ le_rfl).sameIdentity.userId ▸ hp.2⟩

/-- Requeueing one locked row while there is room for it. -/
theorem commit_requeue {j : Job} {t : Time} {h : List JobLock} {g : JobDb}
    (hj : j ∈ g.jobs) (hl : .row j.id ∈ h) (hadm : .admission ∈ h)
    (hroom : HasRoom settings j.userId g) (hs : j.status = .deadLetter)
    (hr : j.reviewRetries < 3) :
    (queueDiscipline settings fingerprint).Commit (.view (j.requeue t).view)
      (fun g => g.set j.id (Job.requeue t)) h g := by
  rintro g' ⟨φ, new, hi⟩ hg'
  have hj' : j ∈ g'.jobs := hi.mem_of_locked hj hl
  have hroom' := hroom.stable hi hadm
  have hc := committed_set fingerprint (a := .view (j.requeue t).view) hg' hj' hl
    (.inr ⟨rfl, .inl ⟨t, hs, hr, rfl⟩⟩) (fun _ _ _ => .inl rfl) (by simp [Outcome.target])
    (.inl hadm)
  -- only the requeued row changes, and it is not counted as running
  have hkeep : ∀ p : Job → Bool, p (j.requeue t) = false →
      (g'.set j.id (Job.requeue t)).jobs.countP p ≤ g'.jobs.countP p := by
    intro p hp
    rw [hc.jobs, Option.toList_none, List.append_nil, List.countP_map]
    refine List.countP_mono_left fun k hk hpk => ?_
    by_cases hkj : k.id = j.id
    · obtain rfl := List.inj_on_of_nodup_map hg'.ids hk hj' hkj
      simp [hp] at hpk
    · simpa [hkj] using hpk
  refine ⟨hc.ok hg' ?_ ?_ fun owner => ?_, _, _, hc⟩
  · exact (hkeep _ rfl).trans hg'.running_le
  · exact (Table.countP_set_le hg'.ids).trans hroom'.pending
  · by_cases ho : j.userId = owner
    · subst ho
      exact (Table.countP_set_le hg'.ids).trans hroom'.owned
    · refine (hkeep _ ?_).trans (hg'.owned_le owner)
      simp [Job.requeue, ho]

/-- No row has the identifier or the (owner, idempotency key) pair of `j`. -/
def Fresh (j : Job) (g : JobDb) : Prop :=
  ∀ k ∈ g.jobs, k.id ≠ j.id ∧ (k.userId, k.idempotencyKey) ≠ (j.userId, j.idempotencyKey)

theorem Fresh.stable {j : Job} (hf : Fresh j g) {φ : Job → Job} {new : List Job}
    (hi : Interference h g g' φ new) (hadm : .admission ∈ h) : Fresh j g' := by
  intro k hk
  rw [hi.jobs, hi.new_eq_nil hadm, List.append_nil] at hk
  obtain ⟨k, hmem, rfl⟩ := List.mem_map.1 hk
  have hs := (hi.kept k hmem).same
  rw [hs.id, hs.userId, hs.idempotencyKey]
  exact hf k hmem

/-- Adding the row of a command while there is room for it. -/
theorem commit_insert {v : JobView} {jobId owner : Uuid} {command : EnqueueJob}
    {createdAt availableAt : Time} {h : List JobLock} {g : JobDb}
    (hl : .row jobId ∈ h) (hadm : .admission ∈ h) (hroom : HasRoom settings owner g)
    (hf : Fresh (command.row settings fingerprint jobId owner createdAt availableAt) g) :
    (queueDiscipline settings fingerprint).Commit (.view v)
      (fun g => { g with
        jobs := g.jobs ++ [command.row settings fingerprint jobId owner createdAt availableAt] })
      h g := by
  rintro g' ⟨φ, new, hi⟩ hg'
  have hroom' := hroom.stable hi hadm
  set row := command.row settings fingerprint jobId owner createdAt availableAt with hrow
  have hc : Committed settings fingerprint h (.view v) g' { g' with jobs := g'.jobs ++ [row] }
      id (some row) :=
    { jobs := by simp
      clock := rfl
      effect := fun j _ => .inl rfl
      locked := fun j _ => .inl rfl
      target := by simp [Outcome.target]
      added := by
        rintro j ⟨⟩
        exact ⟨hadm, hl, hf.stable hi hadm, command, createdAt, availableAt, hrow⟩ }
  refine ⟨hc.ok hg' ?_ ?_ fun o => ?_, _, _, hc⟩
  · simpa [JobDb.runningCount, hrow, EnqueueJob.row] using hg'.running_le
  · have := hroom'.pending
    simp only [JobDb.pendingCount, List.countP_append, List.countP_singleton] at this ⊢
    split <;> omega
  · have hbound := hg'.owned_le o
    simp only [JobDb.ownedCount, List.countP_append, List.countP_singleton] at hbound ⊢
    by_cases ho : owner = o
    · subst ho
      have := hroom'.owned
      simp only [JobDb.ownedCount] at this
      split <;> omega
    · have : (row.active && row.userId == o) = false := by simp [hrow, EnqueueJob.row, ho]
      simpa [this] using hbound

end Commits

/-! ### Statements -/

section Statements

variable {w : JobDb → JobDb} {g : JobDb}

/-- `now` returns a time the clock has reached. -/
theorem wp_now {Q : Time → (JobDb → JobDb) → List JobLock → JobDb → Prop}
    (hw : ∀ g, (w g).clock = g.clock)
    (hQ : ∀ g' φ new, Interference h g g' φ new → g'.Ok settings → Q g'.clock w h g') :
    (queueDiscipline settings fingerprint).wp now Q w h g := by
  rintro g' ⟨φ, new, hi⟩ hg'
  simpa [wp, hw] using hQ g' φ new hi hg'

/-- A locked read of one row: `none`, or a row under its lock that satisfies `p`. -/
theorem wp_selectForUpdate {p : Job → Bool}
    {Q : Option Job → (JobDb → JobDb) → List JobLock → JobDb → Prop}
    (hnone : ∀ h' g', (∀ l ∈ h, l ∈ h') → Q none id h' g')
    (hsome : ∀ j g' φ new, Interference h g g' φ new → g'.Ok settings → j ∈ g'.jobs →
      p j = true → Q (some j) id (.row j.id :: h) g') :
    (queueDiscipline settings fingerprint).wp (selectForUpdate p) Q id h g := by
  refine (wp_bind _ _ _ _ _ _ _).2 ?_
  rintro g₁ ⟨φ₁, new₁, hi₁⟩ hg₁
  cases hfound : g₁.jobs.find? p with
  | none =>
    simp only [wp, id_eq, hfound]
    exact hnone h g₁ fun l hl => hl
  | some j =>
    simp only [wp, id_eq, hfound]
    rintro g₂ ⟨φ₂, new₂, hi₂⟩ - g₃ ⟨φ₃, new₃, hi₃⟩ hg₃
    have hi := (hi₁.trans hi₂).trans (hi₃.mono fun l hl => List.mem_cons_of_mem _ hl)
    cases hrow : (g₃.get j.id).filter p with
    | none => simpa [wp, hrow] using hnone _ g₃ fun l hl => List.mem_cons_of_mem _ hl
    | some k =>
      obtain ⟨hget, hpk⟩ := Option.filter_eq_some_iff.1 hrow
      have hid : k.id = j.id := Table.key_of_get hget
      have hk := hsome k g₃ _ _ hi hg₃ (Table.mem_of_get hget) hpk
      rw [hid] at hk
      simpa [wp, hrow] using hk

/-- The capacity check: it fails, or there is room. -/
theorem wp_checkCapacity {owner : Uuid}
    {Q : Unit → (JobDb → JobDb) → List JobLock → JobDb → Prop} (hadm : .admission ∈ h)
    (hQ : ∀ g' φ new, Interference h g g' φ new → g'.Ok settings → HasRoom settings owner g' →
      Q () id h g') :
    (queueDiscipline settings fingerprint).wp (checkCapacity settings owner) Q id h g := by
  refine (wp_bind _ _ _ _ _ _ _).2 ?_
  rintro g₁ ⟨φ₁, new₁, hi₁⟩ -
  refine (wp_bind _ _ _ _ _ _ _).2 ?_
  rintro g₂ ⟨φ₂, new₂, hi₂⟩ hg₂
  show (queueDiscipline settings fingerprint).wp (ite _ _ _) Q id h g₂
  simp only [id_eq]
  split
  · trivial
  · split
    · trivial
    · rename_i hpend hown
      refine hQ g₂ _ _ (hi₁.trans hi₂) hg₂ ⟨?_, by omega⟩
      exact (hi₂.pendingCount_le hadm).trans_lt (by omega)

/-- The insert: it fails, or the row is new. -/
theorem wp_insertJob {j : Job} {Q : Unit → (JobDb → JobDb) → List JobLock → JobDb → Prop}
    (hadm : .admission ∈ h)
    (hQ : ∀ g' φ new, Interference h g g' φ new → g'.Ok settings → Fresh j g' →
      Q () (fun g => { g with jobs := g.jobs ++ [j] }) (.row j.id :: h) g') :
    (queueDiscipline settings fingerprint).wp (insertJob j) Q id h g := by
  refine (wp_bind _ _ _ _ _ _ _).2 ?_
  rintro g₁ ⟨φ₁, new₁, hi₁⟩ -
  refine (wp_bind _ _ _ _ _ _ _).2 ?_
  rintro g₂ ⟨φ₂, new₂, hi₂⟩ -
  show (queueDiscipline settings fingerprint).wp (ite _ _ _) Q id _ g₂
  simp only [id_eq]
  split
  · trivial
  · rename_i hclash
    have hf : Fresh j g₂ := by
      intro k hk
      simp only [List.any_eq_true, not_exists, not_and, Bool.or_eq_true, Bool.and_eq_true,
        beq_iff_eq, not_or] at hclash
      obtain ⟨hid, hkey⟩ := hclash k hk
      exact ⟨hid, fun heq => hkey (Prod.mk.inj heq).1 (Prod.mk.inj heq).2⟩
    rintro g₃ ⟨φ₃, new₃, hi₃⟩ hg₃
    have hsub : ∀ l ∈ h, l ∈ JobLock.row j.id :: h := fun l hl => List.mem_cons_of_mem _ hl
    exact hQ g₃ _ _ ((hi₁.trans (hi₂.mono hsub)).trans (hi₃.mono hsub)) hg₃
      (hf.stable hi₃ (hsub _ hadm))

end Statements



/-! ### Enqueue, finish, review and cancel -/

theorem enqueue_safe (jobId owner : Uuid) (command : EnqueueJob) (g : JobDb) :
    (queueDiscipline settings fingerprint).wp
      (enqueue settings fingerprint jobId owner command)
      (fun v => (queueDiscipline settings fingerprint).Commit (.view v)) id [] g := by
  refine (wp_bind _ _ _ _ _ _ _).2 (wp_now (fun _ => rfl) fun g₁ _ _ _ _ => ?_)
  refine (wp_bind _ _ _ _ _ _ _).2 fun g₂ _ _ => ?_
  refine (wp_bind _ _ _ _ _ _ _).2 ((wp_reads _ _ _ _ _ _).2 fun g₃ _ _ => ?_)
  split
  · split
    · trivial
    · exact commit_unchanged (.view _) (fun _ _ => .inl rfl) rfl _ _
  · refine (wp_bind _ _ _ _ _ _ _).2 (wp_checkCapacity (by simp) fun g₄ _ _ _ _ hroom => ?_)
    refine (wp_bind _ _ _ _ _ _ _).2 (wp_now (fun _ => rfl) fun g₅ _ _ hi₅ _ => ?_)
    refine (wp_bind _ _ _ _ _ _ _).2 (wp_insertJob (by simp) fun g₆ _ _ hi₆ _ hf => ?_)
    exact commit_insert (by simp [EnqueueJob.row]) (by simp)
      ((hroom.stable hi₅ (by simp)).stable hi₆ (by simp)) hf

theorem finish_safe (lease : Lease) (r : FinishRequest) (g : JobDb) :
    (queueDiscipline settings fingerprint).wp (finish lease r)
      (fun b => (queueDiscipline settings fingerprint).Commit (.finished lease b)) id [] g := by
  refine (wp_bind _ _ _ _ _ _ _).2 (wp_now (fun _ => rfl) fun g₁ _ _ _ _ => ?_)
  refine (wp_bind _ _ _ _ _ _ _).2 (wp_selectForUpdate (fun h' g' _ => ?_) ?_)
  · exact commit_unchanged (.finished lease false) (fun _ _ => rfl) rfl _ _
  · rintro j g₂ φ₂ new₂ hi₂ - hj howns g₃ ⟨φ₃, new₃, hi₃⟩ -
    have hid : j.id = lease.id := by
      simp only [Lease.owns, Bool.and_eq_true, beq_iff_eq] at howns
      exact howns.1.1.1.1.1
    refine commit_drain (hi₃.mem_of_locked hj (by simp)) (by simp)
      (Job.finish_drains (Lease.owns_running howns)) (fun c hc => ?_) (fun c k hk => ?_) ?_
    · rw [Outcome.Effect, if_pos hid]
      exact ⟨g₁.clock, r, hi₂.clock.trans (hi₃.clock.trans hc), howns, rfl⟩
    · rw [Outcome.Effect, if_neg (hid ▸ hk)]
    · simp [Outcome.target, hid]

theorem reviewRetry_safe (owner jobId : Uuid) (g : JobDb) :
    (queueDiscipline settings fingerprint).wp (reviewRetry settings owner jobId)
      (fun v => (queueDiscipline settings fingerprint).Commit (.view v)) id [] g := by
  refine (wp_bind _ _ _ _ _ _ _).2 fun g₁ _ _ => ?_
  refine (wp_bind _ _ _ _ _ _ _).2 (wp_selectForUpdate (fun _ _ _ => trivial) ?_)
  intro j g₂ φ₂ new₂ _ _ hj hp
  show (queueDiscipline settings fingerprint).wp (ite _ _ _) _ id _ g₂
  split
  · trivial
  · rename_i hretryable
    simp only [not_or, ne_eq, not_not, not_le] at hretryable
    have howner : j.userId = owner := by simp_all
    refine (wp_bind _ _ _ _ _ _ _).2
      (wp_checkCapacity (by simp) fun g₃ _ _ hi₃ _ hroom => ?_)
    refine (wp_bind _ _ _ _ _ _ _).2 (wp_now (fun _ => rfl) fun g₄ _ _ hi₄ _ => ?_)
    rintro g₅ ⟨_, _, hi₅⟩ -
    have hi := (hi₃.trans hi₄).trans hi₅
    exact commit_requeue (hi.mem_of_locked hj (by simp)) (by simp) (by simp)
      (howner ▸ (hroom.stable hi₄ (by simp)).stable hi₅ (by simp)) hretryable.1 hretryable.2

theorem cancel_safe (owner jobId : Uuid) (g : JobDb) :
    (queueDiscipline settings fingerprint).wp (cancel owner jobId)
      (fun v => (queueDiscipline settings fingerprint).Commit (.view v)) id [] g := by
  refine (wp_bind _ _ _ _ _ _ _).2 (wp_selectForUpdate (fun _ _ _ => trivial) ?_)
  intro j g₁ φ₁ new₁ _ _ hj hp
  show (queueDiscipline settings fingerprint).wp (ite _ _ _) _ id _ g₁
  split
  · exact commit_unchanged (.view j.view) (fun _ _ => .inl rfl) rfl _ _
  · split
    · trivial
    · rename_i hcancellable
      have hs : j.status = .queued ∨ j.status = .retryWait := by
        by_contra hne
        exact hcancellable (not_or.1 hne)
      refine (wp_bind _ _ _ _ _ _ _).2 (wp_now (fun _ => rfl) fun g₂ _ _ hi₂ _ => ?_)
      rintro g₃ ⟨_, _, hi₃⟩ -
      refine commit_drain ((hi₂.trans hi₃).mem_of_locked hj (by simp)) (by simp)
        Job.cancel_drains (fun c _ => .inr ⟨rfl, .inr ⟨_, hs, rfl⟩⟩) (fun _ _ _ => .inl rfl)
        (by simp [Outcome.target])

/-! ### Claim -/

/-- `claim` between its statements: it holds the admission lock, and its writes so far
    recover expired leases of rows it holds locked. -/
structure Recovering (t : Time) (φ : Job → Job) (w : JobDb → JobDb) (h : List JobLock)
    (g : JobDb) : Prop where
  admission : .admission ∈ h
  started : t ≤ g.clock
  writes : ∀ g, w g = { g with jobs := g.jobs.map φ }
  unlocked : ∀ j : Job, .row j.id ∉ h → φ j = j
  recovered : ∀ j ∈ g.jobs, Recovered g.clock j (φ j)

theorem Job.expiredAt_mono {j : Job} {t t' : Time} (ht : t ≤ t') (he : j.expiredAt t = true) :
    j.expiredAt t' = true := by
  unfold Job.expiredAt at he ⊢
  split at he
  · simp only [decide_eq_true_eq] at he ⊢
    exact he.trans ht
  · simp at he

theorem Recovered.mono {c c' : Time} (hc : c ≤ c') {j j' : Job} (h : Recovered c j j') :
    Recovered c' j j' := by
  cases h with
  | same => exact .same
  | dead t hs he ha => exact .dead t hs (Job.expiredAt_mono hc he) ha
  | retry d k hs he ha => exact .retry d k hs (Job.expiredAt_mono hc he) ha

theorem Recovered.id_eq {c : Time} {j j' : Job} (h : Recovered c j j') : j'.id = j.id := by
  cases h <;> rfl

/-- A recovered row is not running unless recovery left it alone. -/
theorem Recovered.eq_of_running {c : Time} {j j' : Job} (h : Recovered c j j')
    (hs : j'.status = .running) : j' = j := by
  cases h with
  | same => rfl
  | dead => simp [Job.expireDead] at hs
  | retry => simp [Job.expireRetry] at hs

/-- Recovery does not make a row active. -/
theorem Recovered.drains {c : Time} {j j' : Job} (h : Recovered c j j') : j.Drains j' := by
  cases h with
  | same => exact .refl j
  | dead => exact ⟨by simp [Job.expireDead], by simp [Job.expireDead, Job.active, ACTIVE]⟩
  | retry d k hs =>
    exact ⟨by simp [Job.expireRetry], fun _ => Job.active_iff.2 (.inr (.inl hs))⟩

namespace Recovering

variable {t : Time} {φ : Job → Job} {w : JobDb → JobDb} {g g' : JobDb}

theorem stable (hr : Recovering t φ w h g) {ψ : Job → Job} {new : List Job}
    (hi : Interference h g g' ψ new) : Recovering t φ w h g' where
  admission := hr.admission
  started := hr.started.trans hi.clock
  writes := hr.writes
  unlocked := hr.unlocked
  recovered := by
    intro j hj
    by_cases hl : .row j.id ∈ h
    · exact (hr.recovered j (hi.mem_before_of_locked hj hl)).mono hi.clock
    · rw [hr.unlocked j hl]
      exact .same

theorem lock (hr : Recovering t φ w h g) (l : JobLock) : Recovering t φ w (l :: h) g where
  admission := List.mem_cons_of_mem _ hr.admission
  started := hr.started
  writes := hr.writes
  unlocked := fun j hj => hr.unlocked j fun hl => hj (List.mem_cons_of_mem _ hl)
  recovered := hr.recovered

theorem clock_eq (hr : Recovering t φ w h g) (g : JobDb) : (w g).clock = g.clock := by
  rw [hr.writes]

/-- A row read under the writes so far is a row of the table, perhaps recovered. -/
theorem get_eq_some (hr : Recovering t φ w h g) {jobId : Uuid} {j : Job}
    (hget : (w g).get jobId = some j) : ∃ k ∈ g.jobs, j = φ k ∧ k.id = jobId := by
  have hmem := Table.mem_of_get hget
  rw [hr.writes] at hmem
  obtain ⟨k, hk, rfl⟩ := List.mem_map.1 hmem
  exact ⟨k, hk, rfl, (hr.recovered k hk).id_eq ▸ Table.key_of_get hget⟩

/-- Interference under the claim's locks adds no running row. -/
theorem runningCount_le (hr : Recovering t φ w h g) {ψ : Job → Job} {new : List Job}
    (hi : Interference h g g' ψ new) : (w g').runningCount ≤ (w g).runningCount := by
  rw [hr.writes, hr.writes, JobDb.runningCount, JobDb.runningCount]
  simp only [hi.jobs, hi.new_eq_nil hr.admission, List.append_nil, List.map_map,
    List.countP_map]
  refine List.countP_mono_left fun j hj hrun => ?_
  obtain ⟨hsame, hlocked, hdrains⟩ := hi.kept j hj
  simp only [Function.comp_apply, beq_iff_eq] at hrun ⊢
  by_cases hl : .row j.id ∈ h
  · rwa [hlocked hl] at hrun
  · rw [hr.unlocked (ψ j) (hsame.id ▸ hl)] at hrun
    rw [hr.unlocked j hl]
    exact (hdrains hr.admission).running hrun

/-- The rows keep their identifiers. -/
theorem ids_eq (hr : Recovering t φ w h g) : (w g).jobs.map Job.id = g.jobs.map Job.id := by
  rw [hr.writes, List.map_map]
  exact List.map_congr_left fun j hj => (hr.recovered j hj).id_eq

/-- Recovery alone puts no row into a count. -/
theorem countP_le (hr : Recovering t φ w h g) {p : Job → Bool}
    (hp : ∀ j j' : Job, j.SameIdentity j' → j.Drains j' → p j' = true → p j = true) :
    (w g).jobs.countP p ≤ g.jobs.countP p := by
  rw [hr.writes, List.countP_map]
  refine List.countP_mono_left fun j hj hpj => ?_
  have hrec := hr.recovered j hj
  exact hp j (φ j) (Outcome.Effect.sameIdentity (a := .claimed none) hrec) hrec.drains hpj

theorem committed (settings : JobsSettings) (fingerprint : Fingerprint)
    (hr : Recovering t φ w h g) :
    Committed settings fingerprint h (.claimed none) g (w g) φ none where
  jobs := by simp [hr.writes]
  clock := hr.clock_eq g
  effect := hr.recovered
  locked := by
    intro j _
    by_cases hl : .row j.id ∈ h
    · exact .inr ⟨hl, .inl hr.admission⟩
    · exact .inl (hr.unlocked j hl)
  target := by simp [Outcome.target]
  added := by simp

/-- Committing after recovery alone. -/
theorem commit (hr : Recovering t φ w h g) :
    (queueDiscipline settings fingerprint).Commit (.claimed none) w h g := by
  rintro g' ⟨_, _, hi⟩ hg'
  have hr' := hr.stable hi
  have hc := hr'.committed settings fingerprint
  refine ⟨hc.ok hg' ?_ ?_ fun owner => ?_, _, _, hc⟩
  · refine (hr'.countP_le fun j j' _ hd hj => ?_).trans hg'.running_le
    simpa using hd.running (by simpa using hj)
  · exact (hr'.countP_le fun j j' _ hd => hd.active).trans hg'.pending_le
  · refine (hr'.countP_le fun j j' hs hd hj => ?_).trans (hg'.owned_le owner)
    rw [Bool.and_eq_true] at hj ⊢
    exact ⟨hd.active hj.1, hs.userId ▸ hj.2⟩

/-- Committing after recovery and handing out a row under its lock, while fewer than
    `concurrency` rows are running. -/
theorem commit_lease (hr : Recovering t φ w h g)
    (hroom : (w g).runningCount < settings.concurrency) {k : Job} (hk : k ∈ g.jobs)
    (hl : .row k.id ∈ h) (hready : (φ k).ready t = true) (token : Uuid) (expires : Time) :
    (queueDiscipline settings fingerprint).Commit (.claimed (some ((φ k).leaseFor token)))
      ((fun g => g.set (φ k).id (Job.lease token expires)) ∘ w) h g := by
  rintro g' ⟨_, _, hi⟩ hg'
  have hk' : k ∈ g'.jobs := hi.mem_of_locked hk hl
  have hrun := (hr.runningCount_le hi).trans_lt hroom
  replace hr := hr.stable hi
  have hid : (φ k).id = k.id := (hr.recovered k hk').id_eq
  simp only [Job.ready, Bool.and_eq_true, Bool.or_eq_true, beq_iff_eq,
    decide_eq_true_eq] at hready
  obtain ⟨⟨hstatus, -⟩, hatt⟩ := hready
  have hwrites : (((fun g : JobDb => g.set (φ k).id (Job.lease token expires)) ∘ w) g').jobs =
      g'.jobs.map fun j => if j.id = k.id then (φ j).lease token expires else φ j := by
    simp only [Function.comp_apply, hr.writes, JobDb.set, Table.set, List.map_map]
    refine List.map_congr_left fun j hj => ?_
    rw [Function.comp_apply, (hr.recovered j hj).id_eq, hid]
  have hc : Committed settings fingerprint h (.claimed (some ((φ k).leaseFor token))) g'
      (((fun g : JobDb => g.set (φ k).id (Job.lease token expires)) ∘ w) g')
      (fun j => if j.id = k.id then (φ j).lease token expires else φ j) none :=
    { jobs := by rw [hwrites]; simp
      clock := hr.clock_eq g'
      effect := by
        intro j hj
        rw [Outcome.Effect, show ((φ k).leaseFor token).id = k.id from hid]
        by_cases hjk : j.id = k.id
        · obtain rfl := List.inj_on_of_nodup_map hg'.ids hj hk' hjk
          rw [if_pos rfl, if_pos rfl]
          exact ⟨_, expires, hr.recovered j hj, hstatus, hatt, rfl, rfl⟩
        · rw [if_neg hjk, if_neg hjk]
          exact hr.recovered j hj
      locked := by
        intro j hj
        by_cases hjl : .row j.id ∈ h
        · exact .inr ⟨hjl, .inl hr.admission⟩
        · have hne : j.id ≠ k.id := fun he => hjl (he ▸ hl)
          rw [if_neg hne]
          exact .inl (hr.unlocked j hjl)
      target := by
        rintro _ ⟨⟩
        exact ⟨k, hk', hid.symm⟩
      added := by simp }
  -- an active row is leased, so the admission counts do not grow
  have hactive : ∀ j ∈ g'.jobs,
      (if j.id = k.id then (φ j).lease token expires else φ j).active = true →
        j.active = true := by
    intro j hj hact
    by_cases hjk : j.id = k.id
    · obtain rfl := List.inj_on_of_nodup_map hg'.ids hj hk' hjk
      refine (hr.recovered j hj).drains.active (Job.active_iff.2 ?_)
      exact hstatus.imp_right .inr
    · rw [if_neg hjk] at hact
      exact (hr.recovered j hj).drains.active hact
  refine ⟨hc.ok hg' ?_ ?_ fun owner => ?_, _, _, hc⟩
  · refine (Table.countP_set_le ?_).trans hrun
    rw [hr.ids_eq]
    exact hg'.ids
  · rw [JobDb.pendingCount, hwrites, List.countP_map]
    exact (List.countP_mono_left hactive).trans hg'.pending_le
  · rw [JobDb.ownedCount, hwrites, List.countP_map]
    refine (List.countP_mono_left fun j hj hpj => ?_).trans (hg'.owned_le owner)
    simp only [Function.comp_apply, Bool.and_eq_true] at hpj ⊢
    exact ⟨hactive j hj hpj.1, (hc.effect j hj).sameIdentity.userId ▸ hpj.2⟩

/-- One more row recovered. -/
theorem set (hr : Recovering t φ w h g) (hg : g.Ok settings) {k : Job} (hk : k ∈ g.jobs)
    (hl : .row k.id ∈ h) (heq : φ k = k) {f : Job → Job} (hf : Recovered g.clock k (f k)) :
    Recovering t (fun j => if (φ j).id = k.id then f (φ j) else φ j)
      ((fun g => g.set k.id f) ∘ w) h g where
  admission := hr.admission
  started := hr.started
  writes := by
    intro g
    simp [hr.writes, JobDb.set, Table.set, Function.comp_def]
  unlocked := by
    intro j hj
    have hne : j.id ≠ k.id := fun he => hj (he ▸ hl)
    rw [hr.unlocked j hj, if_neg hne]
  recovered := by
    intro j hj
    by_cases hjk : (φ j).id = k.id
    · have hid : j.id = k.id := (hr.recovered j hj).id_eq ▸ hjk
      obtain rfl := List.inj_on_of_nodup_map hg.ids hj hk hid
      rw [if_pos hjk, heq]
      exact hf
    · rw [if_neg hjk]
      exact hr.recovered j hj

end Recovering

section Recover

variable {t : Time} {p : Job → Bool} {f : Time → Job → Job} {w : JobDb → JobDb} {g : JobDb}

/-- Updating one row that `p` finds expired keeps `claim` recovering. -/
theorem wp_updateRow (hf : ∀ c j clock, t ≤ c → p j = true → Recovered c j (f clock j))
    (hrun : ∀ j, p j = true → j.status = .running) (jobId : Uuid)
    (hr : ∃ φ, Recovering t φ w h g) :
    (queueDiscipline settings fingerprint).wp (updateRow p f jobId)
      (fun _ w h g => ∃ φ, Recovering t φ w h g) w h g := by
  obtain ⟨φ, hr⟩ := hr
  refine (wp_bind _ _ _ _ _ _ _).2 ((wp_acquire _ _ _ _ _ _).2 ?_)
  rintro g₁ ⟨_, _, hi₁⟩ -
  have hr₁ := (hr.stable hi₁).lock (.row jobId)
  refine (wp_bind _ _ _ _ _ _ _).2 ((wp_reads _ _ _ _ _ _).2 ?_)
  rintro g₂ ⟨_, _, hi₂⟩ -
  have hr₂ := hr₁.stable hi₂
  refine (wp_bind _ _ _ _ _ _ _).2 (wp_now hr₂.clock_eq fun g₃ _ _ hi₃ _ => ?_)
  have hr₃ := hr₂.stable hi₃
  split
  · rename_i j hrow
    obtain ⟨hget, hpj⟩ := Option.filter_eq_some_iff.1 hrow
    obtain ⟨k, hk, hjk, rfl⟩ := hr₂.get_eq_some hget
    -- the row satisfies `p`, so it is running and recovery has not touched it
    have heq : φ k = k := (hr₂.recovered k hk).eq_of_running (hjk ▸ hrun j hpj)
    rintro g₄ ⟨_, _, hi₄⟩ hg₄
    have hk₄ : k ∈ g₄.jobs := (hi₃.trans hi₄).mem_of_locked hk (by simp)
    have hpk : p k = true := by rw [← heq, ← hjk]; exact hpj
    exact ⟨_, (hr₃.stable hi₄).set hg₄ hk₄ (by simp) heq
      (hf _ _ _ (hr₃.stable hi₄).started hpk)⟩
  · exact ⟨φ, hr₃⟩

/-- An update of the rows that `p` finds expired keeps `claim` recovering. -/
theorem wp_updateWhere (hf : ∀ c j clock, t ≤ c → p j = true → Recovered c j (f clock j))
    (hrun : ∀ j, p j = true → j.status = .running) (hr : ∃ φ, Recovering t φ w h g) :
    (queueDiscipline settings fingerprint).wp (updateWhere p f)
      (fun _ w h g => ∃ φ, Recovering t φ w h g) w h g := by
  obtain ⟨φ, hr⟩ := hr
  refine (wp_bind _ _ _ _ _ _ _).2 ((wp_reads _ _ _ _ _ _).2 ?_)
  rintro g₁ ⟨_, _, hi₁⟩ -
  exact wp_each _ _ _ (fun jobId _ _ _ hr => wp_updateRow hf hrun jobId hr) _ _ _ _
    ⟨φ, hr.stable hi₁⟩

end Recover

/-- `claim` may still hand out a row: it is recovering and there is a free slot. -/
def MayLease (settings : JobsSettings) (t : Time) (φ : Job → Job) (w : JobDb → JobDb)
    (h : List JobLock) (g : JobDb) : Prop :=
  Recovering t φ w h g ∧ (w g).runningCount < settings.concurrency

theorem MayLease.stable {t : Time} {φ ψ : Job → Job} {w : JobDb → JobDb} {g g' : JobDb}
    {new : List Job} (hm : MayLease settings t φ w h g) (hi : Interference h g g' ψ new) :
    MayLease settings t φ w h g' :=
  ⟨hm.1.stable hi, (hm.1.runningCount_le hi).trans_lt hm.2⟩

/-- The row found by `SKIP LOCKED`, if any, is locked and satisfies the condition. -/
theorem wp_firstUnlocked {t : Time} {φ : Job → Job} {p : Job → Bool} (ids : List Uuid) :
    ∀ (w : JobDb → JobDb) (h : List JobLock) (g : JobDb), MayLease settings t φ w h g →
      (queueDiscipline settings fingerprint).wp (firstUnlocked p ids)
        (fun row w h g => MayLease settings t φ w h g ∧ ∀ j, row = some j →
          ∃ k ∈ g.jobs, j = φ k ∧ .row k.id ∈ h ∧ p j = true) w h g := by
  induction ids with
  | nil => exact fun w h g hm => ⟨hm, by simp⟩
  | cons jobId ids ih =>
    intro w h g hm
    refine (wp_bind _ _ _ _ _ _ _).2 ((wp_tryAcquire _ _ _ _ _ _).2 ?_)
    rintro g₁ ⟨_, _, hi₁⟩ -
    have hm₁ := hm.stable hi₁
    refine ⟨?_, ih w h g₁ hm₁⟩
    refine (wp_bind _ _ _ _ _ _ _).2 ((wp_reads _ _ _ _ _ _).2 ?_)
    rintro g₂ ⟨_, _, hi₂⟩ -
    have hm₂ := MayLease.stable ⟨hm₁.1.lock (.row jobId), hm₁.2⟩ hi₂
    split
    · rename_i j hrow
      obtain ⟨hget, hpj⟩ := Option.filter_eq_some_iff.1 hrow
      obtain ⟨k, hk, hjk, rfl⟩ := hm₂.1.get_eq_some hget
      refine ⟨hm₂, ?_⟩
      rintro _ ⟨⟩
      exact ⟨k, hk, hjk, by simp, hpj⟩
    · exact ih w _ g₂ hm₂

theorem claim_safe (token : Uuid) (jitter : Uuid → Jitter) (g : JobDb) :
    (queueDiscipline settings fingerprint).wp (claim settings token jitter)
      (fun lease => (queueDiscipline settings fingerprint).Commit (.claimed lease)) id [] g := by
  refine (wp_bind _ _ _ _ _ _ _).2 fun g₁ _ _ => ?_
  refine (wp_bind _ _ _ _ _ _ _).2 (wp_now (fun _ => rfl) fun g₂ _ _ _ _ => ?_)
  have hstart : ∃ φ, Recovering g₂.clock φ id [.admission] g₂ :=
    ⟨id, by simp, le_rfl, by simp, fun _ _ => rfl, fun _ _ => .same⟩
  refine (wp_bind _ _ _ _ _ _ _).2 (wp_mono _ ?_ _ _ _ _
    (wp_updateWhere (fun c j _ hc hp => ?_) (fun j hp => ?_) hstart))
  rotate_left
  · simp only [Bool.and_eq_true, beq_iff_eq, decide_eq_true_eq] at hp
    exact .dead _ hp.1.1 (Job.expiredAt_mono hc hp.1.2) hp.2
  · simp only [Bool.and_eq_true, beq_iff_eq] at hp
    exact hp.1.1
  intro _ w₃ h₃ g₃ hr₃
  refine (wp_bind _ _ _ _ _ _ _).2 (wp_mono _ ?_ _ _ _ _
    (wp_updateWhere (fun c j _ hc hp => ?_) (fun j hp => ?_) hr₃))
  rotate_left
  · simp only [Bool.and_eq_true, beq_iff_eq, decide_eq_true_eq] at hp
    exact .retry _ _ hp.1.1 (Job.expiredAt_mono hc hp.1.2) hp.2
  · simp only [Bool.and_eq_true, beq_iff_eq] at hp
    exact hp.1.1
  rintro _ w₄ h₄ g₄ ⟨φ, hr₄⟩
  refine (wp_bind _ _ _ _ _ _ _).2 ((wp_reads _ _ _ _ _ _).2 ?_)
  rintro g₅ ⟨_, _, hi₅⟩ -
  have hr₅ := hr₄.stable hi₅
  split
  · exact hr₅.commit
  rename_i hfree
  refine (wp_bind _ _ _ _ _ _ _).2 ((wp_bind _ _ _ _ _ _ _).2 ((wp_reads _ _ _ _ _ _).2 ?_))
  rintro g₆ ⟨_, _, hi₆⟩ -
  refine wp_mono _ ?_ _ _ _ _
    (wp_firstUnlocked _ _ _ _ (MayLease.stable ⟨hr₅, not_le.1 hfree⟩ hi₆))
  rintro row w h g ⟨hm, hrow⟩
  cases row with
  | none => exact hm.1.commit
  | some j =>
    obtain ⟨k, hk, rfl, hl, hready⟩ := hrow j rfl
    rintro g₇ ⟨_, _, hi₇⟩ -
    have hm₇ := hm.stable hi₇
    exact hm₇.1.commit_lease hm₇.2 (hi₇.mem_of_locked hk hl) hl hready _ _

/-! ### Every run -/

/-- The transactions a session may open: any request, with any identifiers and any
    lease, whatever was returned before. -/
def Admits (settings : JobsSettings) (fingerprint : Fingerprint) (_ : List Outcome)
    (p : JobTx Outcome) : Prop :=
  ∃ r : Request, p = r.program settings fingerprint

theorem request_safe {log : List Outcome} {p : JobTx Outcome}
    (hp : Admits settings fingerprint log p) (g : JobDb) :
    (queueDiscipline settings fingerprint).Safe p id [] g := by
  obtain ⟨r, rfl⟩ := hp
  cases r with
  | enqueue jobId owner command =>
    exact (wp_bind _ _ _ _ _ _ _).2 (enqueue_safe jobId owner command g)
  | claim token jitter => exact (wp_bind _ _ _ _ _ _ _).2 (claim_safe token jitter g)
  | finish lease r => exact (wp_bind _ _ _ _ _ _ _).2 (finish_safe lease r g)
  | reviewRetry owner jobId =>
    exact (wp_bind _ _ _ _ _ _ _).2 (reviewRetry_safe owner jobId g)
  | cancel owner jobId => exact (wp_bind _ _ _ _ _ _ _).2 (cancel_safe owner jobId g)

/-- The empty table satisfies the invariant. -/
theorem JobDb.empty_ok (clock : Time) : JobDb.Ok settings ⟨[], clock⟩ := by
  constructor <;> simp [JobDb.runningCount, JobDb.pendingCount, JobDb.ownedCount]

/-- The outcome hands out a lease for this job. -/
def Outcome.leases (jobId : Uuid) : Outcome → Bool
  | .claimed (some l) => l.id == jobId
  | _ => false

/-- The number of leases handed out for a job. -/
def leaseCount (jobId : Uuid) (log : List Outcome) : Nat := log.countP (Outcome.leases jobId)

/-- Leases handed out so far: a job has used up the attempts of its past reviews and
    those recorded in its row. -/
def LeasesCounted (g : JobDb) (log : List Outcome) : Prop :=
  (∀ j ∈ g.jobs, leaseCount j.id log ≤ j.reviewRetries * j.maxAttempts + j.attempts) ∧
    ∀ jobId, (∀ j ∈ g.jobs, j.id ≠ jobId) → leaseCount jobId log = 0

theorem leaseCount_append (jobId : Uuid) (log : List Outcome) (a : Outcome) :
    leaseCount jobId (log ++ [a]) =
      leaseCount jobId log + if a.leases jobId then 1 else 0 := by
  simp only [leaseCount, List.countP_append, List.countP_singleton]

theorem Outcome.target_of_leases {a : Outcome} {jobId : Uuid} (h : a.leases jobId = true) :
    a.target = some jobId := by
  match a, h with
  | .claimed (some l), h => simpa [Outcome.leases, Outcome.target] using h

theorem Job.finish_attempts (t : Time) (r : FinishRequest) (j : Job) :
    (j.finish t r).attempts = j.attempts ∧ (j.finish t r).reviewRetries = j.reviewRetries := by
  simp only [Job.finish]
  split
  · exact ⟨rfl, rfl⟩
  · split <;> exact ⟨rfl, rfl⟩

/-- What a row gains in used attempts covers the lease it is handed out under. -/
theorem Outcome.Effect.attempts {c : Time} {a : Outcome} {j j' : Job} (h : a.Effect c j j')
    (hj : j.Ok settings) :
    j.reviewRetries * j.maxAttempts + j.attempts + (if a.leases j.id then 1 else 0) ≤
      j'.reviewRetries * j'.maxAttempts + j'.attempts := by
  have hrecovered : ∀ {m : Job}, Recovered c j m → m.reviewRetries = j.reviewRetries ∧
      m.maxAttempts = j.maxAttempts ∧ m.attempts = j.attempts := by
    intro m hm
    cases hm <;> exact ⟨rfl, rfl, rfl⟩
  match a, h with
  | .claimed none, h =>
    obtain ⟨h₁, h₂, h₃⟩ := hrecovered h
    simp [Outcome.leases, h₁, h₂, h₃]
  | .claimed (some l), h =>
    simp only [Outcome.Effect] at h
    split at h
    · rename_i hid
      obtain ⟨m, expires, hm, -, -, -, rfl⟩ := h
      obtain ⟨h₁, h₂, h₃⟩ := hrecovered hm
      simp [Outcome.leases, hid, Job.lease, h₁, h₂, h₃, Nat.add_assoc]
    · rename_i hid
      obtain ⟨h₁, h₂, h₃⟩ := hrecovered h
      simp [Outcome.leases, Ne.symm hid, h₁, h₂, h₃]
  | .finished l true, h =>
    simp only [Outcome.Effect] at h
    split at h
    · obtain ⟨t, r, -, -, rfl⟩ := h
      obtain ⟨h₁, h₂⟩ := j.finish_attempts t r
      simp [Outcome.leases, h₁, h₂, (j.finish_sameIdentity t r).maxAttempts]
    · simp [Outcome.leases, h]
  | .finished l false, h =>
    obtain rfl : j' = j := h
    simp [Outcome.leases]
  | .view v, h =>
    rcases h with rfl | ⟨-, ⟨t, hs, hr, rfl⟩ | ⟨t, hs, rfl⟩⟩
    · simp [Outcome.leases]
    · have := hj.attempts_le
      simp only [Outcome.leases, Job.requeue, Nat.succ_mul]
      simp
      omega
    · simp [Outcome.leases, Job.cancel]

/-- A commit keeps the leases counted. -/
theorem Committed.leasesCounted {a : Outcome} {g g' : JobDb} {φ : Job → Job}
    {new : Option Job} (hc : Committed settings fingerprint h a g g' φ new)
    (hg : g.Ok settings) {log : List Outcome} (hlog : LeasesCounted g log) :
    LeasesCounted g' (log ++ [a]) := by
  constructor
  · intro j hj
    rw [hc.jobs] at hj
    rcases List.mem_append.1 hj with hj | hj
    · obtain ⟨k, hk, rfl⟩ := List.mem_map.1 hj
      have heff := hc.effect k hk
      have hbefore := hlog.1 k hk
      have hgain := heff.attempts (hg.rows k hk)
      rw [heff.sameIdentity.id, leaseCount_append]
      omega
    · -- a new row has had no lease: no earlier row has its identifier
      obtain ⟨-, -, hfresh, -⟩ := hc.added j (by simpa using hj)
      rw [leaseCount_append, hlog.2 j.id fun k hk => (hfresh k hk).1]
      split
      · rename_i hleases
        obtain ⟨k, hk, hid⟩ := hc.target _ (Outcome.target_of_leases hleases)
        exact absurd hid (hfresh k hk).1
      · exact Nat.zero_le _
  · intro jobId hno
    have hno' : ∀ j ∈ g.jobs, j.id ≠ jobId := by
      intro j hj
      rw [← (hc.effect j hj).sameIdentity.id]
      exact hno _ (hc.jobs ▸ List.mem_append_left _ (List.mem_map_of_mem hj))
    rw [leaseCount_append, hlog.2 jobId hno']
    split
    · rename_i hleases
      obtain ⟨j, hj, hid⟩ := hc.target _ (Outcome.target_of_leases hleases)
      exact absurd hid (hno' j hj)
    · rfl

/-- **The queue keeps its invariant.**  In every state reached from an empty table by any
    interleaving of the queue transactions with crashes and the passing of time, the
    table satisfies `JobDb.Ok`, and no job has been leased more than `4 * maxAttempts`
    times. -/
theorem queue_invariants {ι : Type} [DecidableEq ι] (settings : JobsSettings)
    (fingerprint : Fingerprint) (clock : Time)
    {s : State JobDb JobLock JobError Outcome ι}
    (hs : Reachable (Admits settings fingerprint) Passes ⟨[], clock⟩ s) :
    s.db.Ok settings ∧ ∀ j ∈ s.db.jobs, leaseCount j.id s.log ≤ 4 * j.maxAttempts := by
  have hprog : ∀ log p g, Admits settings fingerprint log p →
      (queueDiscipline settings fingerprint).inv g →
      (queueDiscipline settings fingerprint).Safe p id [] g :=
    fun log p g hp _ => request_safe hp g
  have hok : s.db.Ok settings := (sound hprog (JobDb.empty_ok clock) hs).inv
  refine ⟨hok, fun j hj => ?_⟩
  have hcount : LeasesCounted s.db s.log := by
    refine commit_induction hprog (JobDb.empty_ok clock) ⟨by simp, by simp [leaseCount]⟩
      ?_ ?_ hs
    · rintro _ a g g' log hg - ⟨φ, new, hc⟩ hlog
      exact hc.leasesCounted hg hlog
    · rintro g g' log - ⟨hjobs, -⟩ hlog
      simpa only [LeasesCounted, hjobs] using hlog
  have hrow := hok.rows j hj
  calc leaseCount j.id s.log
      ≤ j.reviewRetries * j.maxAttempts + j.attempts := hcount.1 j hj
    _ ≤ 3 * j.maxAttempts + j.maxAttempts :=
        Nat.add_le_add (Nat.mul_le_mul_right _ hrow.reviewRetries_le) hrow.attempts_le
    _ = 4 * j.maxAttempts := by omega

/-- The command for a note about dinner. -/
def dinnerCommand : EnqueueJob :=
  ⟨.financialNoteExtract, 3, ⟨py "dinner 30 EUR", py "2026-01-01T12:00:00Z", []⟩⟩

/-- The SHA-256 digest of that command. -/
def dinnerFingerprint : Fingerprint := fun _ =>
  "f2b240f0f852e6effb9ec6837f4ebdd2e3eb7bb7efec8160dd16455a3462d251"

/-- The note is enqueued and leased once: one of the runs of `queue_invariants`. -/
theorem queue_invariants_enqueue_claim :
    ∃ s : State JobDb JobLock JobError Outcome Unit,
      Reachable (Admits .default dinnerFingerprint) Passes ⟨[], 0⟩ s ∧
      s.db.runningCount = 1 ∧ leaseCount 7 s.log = 1 ∧ s.db.Ok .default ∧
      ∀ j ∈ s.db.jobs, leaseCount j.id s.log ≤ 4 * j.maxAttempts := by
  obtain ⟨a, g, hrun, b, g', hrun', hone, hlease⟩ : ∃ a g,
      ((Request.enqueue 7 1 dinnerCommand).program .default dinnerFingerprint).run ⟨[], 0⟩ = .ok (a, g) ∧
      ∃ b g', ((Request.claim 9 fun _ => ⟨0, by norm_num⟩).program .default dinnerFingerprint).run g = .ok (b, g') ∧
      g'.runningCount = 1 ∧ leaseCount 7 ([] ++ [a] ++ [b]) = 1 :=
    ⟨_, _, rfl, _, _, rfl, rfl, rfl⟩
  have h₁ : Reachable (Admits .default dinnerFingerprint) Passes ⟨[], 0⟩
      (⟨g, [] ++ [a], fun _ => none⟩ : State JobDb JobLock JobError Outcome Unit) :=
    Reachable.alone () .init ⟨_, rfl⟩ hrun
  have h₂ := Reachable.alone () h₁ ⟨_, rfl⟩ hrun'
  exact ⟨_, h₂, hone, hlease, queue_invariants _ _ _ h₂⟩

end Expensea.Jobs
