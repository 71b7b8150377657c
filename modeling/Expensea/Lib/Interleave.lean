import Expensea.Lib.Txn
import Mathlib.Logic.Relation

namespace Txn

/-!
# Interleaved transactions and a rely/guarantee rule

Any number of sessions run `Tx` programs against one committed store, one
statement at a time, in any order (READ COMMITTED): a statement sees the store as
committed when it executes, under the session's own writes; locks are exclusive
and held to the end; a commit publishes the session's writes; a failure or a
crash at any point drops them.

* `Step` — one step of the system, labelled with what happened;
* `Discipline` — an invariant of the committed store, what a commit may do to it
  (`post`), and what a session holding given locks may rely on (`rely`);
* `wp` — the weakest precondition of a program under a discipline, stable under
  every interference the held locks allow;
* `Discipline.sound` — if every admitted program is `Safe`, the invariant holds of
  every reachable store and every commit satisfies `post`;
* `Discipline.Follows.wpe` — what is established of one session where it opens holds of
  it until it ends, errors included.
-/

variable {G L ε α β ι : Type}

/-- An open transaction: what is left of its program, its private writes and the
    locks it holds. -/
structure Session (G L ε α : Type) where
  prog : Tx G L ε α
  pending : G → G
  held : List L

/-- The committed store, the values returned by the commits so far (oldest first),
    and the open transactions. -/
structure State (G L ε α ι : Type) where
  db : G
  log : List α
  sessions : ι → Option (Session G L ε α)

namespace State

/-- Some session other than `i` holds the lock `l`. -/
def HeldByOther (s : State G L ε α ι) (i : ι) (l : L) : Prop :=
  ∃ j t, j ≠ i ∧ s.sessions j = some t ∧ l ∈ t.held

variable [DecidableEq ι]

/-- Replace the session `i`. -/
def setSession (s : State G L ε α ι) (i : ι) (t : Option (Session G L ε α)) :
    State G L ε α ι :=
  { s with sessions := Function.update s.sessions i t }

@[simp] theorem setSession_db (s : State G L ε α ι) (i : ι) (t : Option (Session G L ε α)) :
    (s.setSession i t).db = s.db := rfl

@[simp] theorem setSession_log (s : State G L ε α ι) (i : ι) (t : Option (Session G L ε α)) :
    (s.setSession i t).log = s.log := rfl

@[simp] theorem setSession_sessions (s : State G L ε α ι) (i : ι)
    (t : Option (Session G L ε α)) :
    (s.setSession i t).sessions = Function.update s.sessions i t := rfl

end State

/-- What a step did to the committed store. -/
inductive Event (ε α : Type) where
  /-- A session opened, executed a statement, or was lost before it ended. -/
  | silent
  /-- A session committed with this result. -/
  | commit (a : α)
  /-- A session rolled back with this error. -/
  | rollback (e : ε)
  /-- The environment acted (for example, time passed). -/
  | environment

/-- One step of the system.  `allowed` says which programs a session may open with
    (it may look at the results returned so far); `env` is what may happen to the
    store by itself. -/
inductive Step [DecidableEq ι] (allowed : List α → Tx G L ε α → Prop) (env : G → G → Prop) :
    State G L ε α ι → Event ε α → State G L ε α ι → Prop
  | begin {s : State G L ε α ι} (i : ι) (p : Tx G L ε α) :
      s.sessions i = none → allowed s.log p →
      Step allowed env s .silent (s.setSession i (some ⟨p, id, []⟩))
  | read {s : State G L ε α ι} (i : ι) (k : G → Tx G L ε α) (w : G → G) (h : List L) :
      s.sessions i = some ⟨.read k, w, h⟩ →
      Step allowed env s .silent (s.setSession i (some ⟨k (w s.db), w, h⟩))
  | write {s : State G L ε α ι} (i : ι) (u : G → G) (k : Tx G L ε α) (w : G → G) (h : List L) :
      s.sessions i = some ⟨.write u k, w, h⟩ →
      Step allowed env s .silent (s.setSession i (some ⟨k, u ∘ w, h⟩))
  | lock {s : State G L ε α ι} (i : ι) (l : L) (k : Tx G L ε α) (w : G → G) (h : List L) :
      s.sessions i = some ⟨.lock l k, w, h⟩ → ¬ s.HeldByOther i l →
      Step allowed env s .silent (s.setSession i (some ⟨k, w, l :: h⟩))
  | locked {s : State G L ε α ι} (i : ι) (l : L) (k : Bool → Tx G L ε α) (w : G → G)
      (h : List L) :
      s.sessions i = some ⟨.tryLock l k, w, h⟩ → ¬ s.HeldByOther i l →
      Step allowed env s .silent (s.setSession i (some ⟨k true, w, l :: h⟩))
  | skipped {s : State G L ε α ι} (i : ι) (l : L) (k : Bool → Tx G L ε α) (w : G → G)
      (h : List L) :
      s.sessions i = some ⟨.tryLock l k, w, h⟩ → s.HeldByOther i l →
      Step allowed env s .silent (s.setSession i (some ⟨k false, w, h⟩))
  | commit {s : State G L ε α ι} (i : ι) (a : α) (w : G → G) (h : List L) :
      s.sessions i = some ⟨.pure a, w, h⟩ →
      Step allowed env s (.commit a)
        { s.setSession i none with db := w s.db, log := s.log ++ [a] }
  | rollback {s : State G L ε α ι} (i : ι) (e : ε) (w : G → G) (h : List L) :
      s.sessions i = some ⟨.fail e, w, h⟩ →
      Step allowed env s (.rollback e) (s.setSession i none)
  | crash {s : State G L ε α ι} (i : ι) :
      Step allowed env s .silent (s.setSession i none)
  | env {s : State G L ε α ι} (g : G) :
      env s.db g → Step allowed env s .environment { s with db := g }

/-- The states reachable from a store with no open transaction. -/
inductive Reachable [DecidableEq ι] (allowed : List α → Tx G L ε α → Prop) (env : G → G → Prop)
    (g₀ : G) : State G L ε α ι → Prop
  | init : Reachable allowed env g₀ ⟨g₀, [], fun _ => none⟩
  | step {s s' : State G L ε α ι} {ev : Event ε α} :
      Reachable allowed env g₀ s → Step allowed env s ev s' → Reachable allowed env g₀ s'

/-- The states reachable by steps that all satisfy a condition. -/
inductive ReachableBy [DecidableEq ι] (allowed : List α → Tx G L ε α → Prop) (env : G → G → Prop)
    (condition : State G L ε α ι → Event ε α → Prop) (g₀ : G) : State G L ε α ι → Prop
  | init : ReachableBy allowed env condition g₀ ⟨g₀, [], fun _ => none⟩
  | step {s s' : State G L ε α ι} {ev : Event ε α} :
      ReachableBy allowed env condition g₀ s → Step allowed env s ev s' → condition s ev →
      ReachableBy allowed env condition g₀ s'

theorem ReachableBy.reachable [DecidableEq ι] {allowed : List α → Tx G L ε α → Prop}
    {env : G → G → Prop} {condition : State G L ε α ι → Event ε α → Prop} {g₀ : G}
    {s : State G L ε α ι} (hs : ReachableBy allowed env condition g₀ s) :
    Reachable allowed env g₀ s := by
  induction hs with
  | init => exact .init
  | step _ hstep _ ih => exact ih.step hstep

theorem Reachable.unconditional [DecidableEq ι] {allowed : List α → Tx G L ε α → Prop}
    {env : G → G → Prop} {g₀ : G} {s : State G L ε α ι} (hs : Reachable allowed env g₀ s) :
    ReachableBy allowed env (fun _ _ => True) g₀ s := by
  induction hs with
  | init => exact .init
  | step _ hstep ih => exact ih.step hstep trivial

/-- A failed operation, a crash and every statement before the commit leave the
    committed store as it was. -/
theorem Step.db_eq [DecidableEq ι] {allowed : List α → Tx G L ε α → Prop} {env : G → G → Prop}
    {s s' : State G L ε α ι} {ev : Event ε α} (hstep : Step allowed env s ev s')
    (hc : ∀ a, ev ≠ .commit a) (he : ev ≠ .environment) : s'.db = s.db := by
  cases hstep with
  | commit i a w h hs => exact absurd rfl (hc a)
  | env g hg => exact absurd rfl he
  | _ => rfl

section Alone

variable [DecidableEq ι] {allowed : List α → Tx G L ε α → Prop} {env : G → G → Prop}
  {condition : State G L ε α ι → Event ε α → Prop} {g₀ g g' : G} {log : List α}
  {sessions : ι → Option (Session G L ε α)}

/-- A session whose program runs to a result finishes as `Tx.run` does, beside sessions
    that hold no locks: each statement sees the store under the session's own writes, and
    every lock is free. -/
theorem ReachableBy.finish (i : ι)
    (hfree : ∀ j t, j ≠ i → sessions j = some t → t.held = [])
    (hsilent : ∀ s, condition s .silent) (p : Tx G L ε α) :
    ∀ (w : G → G) (h : List L) {a : α} {g' : G}, p.run (w g) = .ok (a, g') →
      (∀ s : State G L ε α ι, s.db = g → condition s (.commit a)) →
      ReachableBy allowed env condition g₀
        ⟨g, log, Function.update sessions i (some ⟨p, w, h⟩)⟩ →
      ReachableBy allowed env condition g₀
        ⟨g', log ++ [a], Function.update sessions i none⟩ := by
  have hlocks : ∀ (t : Session G L ε α) (l : L),
      ¬ (⟨g, log, Function.update sessions i (some t)⟩ : State G L ε α ι).HeldByOther i l := by
    rintro t l ⟨j, u, hj, hu, hl⟩
    dsimp only at hu
    rw [Function.update_of_ne hj] at hu
    rw [hfree j u hj hu] at hl
    cases hl
  induction p with
  | pure a =>
    intro w h a' g' hrun hcond hr
    obtain ⟨rfl, rfl⟩ : a = a' ∧ w g = g' := by simpa [Tx.run] using hrun
    have := hr.step (.commit i a w h (by simp)) (hcond _ rfl)
    simpa [State.setSession] using this
  | fail e => intro w h a g' hrun; simp [Tx.run] at hrun
  | read k ih =>
    intro w h a g' hrun hcond hr
    refine ih (w g) w h hrun hcond ?_
    simpa [State.setSession] using hr.step (.read i k w h (by simp)) (hsilent _)
  | write u k ih =>
    intro w h a g' hrun hcond hr
    refine ih (u ∘ w) h hrun hcond ?_
    simpa [State.setSession] using hr.step (.write i u k w h (by simp)) (hsilent _)
  | lock l k ih =>
    intro w h a g' hrun hcond hr
    refine ih w (l :: h) hrun hcond ?_
    simpa [State.setSession] using hr.step (.lock i l k w h (by simp) (hlocks _ l)) (hsilent _)
  | tryLock l k ih =>
    intro w h a g' hrun hcond hr
    refine ih true w (l :: h) hrun hcond ?_
    simpa [State.setSession] using hr.step (.locked i l k w h (by simp) (hlocks _ l)) (hsilent _)

/-- Running a program beside sessions that hold no locks, where its commit meets the
    condition. -/
theorem ReachableBy.beside {a : α} (i : ι) {p : Tx G L ε α} (hi : sessions i = none)
    (hfree : ∀ j t, sessions j = some t → t.held = []) (hsilent : ∀ s, condition s .silent)
    (hs : ReachableBy allowed env condition g₀ ⟨g, log, sessions⟩) (hp : allowed log p)
    (hrun : p.run g = .ok (a, g'))
    (hcond : ∀ s : State G L ε α ι, s.db = g → condition s (.commit a)) :
    ReachableBy allowed env condition g₀ ⟨g', log ++ [a], sessions⟩ := by
  have h := ReachableBy.finish i (fun j t _ => hfree j t) hsilent p id [] hrun hcond
    (hs.step (.begin i p hi hp) (hsilent _))
  rwa [← hi, Function.update_eq_self] at h

/-- Finishing where every step is admitted. -/
theorem Reachable.finish {a : α} (i : ι)
    (hfree : ∀ j t, j ≠ i → sessions j = some t → t.held = []) {p : Tx G L ε α} {w : G → G}
    {h : List L} (hrun : p.run (w g) = .ok (a, g'))
    (hs : Reachable allowed env g₀ (⟨g, log, Function.update sessions i (some ⟨p, w, h⟩)⟩ :
      State G L ε α ι)) :
    Reachable allowed env g₀ (⟨g', log ++ [a], Function.update sessions i none⟩ :
      State G L ε α ι) :=
  (hs.unconditional.finish i hfree (fun _ => trivial) p w h hrun fun _ _ => trivial).reachable

/-- Running a program beside sessions that hold no locks. -/
theorem Reachable.beside {a : α} (i : ι) {p : Tx G L ε α} (hi : sessions i = none)
    (hfree : ∀ j t, sessions j = some t → t.held = [])
    (hs : Reachable allowed env g₀ (⟨g, log, sessions⟩ : State G L ε α ι))
    (hp : allowed log p) (hrun : p.run g = .ok (a, g')) :
    Reachable allowed env g₀ (⟨g', log ++ [a], sessions⟩ : State G L ε α ι) :=
  (hs.unconditional.beside i hi hfree (fun _ => trivial) hp hrun fun _ _ => trivial).reachable

end Alone

/-- Results are never taken back. -/
theorem Step.mem_log [DecidableEq ι] {allowed : List α → Tx G L ε α → Prop} {env : G → G → Prop}
    {s s' : State G L ε α ι} {ev : Event ε α} (hstep : Step allowed env s ev s') {a : α}
    (ha : a ∈ s.log) : a ∈ s'.log := by
  cases hstep with
  | commit i b w h hs => exact List.mem_append_left _ ha
  | _ => exact ha

/-- Where fewer programs may open, a step is a step of the wider system. -/
theorem Step.mono [DecidableEq ι] {allowed allowed' : List α → Tx G L ε α → Prop}
    {env : G → G → Prop} {s s' : State G L ε α ι} {ev : Event ε α}
    (hsub : ∀ p, allowed s.log p → allowed' s.log p) (hstep : Step allowed env s ev s') :
    Step allowed' env s ev s' := by
  cases hstep with
  | begin i p hn hp => exact .begin i p hn (hsub p hp)
  | read i k w h hs => exact .read i k w h hs
  | write i u k w h hs => exact .write i u k w h hs
  | lock i l k w h hs hfree => exact .lock i l k w h hs hfree
  | locked i l k w h hs hfree => exact .locked i l k w h hs hfree
  | skipped i l k w h hs hheld => exact .skipped i l k w h hs hheld
  | commit i a w h hs => exact .commit i a w h hs
  | rollback i e w h hs => exact .rollback i e w h hs
  | crash i => exact .crash i
  | env g hg => exact .env g hg

/-- Where more results only admit more programs, the programs of a run are admitted by the
    results of the whole run. -/
theorem Reachable.admitted [DecidableEq ι] {allowed : List α → Tx G L ε α → Prop}
    {env : G → G → Prop} {g₀ : G} {s : State G L ε α ι}
    (hmono : ∀ log log' p, (∀ a ∈ log, a ∈ log') → allowed log p → allowed log' p)
    (hs : Reachable allowed env g₀ s) : Reachable (fun _ => allowed s.log) env g₀ s := by
  have hrun : ∀ log, (∀ a ∈ s.log, a ∈ log) → Reachable (fun _ => allowed log) env g₀ s := by
    intro log hlog
    induction hs with
    | init => exact .init
    | step _ hstep ih =>
      have hearlier := fun a ha => hlog a (hstep.mem_log ha)
      exact (ih hearlier).step (hstep.mono fun p hp => hmono _ log p hearlier hp)
  exact hrun s.log fun _ ha => ha

/-- What every step keeps holds after an open session, alone, has run to its result. -/
theorem closed_finish [DecidableEq ι] {allowed : List α → Tx G L ε α → Prop} {env : G → G → Prop}
    {P : State G L ε α ι → Prop}
    (hclosed : ∀ s ev s', P s → Step allowed env s ev s' → P s') {g : G} {log : List α} (i : ι)
    (p : Tx G L ε α) : ∀ (w : G → G) (h : List L) {a : α} {g' : G}, p.run (w g) = .ok (a, g') →
      P ⟨g, log, Function.update (fun _ => none) i (some ⟨p, w, h⟩)⟩ →
      P ⟨g', log ++ [a], fun _ => none⟩ := by
  have hlocks : ∀ (t : Session G L ε α) (l : L), ¬ (⟨g, log,
      Function.update (fun _ => none) i (some t)⟩ : State G L ε α ι).HeldByOther i l := by
    rintro t l ⟨j, u, hj, hu, -⟩
    dsimp only at hu
    rw [Function.update_of_ne hj] at hu
    cases hu
  induction p with
  | pure a =>
    intro w h a' g' hrun hP
    obtain ⟨rfl, rfl⟩ : a = a' ∧ w g = g' := by simpa [Tx.run] using hrun
    have := hclosed _ _ _ hP (.commit i a w h (by simp))
    simpa [State.setSession] using this
  | fail e => intro w h a g' hrun; simp [Tx.run] at hrun
  | read k ih =>
    intro w h a g' hrun hP
    refine ih (w g) w h hrun ?_
    simpa [State.setSession] using hclosed _ _ _ hP (.read i k w h (by simp))
  | write u k ih =>
    intro w h a g' hrun hP
    refine ih (u ∘ w) h hrun ?_
    simpa [State.setSession] using hclosed _ _ _ hP (.write i u k w h (by simp))
  | lock l k ih =>
    intro w h a g' hrun hP
    refine ih w (l :: h) hrun ?_
    simpa [State.setSession] using hclosed _ _ _ hP (.lock i l k w h (by simp) (hlocks _ l))
  | tryLock l k ih =>
    intro w h a g' hrun hP
    refine ih true w (l :: h) hrun ?_
    simpa [State.setSession] using hclosed _ _ _ hP (.locked i l k w h (by simp) (hlocks _ l))

/-- A session that has executed its first query. -/
theorem Reachable.opened [DecidableEq ι] {allowed : List α → Tx G L ε α → Prop}
    {env : G → G → Prop} {g₀ g : G} {log : List α} {sessions : ι → Option (Session G L ε α)}
    (i : ι) {f : G → β} {k : β → Tx G L ε α} (hi : sessions i = none)
    (hs : Reachable allowed env g₀ (⟨g, log, sessions⟩ : State G L ε α ι))
    (hp : allowed log (Tx.reads f >>= k)) :
    Reachable allowed env g₀ (⟨g, log, Function.update sessions i (some ⟨k (f g), id, []⟩)⟩ :
      State G L ε α ι) := by
  have hbegun := hs.step (.begin i (Tx.reads f >>= k) hi hp)
  have hread := hbegun.step (.read i (fun g => k (f g)) id [] (Function.update_self _ _ _))
  simpa [State.setSession] using hread

/-- Running a program alone is one of the interleavings. -/
theorem Reachable.alone [DecidableEq ι] {allowed : List α → Tx G L ε α → Prop}
    {env : G → G → Prop} {g₀ g g' : G} {log : List α} {a : α} (i : ι) {p : Tx G L ε α}
    (hs : Reachable allowed env g₀ (⟨g, log, fun _ => none⟩ : State G L ε α ι))
    (hp : allowed log p) (hrun : p.run g = .ok (a, g')) :
    Reachable allowed env g₀ (⟨g', log ++ [a], fun _ => none⟩ : State G L ε α ι) :=
  hs.beside i rfl (fun _ _ h => by cases h) hp hrun

/-- Running a program alone, by what it returns. -/
theorem Reachable.alone_returns [DecidableEq ι] [BEq α] [LawfulBEq α]
    {allowed : List α → Tx G L ε α → Prop} {env : G → G → Prop} {g₀ g : G} {log : List α} {a : α}
    (i : ι) {p : Tx G L ε α}
    (hs : Reachable allowed env g₀ (⟨g, log, fun _ => none⟩ : State G L ε α ι))
    (hp : allowed log p) (h : p.returns (· == a) g = true) :
    Reachable allowed env g₀ (⟨p.after g, log ++ [a], fun _ => none⟩ : State G L ε α ι) := by
  obtain ⟨a', hrun, ha⟩ := Tx.run_of_returns h
  rw [← eq_of_beq ha]
  exact hs.alone i hp hrun

/-- Running a program alone, where a function of what it returns is the result. -/
theorem Reachable.alone_map [DecidableEq ι] [BEq β] [LawfulBEq β]
    {allowed : List α → Tx G L ε α → Prop} {env : G → G → Prop} {g₀ g : G} {log : List α} {b : β}
    (i : ι) {p : Tx G L ε β} {f : β → α}
    (hs : Reachable allowed env g₀ (⟨g, log, fun _ => none⟩ : State G L ε α ι))
    (hp : allowed log (f <$> p)) (h : p.returns (· == b) g = true) :
    Reachable allowed env g₀ (⟨p.after g, log ++ [f b], fun _ => none⟩ : State G L ε α ι) := by
  obtain ⟨b', hrun, hb⟩ := Tx.run_of_returns h
  refine hs.alone i hp ?_
  rw [Tx.run_map, hrun, ← eq_of_beq hb]

/-! ### Disciplines -/

/-- A locking discipline for a store: what is invariant, what a commit under given
    locks does, and what a session may rely on while it holds its locks. -/
structure Discipline (G L ε α : Type) where
  /-- Invariant of the committed store. -/
  inv : G → Prop
  /-- A commit with result `a` by a session holding the locks `h`. -/
  post : List L → α → G → G → Prop
  /-- How the store may change while a session holds the locks `h`. -/
  rely : List L → G → G → Prop
  /-- What may happen to the store by itself. -/
  env : G → G → Prop
  rely_refl : ∀ h g, rely h g g
  rely_trans : ∀ h g g' g'', rely h g g' → rely h g' g'' → rely h g g''
  post_rely : ∀ h h' a g g', inv g → inv g' → (∀ l ∈ h, l ∉ h') → post h a g g' → rely h' g g'
  env_inv : ∀ g g', inv g → env g g' → inv g'
  env_rely : ∀ h g g', inv g → env g g' → rely h g g'

namespace Discipline

variable (D : Discipline G L ε α)

/-- Weakest precondition of a program for a postcondition on its result, its
    private writes, its locks and the committed store.  At every statement the
    store may have moved by anything the held locks allow. -/
def wp : Tx G L ε β → (β → (G → G) → List L → G → Prop) → (G → G) → List L → G → Prop
  | .pure a, Q, w, h, g => Q a w h g
  | .fail _, _, _, _, _ => True
  | .read k, Q, w, h, g =>
      ∀ g', D.rely h g g' → D.inv g' → wp (k (w g')) Q w h g'
  | .write u k, Q, w, h, g =>
      ∀ g', D.rely h g g' → D.inv g' → wp k Q (u ∘ w) h g'
  | .lock l k, Q, w, h, g =>
      ∀ g', D.rely h g g' → D.inv g' → wp k Q w (l :: h) g'
  | .tryLock l k, Q, w, h, g =>
      ∀ g', D.rely h g g' → D.inv g' →
        wp (k true) Q w (l :: h) g' ∧ wp (k false) Q w h g'

/-- The obligation at a commit: the invariant is kept and the change is one that
    `post` describes, whatever the store has become meanwhile. -/
def Commit (a : α) (w : G → G) (h : List L) (g : G) : Prop :=
  ∀ g', D.rely h g g' → D.inv g' → D.inv (w g') ∧ D.post h a g' (w g')

/-- A program is safe at a point if running on from there meets the commit
    obligation. -/
def Safe (p : Tx G L ε α) (w : G → G) (h : List L) (g : G) : Prop :=
  D.wp p D.Commit w h g

/-- A postcondition that survives the interference the held locks allow. -/
def Stable (Q : β → (G → G) → List L → G → Prop) : Prop :=
  ∀ a w h g g', D.rely h g g' → D.inv g' → Q a w h g → Q a w h g'

theorem commit_stable : D.Stable D.Commit := by
  intro a w h g g' hr _ hc g'' hr' hi
  exact hc g'' (D.rely_trans _ _ _ _ hr hr') hi

/-- The weakest precondition is stable when its postcondition is. -/
theorem wp_stable {Q : β → (G → G) → List L → G → Prop} (hQ : D.Stable Q)
    (p : Tx G L ε β) : ∀ w h g g', D.rely h g g' → D.inv g' → D.wp p Q w h g →
      D.wp p Q w h g' := by
  intro w h g g' hr hi hp
  cases p with
  | pure a => exact hQ a w h g g' hr hi hp
  | fail e => trivial
  | read k => exact fun g'' hr' => hp g'' (D.rely_trans _ _ _ _ hr hr')
  | write u k => exact fun g'' hr' => hp g'' (D.rely_trans _ _ _ _ hr hr')
  | lock l k => exact fun g'' hr' => hp g'' (D.rely_trans _ _ _ _ hr hr')
  | tryLock l k => exact fun g'' hr' => hp g'' (D.rely_trans _ _ _ _ hr hr')

/-- Strengthening the postcondition. -/
theorem wp_mono {Q R : β → (G → G) → List L → G → Prop} (hQR : ∀ a w h g, Q a w h g → R a w h g)
    (p : Tx G L ε β) : ∀ w h g, D.wp p Q w h g → D.wp p R w h g := by
  induction p with
  | pure a => exact fun w h g hq => hQR a w h g hq
  | fail e => exact fun _ _ _ _ => trivial
  | read k ih => exact fun w h g hq g' hr hi => ih _ w h g' (hq g' hr hi)
  | write u k ih => exact fun w h g hq g' hr hi => ih _ h g' (hq g' hr hi)
  | lock l k ih => exact fun w h g hq g' hr hi => ih w _ g' (hq g' hr hi)
  | tryLock l k ih =>
    exact fun w h g hq g' hr hi => ⟨ih _ w _ g' (hq g' hr hi).1, ih _ w _ g' (hq g' hr hi).2⟩

/-- Composition: the second program starts where the first left off. -/
theorem wp_bind (p : Tx G L ε β) {γ : Type} (f : β → Tx G L ε γ)
    (Q : γ → (G → G) → List L → G → Prop) : ∀ w h g,
    D.wp (p >>= f) Q w h g ↔ D.wp p (fun a => D.wp (f a) Q) w h g := by
  show ∀ w h g, D.wp (p.bind f) Q w h g ↔ _
  induction p with
  | pure a => exact fun _ _ _ => Iff.rfl
  | fail e => exact fun _ _ _ => Iff.rfl
  | read k ih => exact fun w h g => forall_congr' fun g' => by simp only [ih]
  | write u k ih => exact fun w h g => forall_congr' fun g' => by simp only [ih]
  | lock l k ih => exact fun w h g => forall_congr' fun g' => by simp only [ih]
  | tryLock l k ih => exact fun w h g => forall_congr' fun g' => by simp only [ih]

/-- A function of the result of a program. -/
theorem wp_map (p : Tx G L ε β) {γ : Type} (f : β → γ) (Q : γ → (G → G) → List L → G → Prop)
    (w : G → G) (h : List L) (g : G) :
    D.wp (f <$> p) Q w h g ↔ D.wp p (fun a => Q (f a)) w h g := by
  rw [map_eq_pure_bind]
  exact D.wp_bind p (fun a => pure (f a)) Q w h g

/-- A program goes on from what its first part leaves. -/
theorem wp_seq {p : Tx G L ε β} {γ : Type} {f : β → Tx G L ε γ}
    {R : β → (G → G) → List L → G → Prop} {Q : γ → (G → G) → List L → G → Prop} {w : G → G}
    {h : List L} {g : G} (hp : D.wp p R w h g)
    (hf : ∀ a w h g, R a w h g → D.wp (f a) Q w h g) : D.wp (p >>= f) Q w h g :=
  (D.wp_bind p f Q w h g).2 (D.wp_mono hf p w h g hp)

/-! Statements, one equation each: the interference happens before the statement. -/

theorem wp_pure (a : β) (Q : β → (G → G) → List L → G → Prop) (w : G → G) (h : List L) (g : G) :
    D.wp (Pure.pure a : Tx G L ε β) Q w h g ↔ Q a w h g := Iff.rfl

theorem wp_throw (e : ε) (Q : β → (G → G) → List L → G → Prop) (w : G → G) (h : List L)
    (g : G) : D.wp (Tx.throw e : Tx G L ε β) Q w h g ↔ True := Iff.rfl

theorem wp_reads (f : G → β) (Q : β → (G → G) → List L → G → Prop) (w : G → G) (h : List L)
    (g : G) : D.wp (Tx.reads f : Tx G L ε β) Q w h g ↔
      ∀ g', D.rely h g g' → D.inv g' → Q (f (w g')) w h g' := Iff.rfl

theorem wp_modify (u : G → G) (Q : Unit → (G → G) → List L → G → Prop) (w : G → G)
    (h : List L) (g : G) : D.wp (Tx.modify u : Tx G L ε Unit) Q w h g ↔
      ∀ g', D.rely h g g' → D.inv g' → Q () (u ∘ w) h g' := Iff.rfl

theorem wp_acquire (l : L) (Q : Unit → (G → G) → List L → G → Prop) (w : G → G)
    (h : List L) (g : G) : D.wp (Tx.acquire l : Tx G L ε Unit) Q w h g ↔
      ∀ g', D.rely h g g' → D.inv g' → Q () w (l :: h) g' := Iff.rfl

theorem wp_tryAcquire (l : L) (Q : Bool → (G → G) → List L → G → Prop) (w : G → G)
    (h : List L) (g : G) : D.wp (Tx.tryAcquire l : Tx G L ε Bool) Q w h g ↔
      ∀ g', D.rely h g g' → D.inv g' → Q true w (l :: h) g' ∧ Q false w h g' := Iff.rfl

/-- A read-only program may return anything, at any store the held locks allow. -/
theorem wp_of_readOnly {p : Tx G L ε β} (hp : p.ReadOnly) {Q : β → (G → G) → List L → G → Prop}
    {w : G → G} {h : List L} {g : G} (hi : D.inv g)
    (hQ : ∀ a g', D.rely h g g' → D.inv g' → Q a w h g') : D.wp p Q w h g := by
  induction p generalizing g with
  | pure a => exact hQ a g (D.rely_refl _ _) hi
  | fail e => trivial
  | read k ih =>
    intro g' hr hi'
    refine ih (w g') (hp (w g')) hi' fun a g'' hr' hi'' => ?_
    exact hQ a g'' (D.rely_trans _ _ _ _ hr hr') hi''
  | write u k ih => exact hp.elim
  | lock l k ih => exact hp.elim
  | tryLock l k ih => exact hp.elim

/-- A rule for a loop over a list: an invariant of the remaining work. -/
theorem wp_each (f : β → Tx G L ε Unit) (J : (G → G) → List L → G → Prop)
    (hf : ∀ b w h g, J w h g → D.wp (f b) (fun _ => J) w h g) :
    ∀ (bs : List β) w h g, J w h g → D.wp (Tx.each bs f) (fun _ => J) w h g := by
  intro bs
  induction bs with
  | nil => exact fun _ _ _ hj => hj
  | cons b bs ih =>
    intro w h g hj
    refine (D.wp_bind (f b) (fun _ => Tx.each bs f) _ w h g).2 ?_
    exact D.wp_mono (fun _ w h g hj' => ih w h g hj') _ _ _ _ (hf b w h g hj)

/-- Two postconditions at once. -/
theorem wp_and {Q R : β → (G → G) → List L → G → Prop} (p : Tx G L ε β) : ∀ w h g,
    D.wp p Q w h g → D.wp p R w h g → D.wp p (fun a w h g => Q a w h g ∧ R a w h g) w h g := by
  induction p with
  | pure a => exact fun w h g hq hr => ⟨hq, hr⟩
  | fail e => exact fun _ _ _ _ _ => trivial
  | read k ih =>
    exact fun w h g hq hr g' hrely hi => ih _ w h g' (hq g' hrely hi) (hr g' hrely hi)
  | write u k ih =>
    exact fun w h g hq hr g' hrely hi => ih _ h g' (hq g' hrely hi) (hr g' hrely hi)
  | lock l k ih =>
    exact fun w h g hq hr g' hrely hi => ih w _ g' (hq g' hrely hi) (hr g' hrely hi)
  | tryLock l k ih =>
    intro w h g hq hr g' hrely hi
    obtain ⟨hq₁, hq₂⟩ := hq g' hrely hi
    obtain ⟨hr₁, hr₂⟩ := hr g' hrely hi
    exact ⟨ih true w _ g' hq₁ hr₁, ih false w h g' hq₂ hr₂⟩

/-- What a program returns is part of its postcondition. -/
theorem wp_of_returns {Q : β → Prop} {R : β → (G → G) → List L → G → Prop} {p : Tx G L ε β}
    (hp : p.Returns Q) : ∀ w h g, D.wp p R w h g →
      D.wp p (fun a w h g => Q a ∧ R a w h g) w h g := by
  induction p with
  | pure a => exact fun w h g hr => ⟨hp, hr⟩
  | fail e => exact fun _ _ _ _ => trivial
  | read k ih => exact fun w h g hr g' hrely hi => ih _ (hp (w g')) w h g' (hr g' hrely hi)
  | write u k ih => exact fun w h g hr g' hrely hi => ih hp _ h g' (hr g' hrely hi)
  | lock l k ih => exact fun w h g hr g' hrely hi => ih hp w _ g' (hr g' hrely hi)
  | tryLock l k ih =>
    intro w h g hr g' hrely hi
    obtain ⟨hr₁, hr₂⟩ := hr g' hrely hi
    exact ⟨ih true (hp true) w _ g' hr₁, ih false (hp false) w h g' hr₂⟩

/-- What interference, every write of the program and every further lock keep, the program
    keeps. -/
theorem wp_of_kept {P : (G → G) → Prop} {J : (G → G) → List L → G → Prop}
    (hstable : ∀ w h g g', D.rely h g g' → D.inv g' → J w h g → J w h g')
    (hwrite : ∀ u w h g, P u → J w h g → J (u ∘ w) h g)
    (hlock : ∀ l w h g, J w h g → J w (l :: h) g)
    {p : Tx G L ε β} (hp : p.Writes P) : ∀ w h g, J w h g → D.wp p (fun _ => J) w h g := by
  induction p with
  | pure a => exact fun w h g hj => hj
  | fail e => exact fun _ _ _ _ => trivial
  | read k ih =>
    exact fun w h g hj g' hr hi => ih _ (hp (w g')) w h g' (hstable w h g g' hr hi hj)
  | write u k ih =>
    exact fun w h g hj g' hr hi =>
      ih hp.2 _ h g' (hwrite u w h g' hp.1 (hstable w h g g' hr hi hj))
  | lock l k ih =>
    exact fun w h g hj g' hr hi => ih hp w _ g' (hlock l w h g' (hstable w h g g' hr hi hj))
  | tryLock l k ih =>
    intro w h g hj g' hr hi
    have hj' := hstable w h g g' hr hi hj
    exact ⟨ih true (hp true) w _ g' (hlock l w h g' hj'), ih false (hp false) w h g' hj'⟩

/-- What every write keeps, the writes of a session keep. -/
theorem wp_of_writes {P : (G → G) → Prop} (hcomp : ∀ u w, P u → P w → P (u ∘ w))
    {p : Tx G L ε β} (hp : p.Writes P) : ∀ w h g, P w → D.wp p (fun _ w _ _ => P w) w h g :=
  D.wp_of_kept (fun _ _ _ _ _ _ hj => hj) (fun u w _ _ hu hw => hcomp u w hu hw)
    (fun _ _ _ _ hj => hj) hp

/-- A program that reads nothing writes in a session what it writes alone, whatever the store
    has become at its commit. -/
theorem wp_of_blind (hmono : ∀ l h g g', D.rely (l :: h) g g' → D.rely h g g') {p : Tx G L ε β}
    (hp : p.Blind) : ∀ w h g, D.wp p (fun a w' h' g' =>
      D.rely h g g' ∧ (∀ l ∈ h, l ∈ h') ∧ ∀ g'', p.run (w g'') = .ok (a, w' g'')) w h g := by
  induction p with
  | pure a => exact fun w h g => ⟨D.rely_refl h g, fun _ hl => hl, fun _ => rfl⟩
  | fail e => exact fun _ _ _ => trivial
  | read k ih => exact hp.elim
  | write u k ih =>
    intro w h g g₁ hr _
    refine D.wp_mono ?_ _ _ _ _ (ih hp (u ∘ w) h g₁)
    rintro a w' h' g' ⟨hr', hheld, hrun⟩
    exact ⟨D.rely_trans _ _ _ _ hr hr', hheld, hrun⟩
  | lock l k ih =>
    intro w h g g₁ hr _
    refine D.wp_mono ?_ _ _ _ _ (ih hp w (l :: h) g₁)
    rintro a w' h' g' ⟨hr', hheld, hrun⟩
    exact ⟨D.rely_trans _ _ _ _ hr (hmono l h g₁ g' hr'),
      fun l' hl' => hheld l' (List.mem_cons_of_mem l hl'), hrun⟩
  | tryLock l k ih => exact hp.elim

/-- A discipline that promises more makes every weakest precondition weaker. -/
theorem wp_weaken {γ : Type} {D : Discipline G L ε α} {D' : Discipline G L ε γ}
    (hi : ∀ g, D'.inv g → D.inv g) (hr : ∀ h g g', D'.rely h g g' → D.rely h g g')
    (p : Tx G L ε β) (Q : β → (G → G) → List L → G → Prop) :
    ∀ w h g, D.wp p Q w h g → D'.wp p Q w h g := by
  induction p with
  | pure a => exact fun _ _ _ hq => hq
  | fail e => exact fun _ _ _ _ => trivial
  | read k ih => exact fun w h g hq g' hr' hi' => ih _ w h g' (hq g' (hr h g g' hr') (hi g' hi'))
  | write u k ih => exact fun w h g hq g' hr' hi' => ih _ h g' (hq g' (hr h g g' hr') (hi g' hi'))
  | lock l k ih => exact fun w h g hq g' hr' hi' => ih w _ g' (hq g' (hr h g g' hr') (hi g' hi'))
  | tryLock l k ih =>
    intro w h g hq g' hr' hi'
    obtain ⟨hq₁, hq₂⟩ := hq g' (hr h g g' hr') (hi g' hi')
    exact ⟨ih true w _ g' hq₁, ih false w h g' hq₂⟩

/-- The weakest precondition depends on the invariant and the rely alone. -/
theorem wp_congr {γ : Type} {D : Discipline G L ε α} {D' : Discipline G L ε γ}
    (hi : D.inv = D'.inv) (hr : D.rely = D'.rely) (p : Tx G L ε β)
    (Q : β → (G → G) → List L → G → Prop) : ∀ w h g, D.wp p Q w h g ↔ D'.wp p Q w h g := by
  induction p with
  | pure a => exact fun _ _ _ => Iff.rfl
  | fail e => exact fun _ _ _ => Iff.rfl
  | read k ih => intro w h g; simp only [wp, hi, hr, ih]
  | write u k ih => intro w h g; simp only [wp, hi, hr, ih]
  | lock l k ih => intro w h g; simp only [wp, hi, hr, ih]
  | tryLock l k ih => intro w h g; simp only [wp, hi, hr, ih]

/-! ### Soundness -/

/-- What every reachable state satisfies: the invariant, the safety of each open
    transaction from where it stands, and the exclusion of locks. -/
structure Good (s : State G L ε α ι) : Prop where
  inv : D.inv s.db
  safe : ∀ i t, s.sessions i = some t → D.Safe t.prog t.pending t.held s.db
  excl : ∀ i j t u, i ≠ j → s.sessions i = some t → s.sessions j = some u →
    ∀ l ∈ t.held, l ∉ u.held

variable {D} [DecidableEq ι]

/-- Moving session `i` on without committing keeps the state good. -/
theorem Good.setSession {s : State G L ε α ι} (hg : D.Good s) (i : ι)
    (t : Option (Session G L ε α))
    (hsafe : ∀ u, t = some u → D.Safe u.prog u.pending u.held s.db)
    (hlock : ∀ u, t = some u → ∀ l ∈ u.held, ¬ s.HeldByOther i l) :
    D.Good (s.setSession i t) where
  inv := hg.inv
  safe := by
    intro j u hu
    simp only [State.setSession_sessions, Function.update_apply] at hu
    split at hu
    · exact hsafe u hu
    · exact hg.safe j u hu
  excl := by
    intro j k u v hjk hu hv l hlu hlv
    simp only [State.setSession_sessions, Function.update_apply] at hu hv
    split at hu <;> split at hv
    · rename_i h1 h2; exact hjk (h1.trans h2.symm)
    · rename_i h1 h2; exact hlock u hu l hlu ⟨k, v, h2, hv, hlv⟩
    · rename_i h1 h2; exact hlock v hv l hlv ⟨j, u, h1, hu, hlu⟩
    · exact hg.excl j k u v hjk hu hv l hlu hlv

omit [DecidableEq ι] in
/-- The locks a session already holds are not held by another one. -/
theorem Good.not_heldByOther {s : State G L ε α ι} (hg : D.Good s) {i : ι}
    {t : Session G L ε α} (ht : s.sessions i = some t) {l : L} (hl : l ∈ t.held) :
    ¬ s.HeldByOther i l := by
  rintro ⟨j, u, hj, hu, hlu⟩
  exact hg.excl j i u t hj hu ht l hlu hl

omit [DecidableEq ι] in
/-- The store moves: the other sessions stay safe if they may rely on the move. -/
theorem Good.moveDb {s : State G L ε α ι} (hg : D.Good s) {g : G} (log : List α)
    (hi : D.inv g) (hr : ∀ i t, s.sessions i = some t → D.rely t.held s.db g) :
    D.Good { s with db := g, log := log } where
  inv := hi
  safe := fun i t ht =>
    D.wp_stable D.commit_stable _ _ _ _ _ (hr i t ht) hi (hg.safe i t ht)
  excl := hg.excl

/-- One step keeps a state good, if admitted programs are safe where they start. -/
theorem Good.step {allowed : List α → Tx G L ε α → Prop} {s s' : State G L ε α ι}
    {ev : Event ε α} (hg : D.Good s)
    (hprog : ∀ p, allowed s.log p → D.Safe p id [] s.db)
    (hstep : Step allowed D.env s ev s') : D.Good s' := by
  cases hstep with
  | begin i p hn hp =>
    refine hg.setSession i _ ?_ ?_
    · rintro u ⟨⟩; exact hprog p hp
    · rintro u ⟨⟩ l hl; simp at hl
  | read i k w h hs =>
    refine hg.setSession i _ ?_ ?_
    · rintro u ⟨⟩; exact hg.safe i _ hs _ (D.rely_refl _ _) hg.inv
    · rintro u ⟨⟩ l hl; exact hg.not_heldByOther hs hl
  | write i u k w h hs =>
    refine hg.setSession i _ ?_ ?_
    · rintro v ⟨⟩; exact hg.safe i _ hs _ (D.rely_refl _ _) hg.inv
    · rintro v ⟨⟩ l hl; exact hg.not_heldByOther hs hl
  | lock i l k w h hs hfree =>
    refine hg.setSession i _ ?_ ?_
    · rintro v ⟨⟩; exact hg.safe i _ hs _ (D.rely_refl _ _) hg.inv
    · rintro v ⟨⟩ l' hl'
      rcases List.mem_cons.1 hl' with rfl | hl'
      · exact hfree
      · exact hg.not_heldByOther hs hl'
  | locked i l k w h hs hfree =>
    refine hg.setSession i _ ?_ ?_
    · rintro v ⟨⟩; exact (hg.safe i _ hs _ (D.rely_refl _ _) hg.inv).1
    · rintro v ⟨⟩ l' hl'
      rcases List.mem_cons.1 hl' with rfl | hl'
      · exact hfree
      · exact hg.not_heldByOther hs hl'
  | skipped i l k w h hs hheld =>
    refine hg.setSession i _ ?_ ?_
    · rintro v ⟨⟩; exact (hg.safe i _ hs _ (D.rely_refl _ _) hg.inv).2
    · rintro v ⟨⟩ l' hl'; exact hg.not_heldByOther hs hl'
  | commit i a w h hs =>
    obtain ⟨hi, hpost⟩ := hg.safe i _ hs _ (D.rely_refl _ _) hg.inv
    have hgone : D.Good (s.setSession i none) :=
      hg.setSession i none (by simp) (by simp)
    refine hgone.moveDb _ hi ?_
    intro j t ht
    simp only [State.setSession_sessions, Function.update_apply] at ht
    split at ht
    · simp at ht
    · rename_i hji
      exact D.post_rely _ _ _ _ _ hg.inv hi (hg.excl i j _ t (Ne.symm hji) hs ht) hpost
  | rollback i e w h hs => exact hg.setSession i none (by simp) (by simp)
  | crash i => exact hg.setSession i none (by simp) (by simp)
  | env g he =>
    exact hg.moveDb s.log (D.env_inv _ _ hg.inv he) fun i t _ => D.env_rely _ _ _ hg.inv he

/-- **Soundness of a discipline.**  If every admitted program is safe from any
    store that satisfies the invariant, every reachable state is good. -/
theorem sound {allowed : List α → Tx G L ε α → Prop}
    (hprog : ∀ log p g, allowed log p → D.inv g → D.Safe p id [] g) {g₀ : G} (h₀ : D.inv g₀)
    {s : State G L ε α ι} (hs : Reachable allowed D.env g₀ s) : D.Good s := by
  induction hs with
  | init => exact ⟨h₀, by simp, by simp⟩
  | step _ hstep ih => exact ih.step (fun p hp => hprog _ p _ hp ih.inv) hstep

/-- A commit from a good state keeps the invariant and satisfies `post`. -/
theorem Good.commit_post {allowed : List α → Tx G L ε α → Prop} {s s' : State G L ε α ι} {a : α}
    (hg : D.Good s) (hstep : Step allowed D.env s (.commit a) s') :
    (∃ h, D.post h a s.db s'.db) ∧ s'.log = s.log ++ [a] := by
  cases hstep with
  | commit i a w h hs =>
    exact ⟨⟨h, (hg.safe i _ hs _ (D.rely_refl _ _) hg.inv).2⟩, rfl⟩

/-- **Commit induction under a condition.**  A property of the committed store and the
    results so far that holds at the start, and that commits under the condition and the
    environment preserve, holds of every state reached by steps that meet the condition. -/
theorem commit_induction_by {allowed : List α → Tx G L ε α → Prop}
    {condition : State G L ε α ι → Event ε α → Prop}
    (hprog : ∀ log p g, allowed log p → D.inv g → D.Safe p id [] g) {g₀ : G} (h₀ : D.inv g₀)
    {J : G → List α → Prop} (hJ₀ : J g₀ [])
    (hcommit : ∀ h a g' (s : State G L ε α ι), D.inv s.db → D.inv g' → condition s (.commit a) →
      D.post h a s.db g' → J s.db s.log → J g' (s.log ++ [a]))
    (henv : ∀ g g' log, D.inv g → D.env g g' → J g log → J g' log)
    {s : State G L ε α ι} (hs : ReachableBy allowed D.env condition g₀ s) : J s.db s.log := by
  induction hs with
  | init => exact hJ₀
  | @step s s' ev hr hstep hcond ih =>
    have hg : D.Good s := D.sound hprog h₀ hr.reachable
    have hg' : D.Good s' := hg.step (fun p hp => hprog _ p _ hp hg.inv) hstep
    cases hstep with
    | commit i a w h ht =>
      exact hcommit h a _ s hg.inv hg'.inv hcond (hg.safe i _ ht _ (D.rely_refl _ _) hg.inv).2 ih
    | env g he => exact henv _ _ _ hg.inv he ih
    | _ => exact ih

/-- **Commit induction.**  A property of the committed store and the results so far
    that holds at the start, and that commits and the environment preserve, holds of
    every reachable state. -/
theorem commit_induction {allowed : List α → Tx G L ε α → Prop}
    (hprog : ∀ log p g, allowed log p → D.inv g → D.Safe p id [] g) {g₀ : G} (h₀ : D.inv g₀)
    {J : G → List α → Prop} (hJ₀ : J g₀ [])
    (hcommit : ∀ h a g g' log, D.inv g → D.inv g' → D.post h a g g' → J g log →
      J g' (log ++ [a]))
    (henv : ∀ g g' log, D.inv g → D.env g g' → J g log → J g' log)
    {s : State G L ε α ι} (hs : Reachable allowed D.env g₀ s) : J s.db s.log :=
  commit_induction_by hprog h₀ hJ₀ (fun h a g' s hg hg' _ => hcommit h a s.db g' s.log hg hg') henv
    hs.unconditional

/-! ### Following one session -/

variable (D)

/-- The weakest precondition with a condition `E` on the error of a rollback. -/
def wpe (E : ε → Prop) : Tx G L ε β → (β → (G → G) → List L → G → Prop) → (G → G) → List L → G →
    Prop
  | .pure a, Q, w, h, g => Q a w h g
  | .fail e, _, _, _, _ => E e
  | .read k, Q, w, h, g =>
      ∀ g', D.rely h g g' → D.inv g' → wpe E (k (w g')) Q w h g'
  | .write u k, Q, w, h, g =>
      ∀ g', D.rely h g g' → D.inv g' → wpe E k Q (u ∘ w) h g'
  | .lock l k, Q, w, h, g =>
      ∀ g', D.rely h g g' → D.inv g' → wpe E k Q w (l :: h) g'
  | .tryLock l k, Q, w, h, g =>
      ∀ g', D.rely h g g' → D.inv g' →
        wpe E (k true) Q w (l :: h) g' ∧ wpe E (k false) Q w h g'

variable {D} {E : ε → Prop}

omit [DecidableEq ι] in
theorem wpe_stable {Q : β → (G → G) → List L → G → Prop} (hQ : D.Stable Q) (p : Tx G L ε β) :
    ∀ w h g g', D.rely h g g' → D.inv g' → D.wpe E p Q w h g → D.wpe E p Q w h g' := by
  intro w h g g' hr hi hp
  cases p with
  | pure a => exact hQ a w h g g' hr hi hp
  | fail e => exact hp
  | read k => exact fun g'' hr' => hp g'' (D.rely_trans _ _ _ _ hr hr')
  | write u k => exact fun g'' hr' => hp g'' (D.rely_trans _ _ _ _ hr hr')
  | lock l k => exact fun g'' hr' => hp g'' (D.rely_trans _ _ _ _ hr hr')
  | tryLock l k => exact fun g'' hr' => hp g'' (D.rely_trans _ _ _ _ hr hr')

omit [DecidableEq ι] in
theorem wpe_bind (p : Tx G L ε β) {γ : Type} (f : β → Tx G L ε γ)
    (Q : γ → (G → G) → List L → G → Prop) : ∀ w h g,
    D.wpe E (p >>= f) Q w h g ↔ D.wpe E p (fun a => D.wpe E (f a) Q) w h g := by
  show ∀ w h g, D.wpe E (p.bind f) Q w h g ↔ _
  induction p with
  | pure a => exact fun _ _ _ => Iff.rfl
  | fail e => exact fun _ _ _ => Iff.rfl
  | read k ih => exact fun w h g => forall_congr' fun g' => by simp only [ih]
  | write u k ih => exact fun w h g => forall_congr' fun g' => by simp only [ih]
  | lock l k ih => exact fun w h g => forall_congr' fun g' => by simp only [ih]
  | tryLock l k ih => exact fun w h g => forall_congr' fun g' => by simp only [ih]

omit [DecidableEq ι] in
theorem wpe_reads (f : G → β) (Q : β → (G → G) → List L → G → Prop) (w : G → G) (h : List L)
    (g : G) : D.wpe E (Tx.reads f : Tx G L ε β) Q w h g ↔
      ∀ g', D.rely h g g' → D.inv g' → Q (f (w g')) w h g' := Iff.rfl

omit [DecidableEq ι] in
/-- A program that throws only errors of `E`, before a postcondition that always holds. -/
theorem wpe_of_throws {p : Tx G L ε β} (hp : p.Throws E) {Q : β → (G → G) → List L → G → Prop}
    (hQ : ∀ a w h g, Q a w h g) : ∀ w h g, D.wpe E p Q w h g := by
  induction p with
  | pure a => exact fun w h g => hQ a w h g
  | fail e => exact fun _ _ _ => hp
  | read k ih => exact fun w h _ g' _ _ => ih (w g') (hp (w g')) w h g'
  | write u k ih => exact fun w h _ g' _ _ => ih hp (u ∘ w) h g'
  | lock l k ih => exact fun w h _ g' _ _ => ih hp w (l :: h) g'
  | tryLock l k ih =>
    exact fun w h _ g' _ _ => ⟨ih true (hp true) w (l :: h) g', ih false (hp false) w h g'⟩

/-- The states reached from `s` while session `i` stays open. -/
inductive Follows (allowed : List α → Tx G L ε α → Prop) (env : G → G → Prop) (i : ι)
    (s : State G L ε α ι) : State G L ε α ι → Prop
  | refl : Follows allowed env i s s
  | step {s₁ s₂ : State G L ε α ι} {ev : Event ε α} : Follows allowed env i s s₁ →
      Step allowed env s₁ ev s₂ → s₂.sessions i ≠ none → Follows allowed env i s s₂

/-- What an open session still has to do stays established by every step: its own
    statements move it on, and the steps of others are interference. -/
theorem Good.wpe_step {allowed : List α → Tx G L ε α → Prop} {s s' : State G L ε α ι}
    {ev : Event ε α} (hg : D.Good s) (hg' : D.Good s') (hstep : Step allowed D.env s ev s')
    {Q : α → (G → G) → List L → G → Prop} (hQ : D.Stable Q) {i : ι} {t t' : Session G L ε α}
    (ht : s.sessions i = some t) (ht' : s'.sessions i = some t')
    (hwp : D.wpe E t.prog Q t.pending t.held s.db) :
    D.wpe E t'.prog Q t'.pending t'.held s'.db := by
  -- a step of another session that commits nothing leaves this one and the store alone
  have hother : ∀ (j : ι) (u : Option (Session G L ε α)), j ≠ i →
      s' = s.setSession j u → D.wpe E t'.prog Q t'.pending t'.held s'.db := by
    intro j u hj hs'
    subst hs'
    rw [State.setSession_sessions, Function.update_of_ne (Ne.symm hj), ht] at ht'
    obtain rfl := Option.some.inj ht'
    exact hwp
  -- its own statements are the clauses of `wpe`
  have hown : ∀ (j : ι) (u t₀ : Session G L ε α), s' = s.setSession j (some u) →
      s.sessions j = some t₀ →
      (D.wpe E t₀.prog Q t₀.pending t₀.held s.db → D.wpe E u.prog Q u.pending u.held s.db) →
      D.wpe E t'.prog Q t'.pending t'.held s'.db := by
    intro j u t₀ hs' ht₀ hmove
    by_cases hj : j = i
    · subst hj hs'
      rw [State.setSession_sessions, Function.update_self] at ht'
      obtain rfl := Option.some.inj ht'
      rw [ht] at ht₀
      obtain rfl := Option.some.inj ht₀
      exact hmove hwp
    · exact hother j _ hj hs'
  cases hstep with
  | begin j p hn hp =>
    by_cases hj : j = i
    · subst hj
      rw [hn] at ht
      cases ht
    · exact hother j _ hj rfl
  | read j k w h hs => exact hown j _ _ rfl hs fun hwp => hwp _ (D.rely_refl _ _) hg.inv
  | write j u k w h hs => exact hown j _ _ rfl hs fun hwp => hwp _ (D.rely_refl _ _) hg.inv
  | lock j l k w h hs hfree => exact hown j _ _ rfl hs fun hwp => hwp _ (D.rely_refl _ _) hg.inv
  | locked j l k w h hs hfree =>
    exact hown j _ _ rfl hs fun hwp => (hwp _ (D.rely_refl _ _) hg.inv).1
  | skipped j l k w h hs hheld =>
    exact hown j _ _ rfl hs fun hwp => (hwp _ (D.rely_refl _ _) hg.inv).2
  | commit j a w h hs =>
    by_cases hj : j = i
    · subst hj
      simp at ht'
    · have hsame : t' = t := by
        rw [State.setSession_sessions, Function.update_of_ne (Ne.symm hj), ht] at ht'
        exact (Option.some.inj ht').symm
      subst hsame
      have hpost := (hg.safe j _ hs _ (D.rely_refl _ _) hg.inv).2
      refine wpe_stable hQ _ _ _ _ _ ?_ hg'.inv hwp
      exact D.post_rely _ _ _ _ _ hg.inv hg'.inv (hg.excl j i _ _ hj hs ht) hpost
  | rollback j e w h hs =>
    by_cases hj : j = i
    · subst hj
      simp at ht'
    · exact hother j _ hj rfl
  | crash j =>
    by_cases hj : j = i
    · subst hj
      simp at ht'
    · exact hother j _ hj rfl
  | env g he =>
    rw [ht] at ht'
    obtain rfl := Option.some.inj ht'
    exact wpe_stable hQ _ _ _ _ _ (D.env_rely _ _ _ hg.inv he) hg'.inv hwp

/-- **Following a session.**  What is established of a program where its session opens
    holds of the session wherever it stands, whatever the others did meanwhile. -/
theorem Follows.wpe {allowed : List α → Tx G L ε α → Prop}
    (hprog : ∀ log p g, allowed log p → D.inv g → D.Safe p id [] g)
    {Q : α → (G → G) → List L → G → Prop} (hQ : D.Stable Q) {i : ι} {s s' : State G L ε α ι}
    (hg : D.Good s) {t : Session G L ε α} (ht : s.sessions i = some t)
    (hwp : D.wpe E t.prog Q t.pending t.held s.db) (hf : Follows allowed D.env i s s') :
    D.Good s' ∧ ∃ t', s'.sessions i = some t' ∧ D.wpe E t'.prog Q t'.pending t'.held s'.db := by
  induction hf with
  | refl => exact ⟨hg, t, ht, hwp⟩
  | step _ hstep hopen ih =>
    obtain ⟨hg₁, t₁, ht₁, hwp₁⟩ := ih
    have hg₂ := hg₁.step (fun p hp => hprog _ p _ hp hg₁.inv) hstep
    obtain ⟨t₂, ht₂⟩ := Option.ne_none_iff_exists'.1 hopen
    exact ⟨hg₂, t₂, ht₂, hg₁.wpe_step hg₂ hstep hQ ht₁ ht₂ hwp₁⟩

/-- A step that leaves a session open moves the store as any of its locks allow, and the
    session gives up none of them. -/
theorem Good.rely_step {allowed : List α → Tx G L ε α → Prop} {s s' : State G L ε α ι}
    {ev : Event ε α} (hg : D.Good s) (hg' : D.Good s') (hstep : Step allowed D.env s ev s') {i : ι}
    {t : Session G L ε α} (ht : s.sessions i = some t) {h₀ : List L} (hheld : ∀ l ∈ h₀, l ∈ t.held)
    (hopen : s'.sessions i ≠ none) :
    ∃ t', s'.sessions i = some t' ∧ (∀ l ∈ h₀, l ∈ t'.held) ∧ D.rely h₀ s.db s'.db := by
  have hmove : ∀ (j : ι) (u : Option (Session G L ε α)), s' = s.setSession j u →
      (∀ t₀ t₁, s.sessions j = some t₀ → u = some t₁ → ∀ l ∈ t₀.held, l ∈ t₁.held) →
      ∃ t', s'.sessions i = some t' ∧ (∀ l ∈ h₀, l ∈ t'.held) ∧ D.rely h₀ s.db s'.db := by
    intro j u hs' hkeeps
    subst hs'
    by_cases hj : j = i
    · subst hj
      rw [State.setSession_sessions, Function.update_self] at hopen ⊢
      obtain ⟨t₁, ht₁⟩ := Option.ne_none_iff_exists'.1 hopen
      exact ⟨t₁, ht₁, fun l hl => hkeeps t t₁ ht ht₁ l (hheld l hl), D.rely_refl _ _⟩
    · rw [State.setSession_sessions, Function.update_of_ne (Ne.symm hj)]
      exact ⟨t, ht, hheld, D.rely_refl _ _⟩
  have hon : ∀ (j : ι) (u v : Session G L ε α), s.sessions j = some u →
      (∀ l ∈ u.held, l ∈ v.held) → ∀ t₀ t₁, s.sessions j = some t₀ → some v = some t₁ →
      ∀ l ∈ t₀.held, l ∈ t₁.held := by
    intro j u v hu hkeeps t₀ t₁ h₀ h₁
    obtain rfl := Option.some.inj (hu.symm.trans h₀)
    obtain rfl := Option.some.inj h₁
    exact hkeeps
  cases hstep with
  | begin j p hn hp =>
    refine hmove j _ rfl fun t₀ _ h₀ => ?_
    rw [hn] at h₀
    cases h₀
  | read j k w h hs => exact hmove j _ rfl (hon j _ _ hs fun _ hl => hl)
  | write j u k w h hs => exact hmove j _ rfl (hon j _ _ hs fun _ hl => hl)
  | lock j l k w h hs hfree => exact hmove j _ rfl (hon j _ _ hs fun _ hl => List.mem_cons_of_mem _ hl)
  | locked j l k w h hs hfree => exact hmove j _ rfl (hon j _ _ hs fun _ hl => List.mem_cons_of_mem _ hl)
  | skipped j l k w h hs hheld => exact hmove j _ rfl (hon j _ _ hs fun _ hl => hl)
  | commit j a w h hs =>
    by_cases hj : j = i
    · subst hj
      simp at hopen
    · have hpost := (hg.safe j _ hs _ (D.rely_refl _ _) hg.inv).2
      have hdisj : ∀ l ∈ h, l ∉ h₀ := fun l hl hl₀ => hg.excl j i _ _ hj hs ht l hl (hheld l hl₀)
      refine ⟨t, ?_, hheld, D.post_rely _ _ _ _ _ hg.inv hg'.inv hdisj hpost⟩
      rw [State.setSession_sessions, Function.update_of_ne (Ne.symm hj)]
      exact ht
  | rollback j e w h hs => exact hmove j none rfl fun _ _ _ h₁ => by cases h₁
  | crash j => exact hmove j none rfl fun _ _ _ h₁ => by cases h₁
  | env g he => exact ⟨t, ht, hheld, D.env_rely _ _ _ hg.inv he⟩

/-- **What a session relies on.**  While a session stays open, the store moves only as the
    locks it held at the start allow. -/
theorem Follows.rely {allowed : List α → Tx G L ε α → Prop}
    (hprog : ∀ log p g, allowed log p → D.inv g → D.Safe p id [] g) {i : ι}
    {s s' : State G L ε α ι} (hg : D.Good s) {t : Session G L ε α} (ht : s.sessions i = some t)
    (hf : Follows allowed D.env i s s') :
    D.Good s' ∧ (∃ t', s'.sessions i = some t' ∧ ∀ l ∈ t.held, l ∈ t'.held) ∧
      D.rely t.held s.db s'.db := by
  induction hf with
  | refl => exact ⟨hg, ⟨t, ht, fun l hl => hl⟩, D.rely_refl _ _⟩
  | step _ hstep hopen ih =>
    obtain ⟨hg₁, ⟨t₁, ht₁, hheld₁⟩, hrely₁⟩ := ih
    have hg₂ := hg₁.step (fun p hp => hprog _ p _ hp hg₁.inv) hstep
    obtain ⟨t₂, ht₂, hheld₂, hrely₂⟩ := hg₁.rely_step hg₂ hstep ht₁ hheld₁ hopen
    exact ⟨hg₂, ⟨t₂, ht₂, hheld₂⟩, D.rely_trans _ _ _ _ hrely₁ hrely₂⟩

end Discipline

end Txn
