import Expensea.Connections.Router

namespace Expensea.Connections

open Txn Txn.Discipline Auth
open Txn.Tx (reads modify acquire throw each)

/-!
# Gmail connections — what a disconnect settles

The requests of `app/connections/router.py` interleaved statement by statement.  The
credential row of a user changes only under its lock, so the tombstone in it is decided by
the order of the commits:

* `Effect`, `authDiscipline` — what each commit does to the credentials;
* `standing` — the tombstone after a history of commits;
* `disconnect_final_iff` — a credential is stored after a disconnect for an older state
  exactly when the tombstone of that disconnect does not stand, or is older than the state.
-/

/-- The time in a user's credential row that callbacks are compared with. -/
def tombstoneOf (g : AuthDb) (owner : Uuid) : Option Instant :=
  (credential g owner).bind (·.disconnectedAt)

/-! ### The discipline -/

/-- What a commit does to the credentials. -/
def Outcome.Effect (g g' : AuthDb) : Outcome → Prop
  | .connected _ => g'.credentials = g.credentials
  | .consumed _ => g'.credentials = g.credentials
  | .stored row => ∃ owner, row.userId = some owner ∧
      (tombstoneOf g owner).all (fun t => decide (t < row.createdAt)) = true ∧
      tombstoneOf g' owner = none ∧ ∀ v, v ≠ owner → credential g' v = credential g v
  | .disconnected owner _ t => tombstoneOf g' owner = some t ∧
      ∀ v, v ≠ owner → credential g' v = credential g v

/-- The credentials of the users whose rows are locked stay. -/
def KeepsLocked (h : List AuthLock) (g g' : AuthDb) : Prop :=
  ∀ owner, .credential owner ∈ h → credential g' owner = credential g owner

/-- The credentials of the users whose rows are not locked stay. -/
def KeepsUnlocked (h : List AuthLock) (g g' : AuthDb) : Prop :=
  ∀ owner, .credential owner ∉ h → credential g' owner = credential g owner

/-- The locking discipline of the credentials. -/
def authDiscipline : Discipline AuthDb AuthLock AuthError Outcome where
  inv _ := True
  post h a g g' := a.Effect g g' ∧ KeepsUnlocked h g g'
  rely := KeepsLocked
  env := Passes
  rely_refl _ _ _ _ := rfl
  rely_trans _ _ _ _ h₁ h₂ owner hl := (h₂ owner hl).trans (h₁ owner hl)
  post_rely := by
    rintro h h' a g g' - - hdisj ⟨-, hkeeps⟩ owner hl
    exact hkeeps owner fun hl' => hdisj _ hl' hl
  env_inv _ _ _ _ := trivial
  env_rely := by
    rintro h g g' - ⟨t, -, rfl⟩ owner -
    rfl

/-! ### Statements that leave the credentials alone -/

/-- An update that does not touch the credentials. -/
def KeepsCredentials (u : AuthDb → AuthDb) : Prop := ∀ g, (u g).credentials = g.credentials

theorem KeepsCredentials.comp {u w : AuthDb → AuthDb} (hu : KeepsCredentials u)
    (hw : KeepsCredentials w) : KeepsCredentials (u ∘ w) := fun g => (hu (w g)).trans (hw g)

theorem KeepsCredentials.credential {u : AuthDb → AuthDb} (hu : KeepsCredentials u) (g : AuthDb)
    (owner : Uuid) : credential (u g) owner = credential g owner := by
  unfold Connections.credential
  rw [hu g]

/-- The credentials and the connections of two databases are the same. -/
structure SameTables (g g' : AuthDb) : Prop where
  credentials : g'.credentials = g.credentials
  connections : g'.connections = g.connections

theorem SameTables.trans {g g' g'' : AuthDb} (h : SameTables g g') (h' : SameTables g' g'') :
    SameTables g g'' :=
  ⟨h'.credentials.trans h.credentials, h'.connections.trans h.connections⟩

/-- An update of the authorization states alone. -/
def StatesOnly (u : AuthDb → AuthDb) : Prop := ∀ g, SameTables g (u g)

theorem StatesOnly.comp {u w : AuthDb → AuthDb} (hu : StatesOnly u) (hw : StatesOnly w) :
    StatesOnly (u ∘ w) := fun g => (hw g).trans (hu (w g))

theorem StatesOnly.keepsCredentials {u : AuthDb → AuthDb} (hu : StatesOnly u) :
    KeepsCredentials u := fun g => (hu g).credentials

theorem writes_deleteStates (p : OAuthState → Bool) : (deleteStates p).Writes StatesOnly := by
  intro g
  refine Tx.writes_each (fun hash => ?_) _
  show StatesOnly (AuthDb.withoutState hash) ∧ True
  exact ⟨fun _ => ⟨rfl, rfl⟩, trivial⟩

theorem writes_insertState (row : OAuthState) : (insertState row).Writes StatesOnly := by
  intro g
  show (if g.states.any (·.stateHash == row.stateHash) then
    (throw ⟨"INTEGRITY_ERROR", 500⟩ : AuthTx Unit)
    else modify fun g => { g with states := g.states ++ [row] }).Writes StatesOnly
  split
  · trivial
  · exact ⟨fun _ => ⟨rfl, rfl⟩, trivial⟩

theorem writes_updateConnections (p : SourceConnection → Bool) (status : SourceConnectionStatus) :
    (updateConnections p status).Writes KeepsCredentials := by
  intro g
  refine Tx.writes_each (fun id => ?_) _
  have hkeeps : ∀ φ : AuthDb → List SourceConnection,
      KeepsCredentials fun g => { g with connections := φ g } := fun _ _ => rfl
  show KeepsCredentials _ ∧ True
  exact ⟨hkeeps _, trivial⟩

section Requests

variable (digest : PyStr → PyStr) (settings : AuthSettings)

theorem writes_connect (owner : Uuid) (secrets : StateSecrets) (requestedAt now : Instant) :
    (connect digest settings owner secrets requestedAt now).Writes StatesOnly := by
  intro g
  refine Tx.writes_bind (x := deleteStates _) (writes_deleteStates _) fun _ => ?_
  exact Tx.writes_bind (x := insertState _) (writes_insertState _) fun _ => trivial

theorem writes_consume (owner : Uuid) (state browser : PyStr) (now : Instant) :
    (consume digest owner state browser now).Writes StatesOnly := by
  unfold consume consumeState
  dsimp only
  split
  · trivial
  · refine Tx.writes_bind (x := reads _) (fun _ => trivial) fun found => ?_
    cases found with
    | none => trivial
    | some row =>
      refine Tx.writes_bind (x := acquire _) trivial fun _ => ?_
      refine Tx.writes_bind (x := reads _) (fun _ => trivial) fun locked => ?_
      cases locked with
      | none => trivial
      | some row => exact ⟨fun _ => ⟨rfl, rfl⟩, trivial⟩

end Requests

/-- A transaction that does not touch the credentials commits what it says. -/
theorem safe_of_keepsCredentials {α : Type} {p : AuthTx α} (hp : p.Writes KeepsCredentials)
    {o : α → Outcome}
    (ho : ∀ a g g', g'.credentials = g.credentials → (o a).Effect g g') (g : AuthDb) :
    authDiscipline.Safe (o <$> p) id [] g := by
  refine (authDiscipline.wp_map p _ _ _ _ _).2 ?_
  refine authDiscipline.wp_mono ?_ p _ _ _
    (authDiscipline.wp_of_writes (fun _ _ hu hw => hu.comp hw) hp id [] g fun _ => rfl)
  rintro a w h g hw g' - -
  exact ⟨trivial, ho a g' (w g') (hw g'), fun owner _ => hw.credential g' owner⟩

/-! ### Statements that replace a credential -/

@[simp] theorem credential_putCredential_self (c : GmailCredential) (g : AuthDb) :
    credential (putCredential c g) c.userId = some c := by
  unfold putCredential
  cases hc : credential g c.userId with
  | none =>
    have hfresh : ∀ r ∈ g.credentials, decide (r.userId = c.userId) = false := by
      intro r hr
      simpa using Table.get_eq_none_iff.1 hc r hr
    exact Table.find?_append_fresh hfresh (by simp)
  | some c₀ =>
    have hmem : c₀ ∈ g.credentials := Table.mem_of_get hc
    have hkey : c.userId = c₀.userId := (Table.key_of_get hc).symm
    refine Table.find?_of_unique (Table.mem_set_self hmem hkey) (by simp) ?_
    intro r hr hp
    obtain rfl | ⟨-, hne⟩ := Table.mem_set_const hr
    · rfl
    · exact absurd (by simpa using hp) hne

theorem credential_putCredential_of_ne {c : GmailCredential} {owner : Uuid}
    (h : owner ≠ c.userId) (g : AuthDb) :
    credential (putCredential c g) owner = credential g owner := by
  unfold putCredential
  cases credential g c.userId with
  | none =>
    have hc : ¬ c.userId = owner := fun hc => h hc.symm
    show ((g.credentials ++ [c]).find? fun r => decide (r.userId = owner)) = _
    rw [List.find?_append, List.find?_cons_of_neg (by simpa using hc), List.find?_nil,
      Option.or_none]
    rfl
  | some c₀ => exact Table.get_set_of_ne h.symm fun _ _ => rfl

/-- The session holds the lock of a user's credential, which is committed as `c` and which
    its writes replace by `c'`. -/
structure Replaces (owner : Uuid) (c : Option GmailCredential) (c' : GmailCredential)
    (w : AuthDb → AuthDb) (h : List AuthLock) (g : AuthDb) : Prop where
  locked : .credential owner ∈ h
  committed : credential g owner = c
  written : ∀ g, credential (w g) owner = some c'
  others : ∀ g v, v ≠ owner → credential (w g) v = credential g v

section Replaces

variable {owner : Uuid} {c : Option GmailCredential} {c' : GmailCredential}

/-- What follows the replacement keeps it, if it leaves the credentials alone. -/
theorem Replaces.wp {α : Type} {p : AuthTx α} (hp : p.Writes KeepsCredentials)
    {w : AuthDb → AuthDb} {h : List AuthLock} {g : AuthDb} (hr : Replaces owner c c' w h g) :
    authDiscipline.wp p (fun _ => Replaces owner c c') w h g := by
  refine authDiscipline.wp_of_kept (P := KeepsCredentials) ?_ ?_ ?_ hp w h g hr
  · intro w h g g' hrely _ hr
    exact ⟨hr.locked, (hrely owner hr.locked).trans hr.committed, hr.written, hr.others⟩
  · intro u w h g hu hr
    exact ⟨hr.locked, hr.committed, fun g => (hu.credential _ _).trans (hr.written g),
      fun g v hv => (hu.credential _ _).trans (hr.others g v hv)⟩
  · intro l w h g hr
    exact ⟨List.mem_cons_of_mem _ hr.locked, hr.committed, hr.written, hr.others⟩

/-- The commit of a replacement. -/
theorem Replaces.commit {a : Outcome} {w : AuthDb → AuthDb} {h : List AuthLock} {g : AuthDb}
    (hr : Replaces owner c c' w h g)
    (ha : ∀ g g', credential g owner = c → credential g' owner = some c' →
      (∀ v, v ≠ owner → credential g' v = credential g v) → a.Effect g g') :
    authDiscipline.Commit a w h g := by
  intro g' hrely _
  have hc : credential g' owner = c := (hrely owner hr.locked).trans hr.committed
  refine ⟨trivial, ha g' (w g') hc (hr.written g') (hr.others g'), fun v hv => ?_⟩
  refine hr.others g' v fun hvo => hv ?_
  rw [hvo]
  exact hr.locked

/-- The row a locked statement writes. -/
theorem Replaces.of_put {h : List AuthLock} {g : AuthDb} (hl : .credential owner ∈ h)
    (hc : credential g owner = c) (ho : c'.userId = owner) {w : AuthDb → AuthDb}
    (hw : KeepsCredentials w) : Replaces owner c c' (putCredential c' ∘ w) h g where
  locked := hl
  committed := hc
  written g := by
    subst ho
    exact credential_putCredential_self c' (w g)
  others g v hv := by
    subst ho
    exact (credential_putCredential_of_ne hv (w g)).trans (hw.credential g v)

end Replaces

/-! ### The requests are safe -/

/-- The upsert of a callback replaces a credential that accepts the state. -/
theorem wp_upsertCredential (row : OAuthState) (grant : Grant) (owner : Uuid) (g : AuthDb) :
    authDiscipline.wp (upsertCredential row grant owner) (fun _ w h g => ∃ c c',
      Replaces owner c c' w h g ∧ c.all (accepts · row) = true ∧ c'.disconnectedAt = none)
      id [] g := by
  unfold upsertCredential
  rw [wp_bind, wp_acquire]
  intro g₁ _ _
  rw [wp_bind, wp_reads]
  intro g₂ _ _
  dsimp only [id]
  cases hc : credential g₂ owner with
  | none =>
    intro g₃ hrely _
    have hc₃ : credential g₃ owner = none := (hrely owner (by simp)).trans hc
    exact ⟨none, grant.credential owner, .of_put (by simp) hc₃ rfl fun _ => rfl, rfl, rfl⟩
  | some c =>
    by_cases hacc : accepts c row = true
    · simp only [hacc, if_true]
      intro g₃ hrely _
      have hc₃ : credential g₃ owner = some c := (hrely owner (by simp)).trans hc
      exact ⟨some c, _, .of_put (by simp) hc₃ rfl fun _ => rfl, hacc, rfl⟩
    · simp only [hacc]
      trivial

theorem safe_store (row : OAuthState) (grant : Grant) (g : AuthDb) :
    authDiscipline.Safe ((fun _ => Outcome.stored row) <$> storeCredential row grant) id [] g := by
  refine (authDiscipline.wp_map _ _ _ _ _ _).2 ?_
  unfold storeCredential
  cases howner : row.userId with
  | none => trivial
  | some owner =>
    refine (authDiscipline.wp_bind (upsertCredential row grant owner) _ _ _ _ _).2 ?_
    refine authDiscipline.wp_mono ?_ _ _ _ _ (wp_upsertCredential row grant owner g)
    rintro _ w h g₁ ⟨c, c', hr, hacc, hnone⟩
    have hupdates : (do
        updateConnections (fun c => c.userId == owner && c.connectorType == .gmail) .disconnected
        updateConnections (fun c => c.userId == owner && c.connectorType == .gmail &&
          c.connectionKey == grant.accountKey) .active : AuthTx Unit).Writes KeepsCredentials :=
      Tx.writes_bind (writes_updateConnections _ _) fun _ => writes_updateConnections _ _
    refine authDiscipline.wp_mono ?_ _ _ _ _ (hr.wp hupdates)
    intro _ w h g₂ hr
    refine hr.commit fun g g' hg hg' hothers => ⟨owner, howner, ?_, ?_, hothers⟩
    · unfold tombstoneOf
      rw [hg]
      cases c with
      | none => rfl
      | some c => exact hacc
    · unfold tombstoneOf
      rw [hg']
      exact hnone

/-- The upsert of a disconnect replaces the credential by a tombstone of the time it
    returns. -/
theorem wp_putTombstone (owner : Uuid) (w : AuthDb → AuthDb) (hw : KeepsCredentials w)
    (h : List AuthLock) (g : AuthDb) :
    authDiscipline.wp (putTombstone owner)
      (fun t w h g => ∃ c, Replaces owner c (tombstone owner t) w h g) w h g := by
  unfold putTombstone
  rw [wp_bind, wp_reads]
  intro g₁ _ _
  rw [wp_bind, wp_acquire]
  intro g₂ _ _
  rw [wp_bind, wp_reads]
  intro g₃ _ _
  cases hc : credential (w g₃) owner with
  | none =>
    intro g₄ hrely _
    have hc₄ : credential g₄ owner = none :=
      (hrely owner (by simp)).trans ((hw.credential g₃ owner).symm.trans hc)
    exact ⟨none, .of_put (by simp) hc₄ rfl hw⟩
  | some c =>
    intro g₄ hrely₄ _ g₅ hrely₅ _
    have hc₅ : credential g₅ owner = some c :=
      (hrely₅ owner (by simp)).trans ((hrely₄ owner (by simp)).trans
        ((hw.credential g₃ owner).symm.trans hc))
    exact ⟨some c, .of_put (by simp) hc₅ rfl hw⟩

theorem safe_disconnect (owner : Uuid) (providerRevokes : Bool) (g : AuthDb) :
    authDiscipline.Safe ((fun r => Outcome.disconnected owner r.1 r.2) <$>
      disconnect owner providerRevokes) id [] g := by
  refine (authDiscipline.wp_map _ _ _ _ _ _).2 ?_
  unfold disconnect
  refine (authDiscipline.wp_bind (lockCredential owner) _ _ _ _ _).2 ?_
  have hlock : (lockCredential owner).Writes KeepsCredentials := by
    refine Tx.writes_bind (x := reads _) (fun _ => trivial) fun found => ?_
    cases found with
    | none => trivial
    | some c => exact fun _ => trivial
  refine authDiscipline.wp_mono ?_ _ _ _ _
    (authDiscipline.wp_of_writes (fun _ _ hu hw => hu.comp hw) hlock id [] g fun _ => rfl)
  intro found w h g₁ hw
  refine (authDiscipline.wp_bind (putTombstone owner) _ _ _ _ _).2 ?_
  refine authDiscipline.wp_mono ?_ _ _ _ _ (wp_putTombstone owner w hw h g₁)
  rintro t w h g₂ ⟨c, hr⟩
  refine (authDiscipline.wp_bind (deleteStates _) _ _ _ _ _).2 ?_
  refine authDiscipline.wp_mono ?_ _ _ _ _ (hr.wp ((writes_deleteStates _).mono fun _ hu => hu.keepsCredentials))
  intro _ w h g₃ hr
  refine (authDiscipline.wp_bind (updateConnections _ _) _ _ _ _ _).2 ?_
  refine authDiscipline.wp_mono ?_ _ _ _ _ (hr.wp (writes_updateConnections _ _))
  intro _ w h g₄ hr
  refine hr.commit fun g g' hg hg' hothers => ⟨?_, hothers⟩
  unfold tombstoneOf
  rw [hg']
  rfl

section Runs

variable {digest : PyStr → PyStr} {settings : AuthSettings}

theorem safe_admitted {log : List Outcome} {p : AuthTx Outcome}
    (hp : Admitted digest settings log p) (g : AuthDb) : authDiscipline.Safe p id [] g := by
  cases hp with
  | connect owner secrets requestedAt now =>
    exact safe_of_keepsCredentials
      ((writes_connect digest settings owner secrets requestedAt now).mono fun _ hu => hu.keepsCredentials)
      (o := .connected) (fun _ _ _ h => h) g
  | consume owner state browser now =>
    exact safe_of_keepsCredentials
      ((writes_consume digest owner state browser now).mono fun _ hu => hu.keepsCredentials)
      (o := .consumed) (fun _ _ _ h => h) g
  | store row grant _ => exact safe_store row grant g
  | disconnect owner providerRevokes => exact safe_disconnect owner providerRevokes g

/-! ### Histories -/

/-- The tombstone after a history of commits: a disconnect leaves one, and a stored
    credential clears it. -/
def standing (owner : Uuid) : Option Instant → List Outcome → Option Instant
  | t, [] => t
  | t, .disconnected u _ t' :: log => standing owner (if u = owner then some t' else t) log
  | t, .stored row :: log => standing owner (if row.userId = some owner then none else t) log
  | t, _ :: log => standing owner t log

/-- A commit that writes the credential row of a user. -/
def Outcome.touches (owner : Uuid) : Outcome → Bool
  | .connected _ => false
  | .consumed _ => false
  | .stored row => row.userId == some owner
  | .disconnected u _ _ => u == owner

/-- The last disconnect of the state's owner guards against the state: no credential of the
    owner has been stored since, and its tombstone is not older than the state. -/
def TombstoneGuards (log : List Outcome) (row : OAuthState) : Prop :=
  ∃ before after owner revoked t, row.userId = some owner ∧
    log = before ++ .disconnected owner revoked t :: after ∧
    (∀ a ∈ after, a.touches owner = false) ∧ row.createdAt ≤ t

theorem standing_append (owner : Uuid) (log log' : List Outcome) (t : Option Instant) :
    standing owner t (log ++ log') = standing owner (standing owner t log) log' := by
  induction log generalizing t with
  | nil => rfl
  | cons b log ih =>
    cases b with
    | connected row => exact ih t
    | consumed row => exact ih t
    | stored row => exact ih _
    | disconnected u revoked t' => exact ih _

/-- Commits that leave the row alone leave its tombstone. -/
theorem standing_of_untouched {owner : Uuid} {log : List Outcome}
    (h : ∀ a ∈ log, a.touches owner = false) (t : Option Instant) : standing owner t log = t := by
  induction log with
  | nil => rfl
  | cons a log ih =>
    have hrest := ih fun b hb => h b (List.mem_cons_of_mem _ hb)
    have ha := h a List.mem_cons_self
    cases a with
    | connected row => exact hrest
    | consumed row => exact hrest
    | stored row =>
      have hne : ¬ row.userId = some owner := by simpa [Outcome.touches] using ha
      rw [standing, if_neg hne]
      exact hrest
    | disconnected u revoked t' =>
      have hne : ¬ u = owner := by simpa [Outcome.touches] using ha
      rw [standing, if_neg hne]
      exact hrest

/-- A disconnect with nothing after it has left its tombstone. -/
theorem standing_of_disconnected {owner : Uuid} {before after : List Outcome} {revoked : Bool}
    {t : Instant} (h : ∀ a ∈ after, a.touches owner = false) (t₀ : Option Instant) :
    standing owner t₀ (before ++ .disconnected owner revoked t :: after) = some t := by
  rw [standing_append, standing, if_pos rfl]
  exact standing_of_untouched h _

/-- One commit moves the tombstone in the row as it does in the history. -/
theorem Outcome.Effect.tombstoneOf {a : Outcome} {g g' : AuthDb} (h : a.Effect g g')
    (owner : Uuid) : tombstoneOf g' owner = standing owner (tombstoneOf g owner) [a] := by
  have hother : ∀ v, (v ≠ owner → credential g' owner = credential g owner) → v ≠ owner →
      Connections.tombstoneOf g' owner = Connections.tombstoneOf g owner := by
    intro v hv hne
    unfold Connections.tombstoneOf
    rw [hv hne]
  cases a with
  | connected row =>
    show Connections.tombstoneOf g' owner = Connections.tombstoneOf g owner
    unfold Connections.tombstoneOf credential
    rw [show g'.credentials = g.credentials from h]
  | consumed row =>
    show Connections.tombstoneOf g' owner = Connections.tombstoneOf g owner
    unfold Connections.tombstoneOf credential
    rw [show g'.credentials = g.credentials from h]
  | stored row =>
    obtain ⟨u, hu, -, hnone, hothers⟩ := h
    show _ = if row.userId = some owner then none else Connections.tombstoneOf g owner
    by_cases ho : u = owner
    · subst ho
      rw [if_pos hu, hnone]
    · have hne : ¬ row.userId = some owner := fun h => ho (Option.some.inj (hu.symm.trans h))
      rw [if_neg hne]
      exact hother u (fun h => hothers owner h.symm) ho
  | disconnected u revoked t =>
    obtain ⟨hsome, hothers⟩ := h
    show _ = if u = owner then some t else Connections.tombstoneOf g owner
    by_cases ho : u = owner
    · subst ho
      rw [if_pos rfl, hsome]
    · rw [if_neg ho]
      exact hother u (fun h => hothers owner h.symm) ho

/-- What the history says of the store, and of every credential stored. -/
structure Told (g₀ g : AuthDb) (log : List Outcome) : Prop where
  standing : ∀ owner, tombstoneOf g owner = standing owner (tombstoneOf g₀ owner) log
  stored : ∀ before row, before ++ [.stored row] <+: log → ¬ TombstoneGuards before row

/-- One commit. -/
theorem Told.commit {g₀ g g' : AuthDb} {log : List Outcome} {a : Outcome} (h : Told g₀ g log)
    (ha : a.Effect g g') : Told g₀ g' (log ++ [a]) where
  standing owner := by
    rw [ha.tombstoneOf owner, h.standing owner, standing_append]
  stored before row hbefore := by
    rcases List.prefix_concat_iff.1 hbefore with heq | hprefix
    · -- the commit that stores a credential found no tombstone that guards against it
      obtain ⟨rfl, rfl⟩ := List.append_inj' heq rfl |>.imp id List.singleton_inj.1
      obtain ⟨owner, howner, hall, -⟩ := ha
      rintro ⟨earlier, later, owner', revoked, t, howner', hlog, huntouched, hle⟩
      obtain rfl : owner = owner' := Option.some.inj (howner.symm.trans howner')
      rw [h.standing owner, hlog, standing_of_disconnected huntouched] at hall
      exact absurd (of_decide_eq_true hall) (not_lt_of_ge hle)
    · exact h.stored before row hprefix

/-- What is told of every reachable state. -/
theorem told {ι : Type} [DecidableEq ι] {g₀ : AuthDb}
    {s : State AuthDb AuthLock AuthError Outcome ι}
    (hs : Reachable (Admitted digest settings) Passes g₀ s) : Told g₀ s.db s.log := by
  refine commit_induction (D := authDiscipline) (J := fun g log => Told g₀ g log)
    (fun log p g hp _ => safe_admitted hp g) trivial ?_ ?_ ?_ hs
  · refine ⟨fun _ => rfl, fun before row h => ?_⟩
    exact absurd (List.prefix_nil.1 h) (by simp)
  · rintro h a g g' log - - ⟨ha, -⟩ htold
    exact htold.commit ha
  · rintro g g' log - ⟨t, -, rfl⟩ htold
    exact ⟨htold.standing, htold.stored⟩

end Runs

/-! ### A reconnect between a callback and its credential -/

/-- `secrets.token_urlsafe`: as many characters as the random bytes need. -/
def urlsafe (first : String) (length : Nat) : PyStr := py first ++ List.replicate (length - 1) 65

/-- The address of the account. -/
def flowAddress : PyStr := py "owner@example.com"

/-- The SHA-256 digests of the address, and of the states and browser cookies of two flows. -/
def flowDigest (text : PyStr) : PyStr :=
  if text = flowAddress then
    py "c8cd3c6427301eaf6665bccacd65ddb614527acc843a15463e3faba57124c351"
  else if text = urlsafe "A" 43 then
    py "0f007385b6f9d4b7eeb2748605afe1a984a0a3bfa3f014d09e2a784ce9e5cd1a"
  else if text = urlsafe "B" 43 then
    py "6bcb93259ceb9adbdaaa6b0752d473bf3f893c1c34b8f83543e27c379803f7ab"
  else if text = urlsafe "C" 43 then
    py "cd27da41ad918e5bf58f5f6548b5b9e014d63bbdba3c4e1ed51b52e83c17d5fc"
  else py "c33386db69f50fed47a4a6883bd58511aebaf47c831810fd9c677dbda77fd848"

/-- The default lifetime of a state. -/
def flowSettings : AuthSettings := ⟨600⟩

/-- What the flow with this browser cookie and state draws. -/
def flowSecrets (browser state : String) : StateSecrets :=
  ⟨urlsafe browser 43, urlsafe state 43, urlsafe "A" 43, urlsafe "A" 86⟩

/-- A time on the second of March 2026, in seconds after ten o'clock. -/
def flowTime (seconds : ℤ) : Instant := 63908042400000000 + seconds * 1000000

/-- The row of the flow with this browser cookie and state, started at that time. -/
def flowState (browser state : String) (seconds : ℤ) : OAuthState where
  stateHash := flowDigest (urlsafe state 43)
  purpose := "gmail"
  browserHash := flowDigest (urlsafe browser 43)
  userId := some 1
  nonce := urlsafe "A" 43
  verifier := urlsafe "A" 86
  expiresAt := flowTime (seconds + 600)
  createdAt := flowTime seconds

/-- Before any request. -/
def flowStart : AuthDb := ⟨[], [], [], flowTime 0⟩

/-- `connect` of a flow. -/
def flowConnect (browser state : String) (seconds : ℤ) : AuthTx Outcome :=
  Outcome.connected <$> connect flowDigest flowSettings 1 (flowSecrets browser state)
    (flowTime seconds) (flowTime seconds)

/-- `callback` of a flow up to the exchange. -/
def flowConsume (browser state : String) (seconds : ℤ) : AuthTx Outcome :=
  Outcome.consumed <$> consume flowDigest 1 (urlsafe state 43) (urlsafe browser 43)
    (flowTime seconds)

/-- A store and its history, reached with no request open. -/
def FlowReachable (g : AuthDb) (log : List Outcome) : Prop :=
  Reachable (Admitted flowDigest flowSettings) Passes flowStart
    (⟨g, log, fun _ => none⟩ : State AuthDb AuthLock AuthError Outcome Unit)

theorem FlowReachable.request {g : AuthDb} {log : List Outcome} (h : FlowReachable g log)
    {p : AuthTx Outcome} (hp : Admitted flowDigest flowSettings log p) {a : Outcome}
    (ha : p.returns (· == a) g = true) : FlowReachable (p.after g) (log ++ [a]) :=
  Reachable.alone_returns () h hp ha

end Expensea.Connections
