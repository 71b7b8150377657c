import Expensea.Connections.ActiveAccount

namespace Expensea.Connections

open Txn Txn.Discipline Auth
open Txn.Tx (reads modify acquire throw each)

/-!
# Gmail connections — the order of a user's operations

The requests and operations of all users interleaved statement by statement, with the
transactions that the ingestion service commits inside a sync.  An operation holds the
credential row of its user from its lock to its commit, so it does at its commit what it
would do alone:

* `Writing` — what an open session will have done to the rows of its user;
* `accountDiscipline` — a commit leaves the rows of the users whose credentials are not locked,
  and is a sequence of steps of each user's operations;
* `AccountsStep` — one step of the system;
* `accounts_steps`, `account_refined` — the system refines `AccountStep` for every user;
* `accounts_valid` — so what holds of a user's operations one after the other holds of it.
-/

/-! ### The rows of a user -/

/-- The credential and the Gmail connections of a user are the same. -/
structure SameRows (owner : Uuid) (g g' : AuthDb) : Prop where
  credential : Connections.credential g' owner = Connections.credential g owner
  connections : g'.connections.filter (ofGmail owner) = g.connections.filter (ofGmail owner)

theorem SameRows.refl (owner : Uuid) (g : AuthDb) : SameRows owner g g := ⟨rfl, rfl⟩

theorem SameRows.trans {owner : Uuid} {g g' g'' : AuthDb} (h : SameRows owner g g')
    (h' : SameRows owner g' g'') : SameRows owner g g'' :=
  ⟨h'.credential.trans h.credential, h'.connections.trans h.connections⟩

theorem SameTables.rows {g g' : AuthDb} (h : SameTables g g') (owner : Uuid) :
    SameRows owner g g' where
  credential := by
    unfold Connections.credential
    rw [h.credentials]
  connections := by rw [h.connections]

/-- An update of the connections that satisfy a condition. -/
def setStatus (p : SourceConnection → Bool) (status : SourceConnectionStatus) (g : AuthDb) :
    AuthDb :=
  { g with connections := withStatus p status g.connections }

/-- The status of a connection does not tell whose it is. -/
theorem filter_withStatus (v : Uuid) (p : SourceConnection → Bool) (status : SourceConnectionStatus)
    (l : List SourceConnection) :
    (withStatus p status l).filter (ofGmail v) = withStatus p status (l.filter (ofGmail v)) := by
  have hgmail : ∀ c, ofGmail v (if p c then { c with status := status } else c) = ofGmail v c := by
    intro c
    split <;> rfl
  unfold withStatus
  rw [List.filter_map]
  congr 1
  exact List.filter_congr fun c _ => hgmail c

/-- An update of rows that are not in the list. -/
theorem withStatus_of_none {p : SourceConnection → Bool} {l : List SourceConnection}
    (hp : ∀ c ∈ l, p c = false) (status : SourceConnectionStatus) : withStatus p status l = l := by
  unfold withStatus
  conv_rhs => rw [← List.map_id l]
  refine List.map_congr_left fun c hc => ?_
  rw [hp c hc]
  rfl

/-- An update of the rows of one user. -/
structure Touches (owner : Uuid) (u : AuthDb → AuthDb) : Prop where
  own : ∀ g g', SameRows owner g g' → SameRows owner (u g) (u g')
  others : ∀ g v, v ≠ owner → SameRows v g (u g)
  names : ∀ g, (u g).connections.map connectionName = g.connections.map connectionName

section Touches

variable {owner : Uuid}

theorem Touches.comp {u u' : AuthDb → AuthDb} (hu : Touches owner u) (hu' : Touches owner u') :
    Touches owner (u ∘ u') where
  own g g' h := hu.own _ _ (hu'.own g g' h)
  others g v hv := (hu'.others g v hv).trans (hu.others (u' g) v hv)
  names g := (hu.names (u' g)).trans (hu'.names g)

theorem touches_putCredential {c : GmailCredential} (hc : c.userId = owner) :
    Touches owner (putCredential c) where
  own g g' h := by
    subst hc
    refine ⟨?_, ?_⟩
    · rw [credential_putCredential_self, credential_putCredential_self]
    · rw [putCredential_connections, putCredential_connections]
      exact h.connections
  others g v hv := by
    subst hc
    exact ⟨credential_putCredential_of_ne hv g, by rw [putCredential_connections]⟩
  names g := by rw [putCredential_connections]

theorem touches_setStatus {p : SourceConnection → Bool}
    (hp : ∀ c, p c = true → ofGmail owner c = true) (status : SourceConnectionStatus) :
    Touches owner (setStatus p status) where
  own g g' h := by
    refine ⟨h.credential, ?_⟩
    show (withStatus p status g'.connections).filter (ofGmail owner) =
      (withStatus p status g.connections).filter (ofGmail owner)
    rw [filter_withStatus, filter_withStatus, h.connections]
  others g v hv := by
    refine ⟨rfl, ?_⟩
    show (withStatus p status g.connections).filter (ofGmail v) = _
    rw [filter_withStatus]
    refine withStatus_of_none (fun c hc => ?_) status
    obtain ⟨-, hgmail⟩ := List.mem_filter.1 hc
    -- a connection of one user is not another one's
    by_contra hpc
    have howner := hp c (by simpa using hpc)
    simp only [ofGmail, Bool.and_eq_true, beq_iff_eq] at hgmail howner
    exact hv (hgmail.1.symm.trans howner.1)
  names g := map_name_withStatus p status g.connections

end Touches

/-! ### What an open session will have done -/

/-- A session that holds the credential `c` of a user and, whatever else is committed before
    it ends, does `u` to the credentials and the connections. -/
structure Writing (owner : Uuid) (c : Option GmailCredential) (u w : AuthDb → AuthDb)
    (h : List AuthLock) (g : AuthDb) : Prop where
  locked : .credential owner ∈ h
  committed : credential g owner = c
  writes : ∀ g', SameRows owner g g' → SameTables (u g') (w g')

/-- One user's operations, from one database to another. -/
def AccountSteps (K : AccountConfig) (owner : Uuid) (g g' : AuthDb) : Prop :=
  Relation.ReflTransGen (AccountStep K owner) ⟨g, none⟩ ⟨g', none⟩

/-- What leaves the rows of a user is a step elsewhere. -/
theorem SameRows.steps {K : AccountConfig} {owner : Uuid} {g g' : AuthDb} (h : SameRows owner g g')
    (hkeys : ConnectionKeys g'.connections) : AccountSteps K owner g g' :=
  .single (.elsewhere g g' none h.credential h.connections hkeys)

/-- Time passes, and transactions that are not about Gmail commit. -/
structure AccountsElsewhere (g g' : AuthDb) : Prop where
  credentials : Elsewhere g g'
  connections : ∀ owner,
    g'.connections.filter (ofGmail owner) = g.connections.filter (ofGmail owner)
  keys : ConnectionKeys g'.connections

theorem AccountsElsewhere.rows {g g' : AuthDb} (h : AccountsElsewhere g g') (owner : Uuid) :
    SameRows owner g g' where
  credential := by
    unfold Connections.credential
    rw [show g'.credentials = g.credentials from h.credentials]
  connections := h.connections owner

/-- A commit leaves the rows of the users whose credentials are not locked, and every user's
    operations go on from the database before it to the one after it. -/
def accountDiscipline (K : AccountConfig) : Discipline AuthDb AuthLock AuthError GmailOutcome where
  inv g := ConnectionKeys g.connections
  post h _ g g' :=
    (∀ owner, .credential owner ∉ h → SameRows owner g g') ∧ ∀ owner, AccountSteps K owner g g'
  rely h g g' := ∀ owner, .credential owner ∈ h → SameRows owner g g'
  env := AccountsElsewhere
  rely_refl _ g owner _ := SameRows.refl owner g
  rely_trans _ _ _ _ h h' owner hl := (h owner hl).trans (h' owner hl)
  post_rely _ _ _ _ _ _ _ hdisj hpost owner hl := hpost.1 owner fun hl' => hdisj _ hl' hl
  env_inv _ _ _ he := he.keys
  env_rely _ _ _ _ he owner _ := he.rows owner

section Sessions

variable {K : AccountConfig} {owner : Uuid}

theorem accountDiscipline_mono (l : AuthLock) (h : List AuthLock) (g g' : AuthDb)
    (hr : (accountDiscipline K).rely (l :: h) g g') : (accountDiscipline K).rely h g g' :=
  fun owner hl => hr owner (List.mem_cons_of_mem l hl)

section Writing

variable {c : Option GmailCredential} {u w : AuthDb → AuthDb} {h : List AuthLock} {g : AuthDb}

theorem Writing.stable (hw : Writing owner c u w h g) {g' : AuthDb}
    (hr : (accountDiscipline K).rely h g g') : Writing owner c u w h g' :=
  ⟨hw.locked, (hr owner hw.locked).credential.trans hw.committed,
    fun g'' hsame => hw.writes g'' ((hr owner hw.locked).trans hsame)⟩

/-- The commit of an operation that is, from every database with the credential, a sequence of
    steps of its user. -/
theorem Writing.commit (hw : Writing owner c u w h g) (hu : Touches owner u)
    (hsteps : ∀ g', credential g' owner = c → ConnectionKeys g'.connections →
      AccountSteps K owner g' (u g')) (a : GmailOutcome) :
    (accountDiscipline K).Commit a w h g := by
  intro g' hrely hinv
  have hsame : SameRows owner g g' := hrely owner hw.locked
  have htables := hw.writes g' hsame
  have hkeys : ConnectionKeys (w g').connections := by
    refine ConnectionKeys.congr hinv ?_
    rw [htables.connections, hu.names]
  have hothers : ∀ v, v ≠ owner → SameRows v g' (w g') :=
    fun v hv => (hu.others g' v hv).trans (htables.rows v)
  refine ⟨hkeys, fun v hl => hothers v fun hv => ?_, fun v => ?_⟩
  · rw [hv] at hl
    exact hl hw.locked
  · by_cases hv : v = owner
    · subst hv
      have hc : credential g' v = c := hsame.credential.trans hw.committed
      exact (hsteps g' hc hinv).trans ((htables.rows v).steps hkeys)
    · exact (hothers v hv).steps hkeys

/-- The rows a condition selects are those it selects of its user. -/
theorem filter_of_ofGmail {p : SourceConnection → Bool}
    (hp : ∀ c, p c = true → ofGmail owner c = true) (l : List SourceConnection) :
    l.filter p = (l.filter (ofGmail owner)).filter p := by
  rw [List.filter_filter]
  refine List.filter_congr fun c _ => ?_
  by_cases hpc : p c = true
  · rw [hpc, hp c hpc, Bool.and_self]
  · simp [hpc]

/-- An `UPDATE` of connections of the user: the rows it has found are those it would find at
    the commit. -/
theorem Writing.updateConnections (hw : Writing owner c u w h g) (hu : Touches owner u)
    {p : SourceConnection → Bool} (hp : ∀ c, p c = true → ofGmail owner c = true)
    (status : SourceConnectionStatus) :
    (accountDiscipline K).wp (updateConnections p status)
      (fun _ => Writing owner c (setStatus p status ∘ u)) w h g := by
  unfold Connections.updateConnections
  rw [wp_bind, wp_reads]
  intro g₁ hrely _
  have hw₁ : Writing owner c u w h g₁ := hw.stable hrely
  have hblind : ∀ id, (updateConnection p status id).Blind := fun _ => trivial
  refine (accountDiscipline K).wp_mono ?_ _ _ _ _
    ((accountDiscipline K).wp_of_blind accountDiscipline_mono (Tx.blind_each hblind _) w h g₁)
  rintro ⟨⟩ w' h' g₂ ⟨hrely₂, hheld, hrun⟩
  have hw₂ := hw₁.stable hrely₂
  refine ⟨hheld _ hw₁.locked, hw₂.committed, fun g' hsame => ?_⟩
  have hsame₁ : SameRows owner g₁ g' := (hrely₂ owner hw₁.locked).trans hsame
  have htables := hw₁.writes g' hsame₁
  -- the rows found in the session's view are the rows of the view at the commit
  have hfound : (w g₁).connections.filter p = (w g').connections.filter p := by
    rw [(hw₁.writes g₁ (SameRows.refl owner g₁)).connections, htables.connections,
      filter_of_ofGmail hp, filter_of_ofGmail hp (u g').connections,
      (hu.own g₁ g' hsame₁).connections]
  have hat := hrun g'
  rw [run_each_updateConnection, hfound, withStatus_found] at hat
  obtain ⟨-, hat⟩ := Prod.mk.inj (Except.ok.inj hat)
  rw [← hat]
  refine ⟨htables.credentials, ?_⟩
  show withStatus p status (w g').connections = withStatus p status (u g').connections
  rw [htables.connections]

/-- The row of a user, put under its lock. -/
theorem Writing.of_put (hl : .credential owner ∈ h) (hc : credential g owner = c)
    (c' : GmailCredential) : Writing owner c (putCredential c') (putCredential c' ∘ id) h g :=
  ⟨hl, hc, fun _ _ => ⟨rfl, rfl⟩⟩

/-- Deleting states leaves what the session writes to the other tables. -/
theorem Writing.deleteStates (hw : Writing owner c u w h g) (p : OAuthState → Bool) :
    (accountDiscipline K).wp (deleteStates p) (fun _ => Writing owner c u) w h g := by
  refine (accountDiscipline K).wp_of_kept ?_ ?_ ?_ (writes_deleteStates p) w h g hw
  · exact fun w h g g' hr _ hw => hw.stable hr
  · intro v w h g hv hw
    exact ⟨hw.locked, hw.committed, fun g' hsame => (hw.writes g' hsame).trans (hv (w g'))⟩
  · exact fun l w h g hw => ⟨List.mem_cons_of_mem l hw.locked, hw.committed, hw.writes⟩

end Writing

/-- A commit that has written no credential and no connection. -/
theorem commit_of_statesOnly {w : AuthDb → AuthDb} (hw : StatesOnly w) (a : GmailOutcome)
    (h : List AuthLock) (g : AuthDb) : (accountDiscipline K).Commit a w h g := by
  intro g' _ hinv
  have htables := hw g'
  have hkeys : ConnectionKeys (w g').connections := by
    rw [htables.connections]
    exact hinv
  exact ⟨hkeys, fun v _ => htables.rows v, fun v => (htables.rows v).steps hkeys⟩

/-! ### The transactions, alone -/

/-- The row an upsert of a callback leaves. -/
def Grant.upserted (grant : Grant) (owner : Uuid) : Option GmailCredential → GmailCredential
  | none => grant.credential owner
  | some c => { grant.credential owner with lastSyncedAt := c.lastSyncedAt }

theorem Grant.upserted_userId (grant : Grant) (owner : Uuid) (c : Option GmailCredential) :
    (grant.upserted owner c).userId = owner := by
  cases c <;> rfl

/-- The connections of a callback's account. -/
def ofAccount (owner : Uuid) (grant : Grant) (c : SourceConnection) : Bool :=
  ofGmail owner c && c.connectionKey == grant.accountKey

theorem ofAccount_ofGmail {grant : Grant} (c : SourceConnection)
    (h : ofAccount owner grant c = true) : ofGmail owner c = true := (Bool.and_eq_true_iff.1 h).1

/-- What a callback does to the rows of its user. -/
def storing (owner : Uuid) (grant : Grant) (c : Option GmailCredential) : AuthDb → AuthDb :=
  setStatus (ofAccount owner grant) .active ∘
    (setStatus (ofGmail owner) .disconnected ∘ putCredential (grant.upserted owner c))

/-- What a disconnect at a time does to them. -/
def disconnecting (owner : Uuid) (t : Instant) : AuthDb → AuthDb :=
  setStatus (ofGmail owner) .disconnected ∘ putCredential (tombstone owner t)

theorem touches_storing (grant : Grant) (c : Option GmailCredential) :
    Touches owner (storing owner grant c) :=
  (touches_setStatus ofAccount_ofGmail .active).comp
    ((touches_setStatus (fun _ h => h) .disconnected).comp
      (touches_putCredential (grant.upserted_userId owner c)))

theorem touches_disconnecting (t : Instant) : Touches owner (disconnecting owner t) :=
  (touches_setStatus (fun _ h => h) .disconnected).comp (touches_putCredential rfl)

/-- A callback that is not cancelled. -/
theorem run_storeCredential {row : OAuthState} (howner : row.userId = some owner) (grant : Grant)
    {g : AuthDb} (hacc : (credential g owner).all (accepts · row) = true) :
    (storeCredential row grant).run g = .ok ((), storing owner grant (credential g owner) g) := by
  have hupsert : (upsertCredential row grant owner).run g =
      .ok ((), putCredential (grant.upserted owner (credential g owner)) g) := by
    unfold upsertCredential
    simp only [Tx.run_bind, Tx.run_acquire, Tx.run_reads]
    cases hc : credential g owner with
    | none => rfl
    | some c =>
      rw [hc, Option.all_some] at hacc
      dsimp only
      rw [if_pos hacc]
      rfl
  unfold storeCredential
  rw [howner]
  simp only [Tx.run_bind, hupsert, run_updateConnections]
  rfl

/-- An operation on a credential whose attempt settles. -/
theorem run_runGmail {F : Fernet} {settings : GmailSettings}
    (hconfigured : settings.configured = true) {request : GmailRequest} {c c' : GmailCredential}
    {response : Except AuthError GmailResponse} {g : AuthDb}
    (hc : credential g request.owner = some c)
    (hsettle : settle (attempt F settings request c) = .ok (c', response)) :
    (runGmail F settings request).run g =
      .ok ((grantOf c' != grantOf c, response), putCredential c' g) := by
  unfold runGmail operate
  rw [if_pos hconfigured]
  simp only [Tx.run_bind, run_lockCredential, hc, hsettle, Tx.run_modify, Tx.run_pure]

/-- The record of a timeout in a credential. -/
theorem run_markTimedOut {c : GmailCredential} {g : AuthDb}
    (hc : (credential g owner).filter timesOut = some c) :
    (markTimedOut owner).run g = .ok ((), putCredential (GmailCredential.timedOut c) g) := by
  unfold markTimedOut
  simp only [Tx.run_bind, Tx.run_reads, Tx.run_acquire, hc, Tx.run_modify]

/-! ### The transactions, in a session -/

/-- The upsert of a callback, where it is not cancelled. -/
theorem writing_upsertCredential (row : OAuthState) (grant : Grant) (g : AuthDb) :
    (accountDiscipline K).wp (upsertCredential row grant owner) (fun _ w h g => ∃ c,
      c.all (accepts · row) = true ∧
      Writing owner c (putCredential (grant.upserted owner c)) w h g) id [] g := by
  unfold upsertCredential
  rw [wp_bind, wp_acquire]
  intro g₁ _ _
  rw [wp_bind, wp_reads]
  intro g₂ _ _
  dsimp only [id]
  cases hc : credential g₂ owner with
  | none =>
    intro g₃ hrely _
    have hc₃ := (hrely owner List.mem_cons_self).credential.trans hc
    exact ⟨none, rfl, .of_put List.mem_cons_self hc₃ _⟩
  | some c =>
    by_cases hacc : accepts c row = true
    · simp only [hacc, if_true]
      intro g₃ hrely _
      have hc₃ := (hrely owner List.mem_cons_self).credential.trans hc
      exact ⟨some c, hacc, .of_put List.mem_cons_self hc₃ _⟩
    · simp only [hacc]
      trivial

/-- A callback does at its commit what it would do alone. -/
theorem safe_storeCredential {row : OAuthState} {grant : Grant} {account : PyStr}
    (hkey : grant.accountKey = K.digest account) (hcipher : grant.refreshCiphertext ≠ [])
    (o : Unit → GmailOutcome) (g : AuthDb) :
    (accountDiscipline K).Safe (o <$> storeCredential row grant) id [] g := by
  refine ((accountDiscipline K).wp_map _ _ _ _ _ _).2 ?_
  unfold storeCredential
  cases howner : row.userId with
  | none => trivial
  | some owner =>
    refine (accountDiscipline K).wp_seq (writing_upsertCredential row grant g) ?_
    rintro ⟨⟩ w h g₁ ⟨c, hacc, hw⟩
    have hput := touches_putCredential (grant.upserted_userId owner c)
    have hall : ∀ r, ofGmail owner r = true → ofGmail owner r = true := fun _ hr => hr
    refine (accountDiscipline K).wp_seq (hw.updateConnections hput hall .disconnected) ?_
    rintro ⟨⟩ w h g₂ hw
    refine (accountDiscipline K).wp_mono ?_ _ _ _ _
      (hw.updateConnections ((touches_setStatus hall .disconnected).comp hput) ofAccount_ofGmail
        .active)
    rintro ⟨⟩ w h g₃ hw
    refine hw.commit (touches_storing grant c) (fun g' hc _ => ?_) _
    subst hc
    exact .single (.callback g' _ row grant account howner hkey hcipher
      (run_storeCredential howner grant hacc))

/-- The upsert of a tombstone, of a time its session has read. -/
theorem writing_putTombstone (h : List AuthLock) (g : AuthDb) :
    (accountDiscipline K).wp (putTombstone owner) (fun t w h g => ∃ c,
      Writing owner c (putCredential (tombstone owner t)) w h g) id h g := by
  unfold putTombstone
  rw [wp_bind, wp_reads]
  intro g₁ _ _
  rw [wp_bind, wp_acquire]
  intro g₂ _ _
  rw [wp_bind, wp_reads]
  intro g₃ _ _
  dsimp only [id]
  cases hc : credential g₃ owner with
  | none =>
    intro g₄ hrely _
    have hc₄ := (hrely owner List.mem_cons_self).credential.trans hc
    exact ⟨none, .of_put List.mem_cons_self hc₄ _⟩
  | some c =>
    intro g₄ hrely₄ _ g₅ hrely₅ _
    have hc₄ := (hrely₄ owner List.mem_cons_self).credential.trans hc
    have hc₅ := (hrely₅ owner List.mem_cons_self).credential.trans hc₄
    exact ⟨some c, .of_put List.mem_cons_self hc₅ _⟩

theorem putCredential_clock (c : GmailCredential) (t : Instant) (g : AuthDb) :
    putCredential c { g with clock := t } = { putCredential c g with clock := t } := by
  unfold putCredential
  rw [show credential { g with clock := t } c.userId = credential g c.userId from rfl]
  cases credential g c.userId with
  | none => rfl
  | some c₀ => rfl

/-- A disconnect at another time than the one of the database. -/
theorem steps_disconnecting (t : Instant) {g : AuthDb} (hkeys : ConnectionKeys g.connections) :
    AccountSteps K owner g (disconnecting owner t g) := by
  obtain ⟨r, g', hrun, hcredentials, hconnections⟩ :=
    run_disconnect owner false { g with clock := t }
  have hclock : SameTables g { g with clock := t } := ⟨rfl, rfl⟩
  rw [putCredential_clock] at hcredentials
  have htables : SameTables g' (disconnecting owner t g) := by
    refine ⟨hcredentials.symm, ?_⟩
    rw [hconnections]
    show withStatus (ofGmail owner) .disconnected
      (putCredential (tombstone owner t) g).connections = _
    rw [putCredential_connections]
  have hkeys' : ConnectionKeys (disconnecting owner t g).connections :=
    hkeys.congr ((touches_disconnecting t).names g)
  -- the clock may have moved since the session read it
  exact ((hclock.rows owner).steps hkeys).trans
    (.trans (.single (.disconnect _ g' false r hrun)) ((htables.rows owner).steps hkeys'))

/-- A disconnect does at its commit what it would do alone at the time of its tombstone. -/
theorem safe_disconnecting (providerRevokes : Bool) (o : Bool × Instant → GmailOutcome)
    (g : AuthDb) : (accountDiscipline K).Safe (o <$> disconnect owner providerRevokes) id [] g := by
  refine ((accountDiscipline K).wp_map _ _ _ _ _ _).2 ?_
  unfold disconnect
  have hlock : (accountDiscipline K).wp (lockCredential owner) (fun _ w _ _ => w = id) id [] g := by
    unfold lockCredential
    intro g₁ _ _
    dsimp only [id]
    cases credential g₁ owner with
    | none => rfl
    | some c => exact fun g₂ _ _ g₃ _ _ => rfl
  refine (accountDiscipline K).wp_seq hlock ?_
  rintro c w h g₁ rfl
  refine (accountDiscipline K).wp_seq (writing_putTombstone h g₁) ?_
  rintro t w h g₂ ⟨c', hw⟩
  refine (accountDiscipline K).wp_seq (hw.deleteStates _) ?_
  rintro ⟨⟩ w h g₃ hw
  have hall : ∀ r, ofGmail owner r = true → ofGmail owner r = true := fun _ hr => hr
  have hput : Touches owner (putCredential (tombstone owner t)) := touches_putCredential rfl
  refine (accountDiscipline K).wp_seq (hw.updateConnections hput hall .disconnected) ?_
  rintro ⟨⟩ w h g₄ hw
  exact hw.commit (touches_disconnecting t) (fun g' _ hkeys => steps_disconnecting t hkeys) _

/-- What is left of an operation that has locked its credential. -/
theorem safe_operatingOn {request : GmailRequest} {c : GmailCredential} {h : List AuthLock}
    {g : AuthDb} (hl : .credential request.owner ∈ h) (hc : credential g request.owner = some c)
    (hsteps : ∀ c' response g',
      settle (attempt K.fernet K.settings request c) = .ok (c', response) →
      credential g' request.owner = some c →
      AccountSteps K request.owner g' (putCredential c' g')) :
    (accountDiscipline K).Safe (operating K.fernet K.settings request c) id h g := by
  unfold operating operate
  cases hsettle : settle (attempt K.fernet K.settings request c) with
  | error e => trivial
  | ok committed =>
    obtain ⟨c', response⟩ := committed
    have howner : c'.userId = request.owner := by
      rw [committed_userId hsettle]
      exact Table.key_of_get hc
    intro g₁ hrely _
    have hc₁ := (hrely _ hl).credential.trans hc
    exact (Writing.of_put hl hc₁ c').commit (touches_putCredential howner)
      (fun g' hc' _ => hsteps c' response g' hsettle hc') _

/-- An operation does at its commit what it would do alone. -/
theorem safe_operations (request : GmailRequest) (g : AuthDb) :
    (accountDiscipline K).Safe (operation K.fernet K.settings request) id [] g := by
  unfold operation
  refine ((accountDiscipline K).wp_map _ _ _ _ _ _).2 ?_
  unfold runGmail
  by_cases hconfigured : K.settings.configured = true
  · rw [if_pos hconfigured]
    intro g₁ _ _
    dsimp only [id]
    cases credential g₁ request.owner with
    | none => trivial
    | some _ =>
      intro g₂ _ _ g₃ _ _
      dsimp only [id]
      cases hc : credential g₃ request.owner with
      | none => trivial
      | some c =>
        refine ((accountDiscipline K).wp_map _ _ _ _ _ _).1
          (safe_operatingOn List.mem_cons_self hc fun c' response g' hsettle hc' => ?_)
        exact .single (.runs g' _ request _ rfl (run_runGmail hconfigured hc' hsettle))
  · rw [if_neg hconfigured]
    trivial

/-- A timeout is recorded at its commit as it would be alone. -/
theorem safe_markTimedOut (o : Unit → GmailOutcome) (g : AuthDb) :
    (accountDiscipline K).Safe (o <$> markTimedOut owner) id [] g := by
  refine ((accountDiscipline K).wp_map _ _ _ _ _ _).2 ?_
  have hnothing : StatesOnly id := fun _ => ⟨rfl, rfl⟩
  unfold markTimedOut
  intro g₁ _ _
  dsimp only [id]
  cases (credential g₁ owner).filter timesOut with
  | none => exact commit_of_statesOnly hnothing _ _ _
  | some _ =>
    intro g₂ _ _ g₃ _ _
    dsimp only [id]
    cases hfound : (credential g₃ owner).filter timesOut with
    | none => exact commit_of_statesOnly hnothing _ _ _
    | some c =>
      obtain ⟨hc, htimes⟩ := Option.filter_eq_some_iff.1 hfound
      intro g₄ hrely _
      have hc₄ := (hrely owner List.mem_cons_self).credential.trans hc
      have hcuser : c.userId = owner := Table.key_of_get hc
      have howner : (GmailCredential.timedOut c).userId = owner := hcuser
      refine (Writing.of_put List.mem_cons_self hc₄ (GmailCredential.timedOut c)).commit
        (touches_putCredential howner) (fun g' hc' _ => ?_) _
      have hfound' : (credential g' owner).filter timesOut = some c :=
        Option.filter_eq_some_iff.2 ⟨hc', htimes⟩
      exact .single (.timedOut g' _ (run_markTimedOut hfound'))

/-- Writing states. -/
theorem safe_statesOnly {α : Type} {p : AuthTx α} (hp : p.Writes StatesOnly) (o : α → GmailOutcome)
    (g : AuthDb) : (accountDiscipline K).Safe (o <$> p) id [] g := by
  refine ((accountDiscipline K).wp_map _ _ _ _ _ _).2 ?_
  refine (accountDiscipline K).wp_mono ?_ p _ _ _
    ((accountDiscipline K).wp_of_writes (fun _ _ hu hw => hu.comp hw) hp id [] g
      fun _ => ⟨rfl, rfl⟩)
  exact fun a w h g hw => commit_of_statesOnly hw _ h g

end Sessions

/-! ### The system -/

section System

variable (K : AccountConfig) (auth : AuthSettings)

/-- The transactions sessions may open.  A callback stores the grant of the account that the
    provider has named for a state it has consumed. -/
inductive AccountAdmitted (log : List GmailOutcome) : AuthTx GmailOutcome → Prop
  | connect (owner : Uuid) (secrets : StateSecrets) (requestedAt now : Instant) :
      AccountAdmitted log (GmailOutcome.flow <$>
        (Outcome.connected <$> connect K.digest auth owner secrets requestedAt now))
  | consume (owner : Uuid) (state browser : PyStr) (now : Instant) :
      AccountAdmitted log (GmailOutcome.flow <$>
        (Outcome.consumed <$> consume K.digest owner state browser now))
  | store (row : OAuthState) (grant : Grant) (account : PyStr) : .consumed row ∈ flows log →
      grant.accountKey = K.digest account → grant.refreshCiphertext ≠ [] →
      AccountAdmitted log (GmailOutcome.flow <$>
        ((fun _ => Outcome.stored row) <$> storeCredential row grant))
  | disconnect (owner : Uuid) (providerRevokes : Bool) :
      AccountAdmitted log (GmailOutcome.flow <$>
        ((fun r => Outcome.disconnected owner r.1 r.2) <$> disconnect owner providerRevokes))
  | run (request : GmailRequest) : AccountAdmitted log (operation K.fernet K.settings request)
  | timeout (owner : Uuid) :
      AccountAdmitted log ((fun _ => GmailOutcome.timedOut owner) <$> markTimedOut owner)

variable {ι : Type} [DecidableEq ι]

/-- A sync that holds a credential, which its lock has kept, and whose refresh has returned: it
    is in `sync_connector`. -/
structure InSync (s : GmailState ι) (i : ι) (request : GmailRequest) (c : GmailCredential) :
    Prop where
  session : s.sessions i =
    some ⟨operating K.fernet K.settings request c, id, [.credential request.owner]⟩
  sync : request.sync = true
  holds : credential s.db request.owner = some c
  refreshed : ∃ c' access,
    refreshAccess K.fernet K.settings.keyring request.draw request.answer c = (c', .ok access)

/-- One step of the system: of a session, of its surroundings, or a transaction of the
    ingestion service that commits inside a sync. -/
inductive AccountsStep (s : GmailState ι) : GmailState ι → Prop
  | session {s' : GmailState ι} {ev : Event AuthError GmailOutcome} :
      Step (AccountAdmitted K auth) AccountsElsewhere s ev s' → AccountsStep s s'
  | ensures (i : ι) (request : GmailRequest) (c : GmailCredential) (d d' : Db) (fresh : FreshIds)
      (connection : SourceConnection) : InSync K s i request c → d.connections = s.db.connections →
      (Ingestion.ensureConnection K.core fresh request.owner K.connector c.accountKey).run d =
        .ok (connection, d') →
      AccountsStep s { s with db := { s.db with connections := d'.connections } }
  | cursor (i : ι) (request : GmailRequest) (c : GmailCredential) (d d' : Db)
      (connectionId : Uuid) (cursor : Fields) (syncedAt : Instant) : InSync K s i request c →
      d.connections = s.db.connections →
      (Ingestion.updateConnectionCursor request.owner connectionId cursor syncedAt).run d =
        .ok ((), d') →
      AccountsStep s { s with db := { s.db with connections := d'.connections } }

/-- The states the system reaches from an empty database. -/
inductive AccountsReached : GmailState ι → Prop
  | empty (clock : Instant) : AccountsReached ⟨⟨[], [], [], clock⟩, [], fun _ => none⟩
  | step {s s' : GmailState ι} : AccountsReached s → AccountsStep K auth s s' → AccountsReached s'

end System

section Refinement

variable {K : AccountConfig} {auth : AuthSettings} {ι : Type}

/-! ### The commits inside a sync -/

/-- A commit inside a sync of a user: the keys stay, and so do the connections of others. -/
structure Inner (owner : Uuid) (l l' : List SourceConnection) : Prop where
  keys : ConnectionKeys l'
  others : ∀ v, v ≠ owner → l'.filter (ofGmail v) = l.filter (ofGmail v)

theorem inner_ensureConnection {owner : Uuid} {C : Reconciliation.Config} {fresh : FreshIds}
    {connector : Ingestion.Connector} {key : PyStr} {d d' : Db} {connection : SourceConnection}
    (hkeys : ConnectionKeys d.connections)
    (hrun : (Ingestion.ensureConnection C fresh owner connector key).run d = .ok (connection, d')) :
    Inner owner d.connections d'.connections := by
  refine ⟨ensureConnection_keys hkeys hrun, fun v hv => ?_⟩
  rcases ensureConnection_adds _ _ hrun with hsame | ⟨a, hadd, howner, -⟩
  · rw [hsame]
  · have hnot : ¬ ofGmail v a = true := by
      simp only [ofGmail, howner, Bool.and_eq_true, beq_iff_eq]
      exact fun h => hv h.1.symm
    rw [hadd, List.filter_append, List.filter_cons_of_neg hnot, List.filter_nil, List.append_nil]

theorem inner_updateConnectionCursor {owner id : Uuid} {cursor : Fields} {syncedAt : Instant}
    {d d' : Db} (hkeys : ConnectionKeys d.connections)
    (hrun : (Ingestion.updateConnectionCursor owner id cursor syncedAt).run d = .ok ((), d')) :
    Inner owner d.connections d'.connections := by
  obtain ⟨f, hmap, hf, hkeeps⟩ := updateConnectionCursor_keeps _ _ hrun
  rw [hmap]
  refine ⟨hkeys.congr ?_, fun v hv => ?_⟩
  · rw [List.map_map]
    exact List.map_congr_left fun a _ => (hf a).1
  · -- a row keeps its user and its connector
    have hgmail : ofGmail v ∘ f = ofGmail v := by
      funext c
      obtain ⟨-, hname⟩ := Prod.mk.inj (hf c).1
      obtain ⟨huser, hname⟩ := Prod.mk.inj hname
      obtain ⟨htype, -⟩ := Prod.mk.inj hname
      unfold ofGmail
      rw [Function.comp_apply, huser, htype]
    rw [List.filter_map, hgmail]
    conv_rhs => rw [← List.map_id (d.connections.filter (ofGmail v))]
    refine List.map_congr_left fun c hc => ?_
    obtain ⟨hmem, hof⟩ := List.mem_filter.1 hc
    simp only [ofGmail, Bool.and_eq_true, beq_iff_eq] at hof
    refine hkeeps hkeys c hmem fun howner => hv ?_
    rw [← hof.1, howner]

/-! ### The system refines the operations of each user -/

/-- These are transactions of `GmailAdmitted`, whose runs decide where a rotated token survives. -/
theorem AccountAdmitted.gmailAdmitted {log : List GmailOutcome} {p : AuthTx GmailOutcome}
    (hp : AccountAdmitted K auth log p) :
    GmailAdmitted K.digest auth K.fernet K.settings log p := by
  cases hp with
  | connect owner secrets requestedAt now => exact .flow _ (.connect owner secrets requestedAt now)
  | consume owner state browser now => exact .flow _ (.consume owner state browser now)
  | store row grant account hrow _ _ => exact .flow _ (.store row grant hrow)
  | disconnect owner providerRevokes => exact .flow _ (.disconnect owner providerRevokes)
  | run request => exact .run request
  | timeout owner => exact .timeout owner

/-- Each of them does at its commit what it would do alone. -/
theorem safe_accountAdmitted {log : List GmailOutcome} {p : AuthTx GmailOutcome}
    (hp : AccountAdmitted K auth log p) (g : AuthDb) : (accountDiscipline K).Safe p id [] g := by
  cases hp with
  | connect owner secrets requestedAt now =>
    rw [Functor.map_map]
    exact safe_statesOnly (writes_connect K.digest auth owner secrets requestedAt now) _ g
  | consume owner state browser now =>
    rw [Functor.map_map]
    exact safe_statesOnly (writes_consume K.digest owner state browser now) _ g
  | store row grant account _ hkey hcipher =>
    rw [Functor.map_map]
    exact safe_storeCredential hkey hcipher _ g
  | disconnect owner providerRevokes =>
    rw [Functor.map_map]
    exact safe_disconnecting providerRevokes _ g
  | run request => exact safe_operations request g
  | timeout owner => exact safe_markTimedOut _ g

/-- A sync that goes on ends as a step of its user, whatever it has committed inside. -/
theorem InSync.steps {s : GmailState ι} {i : ι} {request : GmailRequest} {c : GmailCredential}
    (hsync : InSync K s i request c) {c' : GmailCredential}
    {response : Except AuthError GmailResponse} {g : AuthDb}
    (hsettle : settle (attempt K.fernet K.settings request c) = .ok (c', response))
    (hc : credential g request.owner = some c) :
    AccountSteps K request.owner g (putCredential c' g) := by
  obtain ⟨c₁, access, hrefresh⟩ := hsync.refreshed
  exact .trans (.single (.syncs g request c c₁ access rfl hc hrefresh))
    (.single (.ends g request c c' response hsettle))

/-- A commit inside a sync changes connections of its user alone, and keeps the keys: the
    state stays good. -/
theorem InSync.good {s : GmailState ι} (hg : (accountDiscipline K).Good s) {i : ι}
    {request : GmailRequest} {c : GmailCredential} (hsync : InSync K s i request c)
    {connections : List SourceConnection}
    (hinner : Inner request.owner s.db.connections connections) :
    (accountDiscipline K).Good { s with db := { s.db with connections := connections } } where
  inv := hinner.keys
  safe := by
    intro j t ht
    by_cases hj : j = i
    · subst hj
      obtain rfl := Option.some.inj (hsync.session.symm.trans ht)
      exact safe_operatingOn List.mem_cons_self hsync.holds
        fun c' response g' hsettle hc => hsync.steps hsettle hc
    · -- another session holds other credentials
      refine (accountDiscipline K).wp_stable (accountDiscipline K).commit_stable _ _ _ _ _ ?_
        hinner.keys (hg.safe j t ht)
      intro v hl
      refine ⟨rfl, hinner.others v fun hv => ?_⟩
      rw [hv] at hl
      exact hg.excl j i t _ hj ht hsync.session _ hl List.mem_cons_self
  excl := hg.excl

/-- A commit inside a sync, for every user. -/
theorem InSync.refines {s : GmailState ι} {i : ι} {request : GmailRequest} {c : GmailCredential}
    (hsync : InSync K s i request c) {connections : List SourceConnection}
    (hinner : Inner request.owner s.db.connections connections)
    (hstep : AccountStep K request.owner ⟨s.db, some (request, c)⟩
      ⟨{ s.db with connections := connections }, some (request, c)⟩) (owner : Uuid) :
    AccountSteps K owner s.db { s.db with connections := connections } := by
  by_cases howner : owner = request.owner
  · subst howner
    obtain ⟨c₁, access, hrefresh⟩ := hsync.refreshed
    -- between its inner commits the sync counts as one that ends without its own
    exact .trans (.single (.syncs s.db request c c₁ access rfl hsync.holds hrefresh))
      (.trans (.single hstep) (.single (.lost _ request c)))
  · exact SameRows.steps ⟨rfl, hinner.others owner howner⟩ hinner.keys

variable [DecidableEq ι]

/-- One step of the system from a good state: the state stays good, and the step is a sequence
    of steps of each user's operations. -/
theorem accounts_steps {s s' : GmailState ι} (hg : (accountDiscipline K).Good s)
    (hstep : AccountsStep K auth s s') :
    (accountDiscipline K).Good s' ∧ ∀ owner, AccountSteps K owner s.db s'.db := by
  cases hstep with
  | @session _ ev hstep =>
    refine ⟨hg.step (fun p hp => safe_accountAdmitted hp _) hstep, fun owner => ?_⟩
    cases ev with
    | commit a =>
      obtain ⟨⟨h, -, hsteps⟩, -⟩ := hg.commit_post hstep
      exact hsteps owner
    | environment =>
      cases hstep with
      | env g he => exact (he.rows owner).steps he.keys
    | silent =>
      rw [hstep.db_eq (by simp) (by simp)]
      exact .refl
    | rollback e =>
      rw [hstep.db_eq (by simp) (by simp)]
      exact .refl
  | ensures i request c d d' fresh connection hsync hd hrun =>
    have hinner := inner_ensureConnection (hd ▸ hg.inv) hrun
    rw [hd] at hinner
    exact ⟨hsync.good hg hinner, hsync.refines hinner
      (.ensures s.db request c d d' fresh connection hd hrun)⟩
  | cursor i request c d d' connectionId cursor syncedAt hsync hd hrun =>
    have hinner := inner_updateConnectionCursor (hd ▸ hg.inv) hrun
    rw [hd] at hinner
    exact ⟨hsync.good hg hinner, hsync.refines hinner
      (.cursor s.db request c d d' connectionId cursor syncedAt hd hrun)⟩

/-- Every reachable state is good. -/
theorem accounts_good {s : GmailState ι} (hs : AccountsReached K auth s) :
    (accountDiscipline K).Good s := by
  induction hs with
  | empty clock => exact ⟨⟨List.nodup_nil, List.nodup_nil⟩, by simp, by simp⟩
  | step _ hstep ih => exact (accounts_steps ih hstep).1

/-- **The order of a user's operations.**  Every database that the system reaches, its
    transactions interleaved statement by statement, is reached for every user by the user's
    operations one after the other. -/
theorem account_refined {s : GmailState ι} (hs : AccountsReached K auth s) (owner : Uuid) :
    AccountReached K owner ⟨s.db, none⟩ := by
  have hreached : ∀ {a a' : Account}, AccountReached K owner a →
      Relation.ReflTransGen (AccountStep K owner) a a' → AccountReached K owner a' := by
    intro a a' ha hsteps
    induction hsteps with
    | refl => exact ha
    | tail _ hstep ih => exact ih.step hstep
  induction hs with
  | empty clock => exact .empty clock
  | step hs hstep ih => exact hreached ih ((accounts_steps (accounts_good hs) hstep).2 owner)

/-- What holds of each user's credential and connections in every state of the system. -/
theorem accounts_valid (hF : K.fernet.Lawful)
    (hdigest : ∀ account, normalizeDisplayText K.core.platform.unicode (K.digest account) =
      K.digest account) {s : GmailState ι} (hs : AccountsReached K auth s) (owner : Uuid) :
    Account.Valid K.digest owner ⟨s.db, none⟩ :=
  account_valid hF hdigest (account_refined hs owner)

end Refinement

/-! ### A sync that has committed inside -/

/-- The states of one session, from the first request on. -/
def FlowAccounts : GmailState Unit → Prop := AccountsReached flowAccounts flowSettings

theorem flowAccounts_closed (s : GmailState Unit) (ev : Event AuthError GmailOutcome)
    (s' : GmailState Unit) (hs : FlowAccounts s)
    (hstep : Step (AccountAdmitted flowAccounts flowSettings) AccountsElsewhere s ev s') :
    FlowAccounts s' :=
  AccountsReached.step hs (.session hstep)

/-- A request of the flow runs alone. -/
theorem flowAccounts_request {g : AuthDb} {log : List GmailOutcome}
    (hs : FlowAccounts ⟨g, log, fun _ => none⟩) {p : AuthTx Outcome} {a : Outcome}
    (hp : AccountAdmitted flowAccounts flowSettings log (GmailOutcome.flow <$> p))
    (ha : p.returns (· == a) g = true) :
    FlowAccounts ⟨p.after g, log ++ [.flow a], fun _ => none⟩ := by
  obtain ⟨b, hrun, hb⟩ := Tx.run_of_returns ha
  obtain rfl := eq_of_beq hb
  have hmap : (GmailOutcome.flow <$> p).run g = .ok (.flow b, p.after g) := by
    rw [Tx.run_map, hrun]
  exact closed_finish flowAccounts_closed () _ id [] hmap
    (flowAccounts_closed _ _ _ hs (.begin () _ rfl hp))

/-- The callback of the flow stores the credential that its sync finds. -/
def flowStoreAccount : AuthTx Outcome :=
  (fun _ => Outcome.stored (flowState "A" "B" 0)) <$>
    storeCredential (flowState "A" "B" 0) flowConnectedGrant

/-- The account is connected. -/
def flowAccountDb : AuthDb :=
  flowStoreAccount.after ((flowConsume "A" "B" 10).after ((flowConnect "A" "B" 0).after flowStart))

theorem flowAccount_connected : ∃ log, FlowAccounts ⟨flowAccountDb, log, fun _ => none⟩ := by
  have hstart : FlowAccounts ⟨flowStart, [], fun _ => none⟩ := .empty (flowTime 0)
  have hconnect := flowAccounts_request hstart (a := .connected (flowState "A" "B" 0))
    (.connect 1 (flowSecrets "A" "B") (flowTime 0) (flowTime 0)) (by decide +kernel)
  have hconsume := flowAccounts_request hconnect (a := .consumed (flowState "A" "B" 0))
    (.consume 1 (urlsafe "B" 43) (urlsafe "A" 43) (flowTime 10)) (by decide +kernel)
  exact ⟨_, flowAccounts_request hconsume (a := .stored (flowState "A" "B" 0))
    (.store (flowState "A" "B" 0) flowConnectedGrant flowAddress (by simp [flows]) rfl
      (by decide +kernel)) (by decide +kernel)⟩

/-- A sync of the account that is in `sync_connector`. -/
def flowInSync (log : List GmailOutcome) : GmailState Unit :=
  ⟨flowAccountDb, log, Function.update (fun _ => none) () (some
    ⟨operating flowFernet flowGmail (flowSync (.ok [])) flowCredential, id, [.credential 1]⟩)⟩

theorem flowInSync_session (log : List GmailOutcome) : (flowInSync log).sessions () = some
    ⟨operating flowFernet flowGmail (flowSync (.ok [])) flowCredential, id, [.credential 1]⟩ := by
  simp [flowInSync]

/-- The system reaches a sync that is open and has added the active connection of its account. -/
theorem account_refined_sync : ∃ s : GmailState Unit, FlowAccounts s ∧ s.sessions () ≠ none ∧
    (∃ a ∈ s.db.connections, ofGmail 1 a = true ∧ a.status = .active) ∧
    AccountReached flowAccounts 1 ⟨s.db, none⟩ := by
  obtain ⟨log, hconnected⟩ := flowAccount_connected
  have hc : credential flowAccountDb (flowSync (.ok [])).owner = some flowCredential := by
    decide +kernel
  have hlocked : FlowAccounts (flowInSync log) :=
    operation_locks flowAccounts_closed hconnected rfl (.run (flowSync (.ok []))) hc ()
  have hsync : InSync flowAccounts (flowInSync log) () (flowSync (.ok [])) flowCredential := by
    obtain ⟨c', hrefresh⟩ := flowSync_refreshes
    exact ⟨flowInSync_session log, rfl, hc, c', _, hrefresh⟩
  obtain ⟨connection, hrun⟩ := Tx.run_of_commits (x := flowEnsure) (g := flowUsers)
    (by decide +kernel)
  have hconnections : flowUsers.connections = (flowInSync log).db.connections := by
    show [] = flowAccountDb.connections
    decide +kernel
  have hsynced := hlocked.step (.ensures () (flowSync (.ok [])) flowCredential flowUsers _ _
    connection hsync hconnections hrun)
  refine ⟨_, hsynced, by simp [flowInSync], ?_, account_refined hsynced 1⟩
  have hsome : ((flowEnsure.after flowUsers).connections.any fun a =>
      ofGmail 1 a && a.status == .active) = true := by decide +kernel
  simpa using hsome

end Expensea.Connections
