import Expensea.Connections.RotatedToken

namespace Expensea.Connections

open Txn Auth
open Txn.Tx (reads modify acquire throw each)

/-!
# Gmail connections — the active account

A user's credential and the source connections of the Gmail accounts the user has had.  Every
operation holds the credential row from its lock to its end, so the operations of one user
follow one another; only a sync commits in between, to the connection of its account.  That
the interleaved transactions come to this is `account_refined` of `AccountSystem`.

* `AccountStep` — the operations of one user, a timed out sync and its record among them;
* `Account.Valid` — the credential's status tells whether it has a grant, and the only
  connection that may be active is the one of the credential's account;
* `account_valid` — the invariant in every state reached.
-/

/-! ### Updates of connections -/

/-- One update of all the rows that satisfy a condition. -/
def withStatus (p : SourceConnection → Bool) (status : SourceConnectionStatus)
    (connections : List SourceConnection) : List SourceConnection :=
  connections.map fun c => if p c then { c with status := status } else c

theorem run_each_updateConnection (p : SourceConnection → Bool) (status : SourceConnectionStatus)
    (ids : List Uuid) (g : AuthDb) :
    (each ids (updateConnection p status)).run g = .ok ((), { g with
      connections := withStatus (fun c => p c && ids.contains c.id) status g.connections }) := by
  induction ids generalizing g with
  | nil =>
    have hnone : withStatus (fun c => p c && ([] : List Uuid).contains c.id) status g.connections =
        g.connections := by
      unfold withStatus
      simp
    rw [hnone]
    rfl
  | cons id ids ih =>
    show (each ids (updateConnection p status)).run { g with
      connections := Table.set SourceConnection.id id
        (fun c => if p c then { c with status := status } else c) g.connections } = _
    rw [ih]
    congr 3
    unfold withStatus Table.set
    rw [List.map_map]
    refine List.map_congr_left fun c _ => ?_
    -- a row is updated by its id first, or by an id later in the list
    by_cases hpc : p c = true
    · by_cases hid : c.id = id
      · simp [hpc, hid]
      · simp [hpc, hid]
    · simp [hpc]

/-- The rows that satisfy a condition are those with the ids of the rows that satisfy it. -/
theorem withStatus_found (p : SourceConnection → Bool) (status : SourceConnectionStatus)
    (connections : List SourceConnection) :
    withStatus (fun c => p c && ((connections.filter p).map SourceConnection.id).contains c.id)
      status connections = withStatus p status connections := by
  unfold withStatus
  refine List.map_congr_left fun c hc => ?_
  by_cases hpc : p c = true
  · have hmem : c.id ∈ (connections.filter p).map SourceConnection.id :=
      List.mem_map_of_mem (List.mem_filter.2 ⟨hc, hpc⟩)
    have hcontains := List.contains_iff_mem.2 hmem
    simp only [hpc, hcontains, Bool.and_self]
  · simp [hpc]

/-- The statement updates every row that satisfies its condition. -/
theorem run_updateConnections (p : SourceConnection → Bool) (status : SourceConnectionStatus)
    (g : AuthDb) :
    (updateConnections p status).run g = .ok ((), { g with
      connections := withStatus p status g.connections }) := by
  show (each ((g.connections.filter p).map SourceConnection.id)
    (updateConnection p status)).run g = _
  rw [run_each_updateConnection, withStatus_found]

theorem mem_withStatus {p : SourceConnection → Bool} {status : SourceConnectionStatus}
    {connections : List SourceConnection} {c : SourceConnection} :
    c ∈ withStatus p status connections ↔
      ∃ c₀ ∈ connections, c = if p c₀ then { c₀ with status := status } else c₀ := by
  simp only [withStatus, List.mem_map, eq_comm]

/-- What the unique keys of `source_connections` are about: the id of a row, and its user,
    connector and key. -/
def connectionName (c : SourceConnection) : Uuid × Uuid × ConnectorType × PyStr :=
  (c.id, c.userId, c.connectorType, c.connectionKey)

theorem map_name_withStatus (p : SourceConnection → Bool) (status : SourceConnectionStatus)
    (connections : List SourceConnection) :
    (withStatus p status connections).map connectionName = connections.map connectionName := by
  unfold withStatus
  rw [List.map_map]
  refine List.map_congr_left fun c _ => ?_
  show connectionName (if p c then { c with status := status } else c) = connectionName c
  split <;> rfl

/-! ### One user -/

/-- A Gmail connection of the user. -/
def ofGmail (owner : Uuid) (c : SourceConnection) : Bool :=
  c.userId == owner && c.connectorType == .gmail

/-- The unique keys of `source_connections`. -/
structure ConnectionKeys (connections : List SourceConnection) : Prop where
  ids : ((connections.map connectionName).map Prod.fst).Nodup
  keys : ((connections.map connectionName).map Prod.snd).Nodup

/-- Rows keep their keys where they keep their names. -/
theorem ConnectionKeys.congr {l l' : List SourceConnection} (h : ConnectionKeys l)
    (hnames : l'.map connectionName = l.map connectionName) : ConnectionKeys l' where
  ids := by rw [hnames]; exact h.ids
  keys := by rw [hnames]; exact h.keys

/-- A row is the only one with its user, connector and key. -/
theorem ConnectionKeys.eq {l : List SourceConnection} (h : ConnectionKeys l)
    {a b : SourceConnection} (ha : a ∈ l) (hb : b ∈ l)
    (hab : (connectionName a).2 = (connectionName b).2) : a = b := by
  have hkeys := h.keys
  rw [List.map_map] at hkeys
  exact List.inj_on_of_nodup_map hkeys ha hb hab

/-- A new row under a key and an id that no row has. -/
theorem ConnectionKeys.append {l : List SourceConnection} (h : ConnectionKeys l)
    {a : SourceConnection} (hid : ∀ c ∈ l, c.id ≠ a.id)
    (hkey : ∀ c ∈ l, (connectionName c).2 ≠ (connectionName a).2) : ConnectionKeys (l ++ [a]) where
  ids := by
    rw [List.map_append, List.map_append]
    refine List.Nodup.append h.ids (List.nodup_singleton _) ?_
    intro id hmem hsingle
    rw [List.map_map, List.mem_map] at hmem
    obtain ⟨c, hc, rfl⟩ := hmem
    exact hid c hc (List.mem_singleton.1 hsingle)
  keys := by
    rw [List.map_append, List.map_append]
    refine List.Nodup.append h.keys (List.nodup_singleton _) ?_
    intro key hmem hsingle
    rw [List.map_map, List.mem_map] at hmem
    obtain ⟨c, hc, rfl⟩ := hmem
    exact hkey c hc (List.mem_singleton.1 hsingle)

/-- The database as a user's Gmail operations see it, and the sync that holds the credential
    row: its request, and the credential it has locked. -/
structure Account where
  db : AuthDb
  syncing : Option (GmailRequest × GmailCredential)

/-- What a user's operations are about. -/
structure AccountConfig where
  fernet : Fernet
  settings : GmailSettings
  /-- `digest(account.strip().lower())` -/
  digest : PyStr → PyStr
  core : Reconciliation.Config
  /-- `GmailReceiptConnector` -/
  connector : Ingestion.Connector

section Steps

variable (K : AccountConfig) (owner : Uuid)

/-- One step of the user's operations.  The inner transactions of a sync are those of the
    ingestion service, on the same table of connections. -/
inductive AccountStep : Account → Account → Prop where
  /-- The second transaction of a callback. -/
  | callback (g g' : AuthDb) (row : OAuthState) (grant : Grant) (account : PyStr) :
      row.userId = some owner → grant.accountKey = K.digest account →
      grant.refreshCiphertext ≠ [] → (storeCredential row grant).run g = .ok ((), g') →
      AccountStep ⟨g, none⟩ ⟨g', none⟩
  | disconnect (g g' : AuthDb) (providerRevokes : Bool) (r : Bool × Instant) :
      (Connections.disconnect owner providerRevokes).run g = .ok (r, g') →
      AccountStep ⟨g, none⟩ ⟨g', none⟩
  /-- An operation without an inner transaction. -/
  | runs (g g' : AuthDb) (request : GmailRequest) (r : Bool × Except AuthError GmailResponse) :
      request.owner = owner → (runGmail K.fernet K.settings request).run g = .ok (r, g') →
      AccountStep ⟨g, none⟩ ⟨g', none⟩
  /-- A sync whose refresh has returned goes on to `sync_connector`. -/
  | syncs (g : AuthDb) (request : GmailRequest) (c c' : GmailCredential) (access : PyStr) :
      request.owner = owner → credential g owner = some c →
      refreshAccess K.fernet K.settings.keyring request.draw request.answer c = (c', .ok access) →
      AccountStep ⟨g, none⟩ ⟨g, some (request, c)⟩
  /-- `_ensure_connection` of the sync, under the account of its credential. -/
  | ensures (g : AuthDb) (request : GmailRequest) (c : GmailCredential) (d d' : Db)
      (fresh : FreshIds) (connection : SourceConnection) : d.connections = g.connections →
      (Ingestion.ensureConnection K.core fresh owner K.connector c.accountKey).run d =
        .ok (connection, d') →
      AccountStep ⟨g, some (request, c)⟩
        ⟨{ g with connections := d'.connections }, some (request, c)⟩
  /-- `update_connection_cursor` of the sync. -/
  | cursor (g : AuthDb) (request : GmailRequest) (c : GmailCredential) (d d' : Db)
      (connectionId : Uuid) (cursor : Fields) (syncedAt : Instant) :
      d.connections = g.connections →
      (Ingestion.updateConnectionCursor owner connectionId cursor syncedAt).run d = .ok ((), d') →
      AccountStep ⟨g, some (request, c)⟩
        ⟨{ g with connections := d'.connections }, some (request, c)⟩
  /-- The commit of the sync. -/
  | ends (g : AuthDb) (request : GmailRequest) (c c' : GmailCredential)
      (response : Except AuthError GmailResponse) :
      settle (attempt K.fernet K.settings request c) = .ok (c', response) →
      AccountStep ⟨g, some (request, c)⟩ ⟨putCredential c' g, none⟩
  /-- An exception that is not caught, a timeout or a crash. -/
  | lost (g : AuthDb) (request : GmailRequest) (c : GmailCredential) :
      AccountStep ⟨g, some (request, c)⟩ ⟨g, none⟩
  | timedOut (g g' : AuthDb) : (markTimedOut owner).run g = .ok ((), g') →
      AccountStep ⟨g, none⟩ ⟨g', none⟩
  /-- The rest of the system: other users, other connectors, other tables. -/
  | elsewhere (g g' : AuthDb) (syncing : Option (GmailRequest × GmailCredential)) :
      credential g' owner = credential g owner →
      g'.connections.filter (ofGmail owner) = g.connections.filter (ofGmail owner) →
      ConnectionKeys g'.connections → AccountStep ⟨g, syncing⟩ ⟨g', syncing⟩

/-- The states reached from an empty database. -/
inductive AccountReached : Account → Prop where
  | empty (clock : Instant) : AccountReached ⟨⟨[], [], [], clock⟩, none⟩
  | step {s s' : Account} : AccountReached s → AccountStep K owner s s' → AccountReached s'

end Steps

/-! ### The invariant -/

/-- The status of a credential tells whether it has a grant. -/
def GrantMatches (c : GmailCredential) : Prop :=
  ((c.status = "connected" ∨ c.status = "error") ∧ ∃ ciphertext, c.refreshCiphertext = some ciphertext ∧
    ciphertext ≠ []) ∨
  ((c.status = "revoked" ∨ c.status = "disconnected") ∧ c.refreshCiphertext = none)

/-- What holds of a user's credential and connections. -/
structure Account.Valid (digest : PyStr → PyStr) (owner : Uuid) (s : Account) : Prop where
  connections : ConnectionKeys s.db.connections
  grant : ∀ c, credential s.db owner = some c → GrantMatches c
  account : ∀ c, credential s.db owner = some c → c.status ≠ "disconnected" →
    ∃ account, c.accountKey = digest account
  active : ∀ a ∈ s.db.connections, ofGmail owner a = true → a.status = .active →
    ∃ c, credential s.db owner = some c ∧ c.status ≠ "disconnected" ∧ a.connectionKey = c.accountKey
  syncing : ∀ request c, s.syncing = some (request, c) →
    request.owner = owner ∧ credential s.db owner = some c ∧ needsReconnect c = false

/-! ### What the operations do -/

section Operations

variable {K : AccountConfig} {owner : Uuid} {g g' : AuthDb}

theorem putCredential_connections (c : GmailCredential) (g : AuthDb) :
    (putCredential c g).connections = g.connections := by
  unfold putCredential
  split <;> rfl

/-- The upsert of a callback puts a connected credential. -/
theorem upsertCredential_run {row : OAuthState} {grant : Grant}
    (h : (upsertCredential row grant owner).run g = .ok ((), g')) :
    ∃ c, g' = putCredential c g ∧ c.userId = owner ∧ c.accountKey = grant.accountKey ∧
      c.status = "connected" ∧ c.refreshCiphertext = some grant.refreshCiphertext := by
  unfold upsertCredential at h
  simp only [Tx.run_bind, Tx.run_acquire, Tx.run_reads] at h
  cases hc : credential g owner with
  | none =>
    rw [hc] at h
    obtain ⟨-, rfl⟩ := Prod.mk.inj (Except.ok.inj h)
    exact ⟨grant.credential owner, rfl, rfl, rfl, rfl, rfl⟩
  | some c =>
    rw [hc] at h
    dsimp only at h
    by_cases hacc : accepts c row = true
    · rw [if_pos hacc] at h
      obtain ⟨-, rfl⟩ := Prod.mk.inj (Except.ok.inj h)
      exact ⟨{ grant.credential owner with lastSyncedAt := c.lastSyncedAt }, rfl, rfl, rfl, rfl, rfl⟩
    · rw [if_neg hacc] at h
      cases h

/-- A callback stores a connected credential and leaves one account active. -/
theorem storeCredential_run {row : OAuthState} {grant : Grant} (howner : row.userId = some owner)
    (h : (storeCredential row grant).run g = .ok ((), g')) :
    (∃ c, credential g' owner = some c ∧ c.accountKey = grant.accountKey ∧
      c.status = "connected" ∧ c.refreshCiphertext = some grant.refreshCiphertext) ∧
    g'.connections = withStatus
      (fun c => ofGmail owner c && c.connectionKey == grant.accountKey) .active
      (withStatus (ofGmail owner) .disconnected g.connections) := by
  unfold storeCredential at h
  rw [howner] at h
  dsimp only at h
  obtain ⟨_, g₁, hupsert, hupdates⟩ := Tx.run_bind_ok.1 h
  obtain ⟨_, g₂, hdisconnect, hactivate⟩ := Tx.run_bind_ok.1 hupdates
  obtain ⟨c, rfl, rfl, hkey, hstatus, hcipher⟩ := upsertCredential_run hupsert
  rw [run_updateConnections] at hdisconnect
  obtain ⟨-, rfl⟩ := Prod.mk.inj (Except.ok.inj hdisconnect)
  rw [run_updateConnections] at hactivate
  obtain ⟨-, rfl⟩ := Prod.mk.inj (Except.ok.inj hactivate)
  refine ⟨⟨c, credential_putCredential_self c g, hkey, hstatus, hcipher⟩, ?_⟩
  rw [putCredential_connections]
  rfl

theorem run_lockCredential (owner : Uuid) (g : AuthDb) :
    (lockCredential owner).run g = .ok (credential g owner, g) := by
  unfold lockCredential
  simp only [Tx.run_bind, Tx.run_reads]
  cases hc : credential g owner with
  | none => rfl
  | some c =>
    simp only [Tx.run_bind, Tx.run_acquire, Tx.run_reads]
    rw [hc]

theorem run_putTombstone (owner : Uuid) (g : AuthDb) :
    (putTombstone owner).run g = .ok (g.clock, putCredential (tombstone owner g.clock) g) := by
  unfold putTombstone
  simp only [Tx.run_bind, Tx.run_reads, Tx.run_acquire]
  cases credential g owner with
  | none => rfl
  | some c => rfl

/-- Deleting states alone. -/
theorem run_deleteStates (p : OAuthState → Bool) (g : AuthDb) :
    ∃ g', (deleteStates p).run g = .ok ((), g') ∧ SameTables g g' := by
  have heach : ∀ (hashes : List PyStr) (g : AuthDb),
      ∃ g', (each hashes deleteState).run g = .ok ((), g') ∧ SameTables g g' := by
    intro hashes
    induction hashes with
    | nil => exact fun g => ⟨g, rfl, rfl, rfl⟩
    | cons hash hashes ih =>
      intro g
      obtain ⟨g', hrun, htables⟩ := ih (AuthDb.withoutState hash g)
      exact ⟨g', hrun, htables.credentials, htables.connections⟩
  exact heach _ g

/-- A disconnect commits: it leaves a tombstone of its time and no active account. -/
theorem run_disconnect (owner : Uuid) (providerRevokes : Bool) (g : AuthDb) :
    ∃ r g', (disconnect owner providerRevokes).run g = .ok (r, g') ∧
      g'.credentials = (putCredential (tombstone owner g.clock) g).credentials ∧
      g'.connections = withStatus (ofGmail owner) .disconnected g.connections := by
  obtain ⟨g', hdelete, htables⟩ := run_deleteStates
    (fun s => s.userId == some owner && s.purpose == "gmail")
    (putCredential (tombstone owner g.clock) g)
  unfold disconnect
  simp only [Tx.run_bind, run_lockCredential, run_putTombstone, hdelete, run_updateConnections,
    Tx.run_pure]
  refine ⟨_, _, rfl, htables.credentials, ?_⟩
  rw [htables.connections, putCredential_connections]
  rfl

/-- A disconnect leaves a tombstone and no active account. -/
theorem disconnect_run {providerRevokes : Bool} {r : Bool × Instant}
    (h : (disconnect owner providerRevokes).run g = .ok (r, g')) :
    (∃ t, credential g' owner = some (tombstone owner t)) ∧
      g'.connections = withStatus (ofGmail owner) .disconnected g.connections := by
  obtain ⟨r', g₁, hrun, hcredentials, hconnections⟩ := run_disconnect owner providerRevokes g
  obtain ⟨-, rfl⟩ := Prod.mk.inj (Except.ok.inj (hrun.symm.trans h))
  refine ⟨⟨g.clock, ?_⟩, hconnections⟩
  unfold credential
  rw [hcredentials]
  exact credential_putCredential_self (tombstone owner g.clock) g

/-- A committed operation puts the credential its attempt has settled on. -/
theorem runGmail_run {F : Fernet} {settings : GmailSettings} {request : GmailRequest}
    {r : Bool × Except AuthError GmailResponse}
    (h : (runGmail F settings request).run g = .ok (r, g')) :
    ∃ c c' response, credential g request.owner = some c ∧
      settle (attempt F settings request c) = .ok (c', response) ∧ g' = putCredential c' g := by
  unfold runGmail at h
  by_cases hconfigured : settings.configured = true
  · rw [if_pos hconfigured] at h
    rw [Tx.run_bind, run_lockCredential] at h
    cases hc : credential g request.owner with
    | none =>
      rw [hc] at h
      cases h
    | some c =>
      rw [hc] at h
      dsimp only at h
      unfold operate at h
      cases hsettle : settle (attempt F settings request c) with
      | error e => rw [hsettle] at h; cases h
      | ok committed =>
        obtain ⟨c', response⟩ := committed
        rw [hsettle] at h
        obtain ⟨-, rfl⟩ := Prod.mk.inj (Except.ok.inj h)
        exact ⟨c, c', response, rfl, hsettle, rfl⟩
  · rw [if_neg hconfigured] at h
    cases h

/-- The record of a timeout changes a connected or failed credential alone. -/
theorem markTimedOut_run (h : (markTimedOut owner).run g = .ok ((), g')) :
    g' = g ∨ ∃ c, credential g owner = some c ∧ timesOut c = true ∧
      g' = putCredential (GmailCredential.timedOut c) g := by
  unfold markTimedOut at h
  simp only [Tx.run_bind, Tx.run_reads] at h
  cases hc : (credential g owner).filter timesOut with
  | none =>
    rw [hc] at h
    exact .inl (Prod.mk.inj (Except.ok.inj h)).2.symm
  | some c =>
    rw [hc] at h
    simp only [Tx.run_bind, Tx.run_acquire, Tx.run_reads, hc] at h
    obtain ⟨hfound, htimes⟩ := Option.filter_eq_some_iff.1 hc
    exact .inr ⟨c, hfound, htimes, (Prod.mk.inj (Except.ok.inj h)).2.symm⟩

/-- `_ensure_connection` finds the connection under its key, or adds it as an active one. -/
theorem ensureConnection_adds {fresh : FreshIds} {connector : Ingestion.Connector} {key : PyStr}
    {C : Reconciliation.Config} {d : Db} :
    (Ingestion.ensureConnection C fresh owner connector key).Ensures d fun _ d' =>
      d'.connections = d.connections ∨ ∃ a : SourceConnection,
        d'.connections = d.connections ++ [a] ∧ a.userId = owner ∧
        a.connectorType = connector.key ∧
        a.connectionKey = normalizeDisplayText C.platform.unicode key ∧ a.status = .active ∧
        (∀ c ∈ d.connections, c.id ≠ a.id) ∧
        ∀ c ∈ d.connections, Ingestion.connectionKeyed owner connector.key a.connectionKey c = false := by
  unfold Ingestion.ensureConnection Ingestion.ensureConnectionRow
  simp only [Tx.ensures_bind, ensures_require, Ledger.userExists, Tx.ensures_reads,
    ensures_insertOrIgnore, ensures_requireSome, Tx.ensures_pure]
  intro _ _ _ _
  -- reading the row back leaves the store
  have hread : ∀ (id : Uuid) (d' : Db), (Ingestion.getConnection owner id).Ensures d' fun _ g' => g' = d' := by
    intro id d'
    unfold Ingestion.getConnection
    simp only [Tx.ensures_bind, Tx.ensures_reads, ensures_requireSome]
    exact fun _ _ => trivial
  constructor
  · intro _ id _
    refine (hread id d).mono ?_
    rintro c d' rfl _
    exact .inl rfl
  · intro hnone hviolation id _
    refine (hread id _).mono ?_
    rintro c d' rfl _
    refine .inr ⟨_, rfl, rfl, rfl, rfl, rfl, ?_, ?_⟩
    · intro c hc hid
      have htaken : (d.connections.any fun c => c.id == fresh.connection) = true :=
        List.any_eq_true.2 ⟨c, hc, by simpa using hid⟩
      rw [htaken] at hviolation
      cases hviolation
    · intro c hc
      rw [List.any_eq_false] at hnone
      simpa using hnone c hc

/-- A connection that is added has an id and a key that no connection has. -/
theorem ensureConnection_keys {fresh : FreshIds} {connector : Ingestion.Connector} {key : PyStr}
    {C : Reconciliation.Config} {d d' : Db} {connection : SourceConnection}
    (h : ConnectionKeys d.connections)
    (hrun : (Ingestion.ensureConnection C fresh owner connector key).run d = .ok (connection, d')) :
    ConnectionKeys d'.connections := by
  rcases ensureConnection_adds _ _ hrun with hsame | ⟨a, hadd, howner, htype, -, -, hid, hnew⟩
  · rw [hsame]
    exact h
  · rw [hadd]
    refine h.append hid fun c hc hname => ?_
    have hkeyed := hnew c hc
    obtain ⟨h₁, h₂⟩ := Prod.mk.inj hname
    obtain ⟨h₂, h₃⟩ := Prod.mk.inj h₂
    simp [Ingestion.connectionKeyed, h₁, h₂, h₃, howner, htype] at hkeyed

/-- The cursor of a connection is not among the columns the accounts are told by, and the
    connections of other users stay. -/
theorem updateConnectionCursor_keeps {id : Uuid} {cursor : Fields} {syncedAt : Instant} {d : Db} :
    (Ingestion.updateConnectionCursor owner id cursor syncedAt).Ensures d fun _ d' =>
      ∃ f : SourceConnection → SourceConnection, d'.connections = d.connections.map f ∧
        (∀ c, connectionName (f c) = connectionName c ∧ (f c).status = c.status) ∧
        (ConnectionKeys d.connections → ∀ c ∈ d.connections, c.userId ≠ owner → f c = c) := by
  unfold Ingestion.updateConnectionCursor
  simp only [Tx.ensures_bind, ensures_selectForUpdate, ensures_requireSome, ensures_require,
    Tx.ensures_modify]
  intro c hfound _
  refine ⟨_, rfl, fun c' => ?_, fun hkeys c' hc' hother => ?_⟩
  · by_cases h : c'.id = c.id
    · rw [if_pos h]
      exact ⟨rfl, rfl⟩
    · rw [if_neg h]
      exact ⟨rfl, rfl⟩
  · -- the row that is found is the owner's, and the only one with its id
    have hc := List.mem_of_find?_eq_some hfound
    have howner := List.find?_some hfound
    simp only [Bool.and_eq_true, beq_iff_eq] at howner
    have hids := hkeys.ids
    rw [List.map_map] at hids
    refine if_neg fun hid => hother ?_
    rw [List.inj_on_of_nodup_map hids hc' hc hid]
    exact howner.2

end Operations

/-! ### Each step keeps the invariant -/

section Invariant

variable {K : AccountConfig} {owner : Uuid}

/-- A credential that needs no reconnect is connected, or failed with its grant. -/
theorem GrantMatches.connected {c : GmailCredential} (h : GrantMatches c)
    (hneeds : needsReconnect c = false) : c.status = "connected" ∨ c.status = "error" := by
  rcases h with ⟨hstatus, -⟩ | ⟨hstatus | hstatus, -⟩
  · exact hstatus
  · simp [needsReconnect, hstatus] at hneeds
  · simp [needsReconnect, hstatus] at hneeds

/-- A credential with a grant needs no reconnect. -/
theorem GrantMatches.dropped {c : GmailCredential} (h : GrantMatches c)
    (hneeds : needsReconnect c = true) :
    (c.status = "revoked" ∨ c.status = "disconnected") ∧ c.refreshCiphertext = none := by
  rcases h with ⟨hstatus, ciphertext, hcipher, hne⟩ | hdropped
  · rcases hstatus with hstatus | hstatus <;>
      simp [needsReconnect, hstatus, hcipher, hne] at hneeds
  · exact hdropped

/-- What a commit of an operation does to a credential: the account stays, the status tells
    whether there is a grant, and a disconnected credential stays disconnected. -/
structure Kept (c c' : GmailCredential) : Prop where
  same : SameAccount c c'
  grant : GrantMatches c'
  disconnected : c'.status = "disconnected" ↔ c.status = "disconnected"

/-- A committed operation keeps the invariant of its credential. -/
theorem kept_of_settle (hF : K.fernet.Lawful) {request : GmailRequest} {c c' : GmailCredential}
    {response : Except AuthError GmailResponse} (hc : GrantMatches c)
    (h : settle (attempt K.fernet K.settings request c) = .ok (c', response)) : Kept c c' := by
  rcases hrefresh : refreshAccess K.fernet K.settings.keyring request.draw request.answer c with
    ⟨c₁, result⟩
  obtain ⟨hsame, hgrant, hstatus⟩ := settle_ok h
  obtain ⟨hkey, hcipher⟩ := Prod.mk.inj hgrant
  rcases refreshAccess_cases K.fernet K.settings.keyring request.draw
    request.answer c with ⟨hneeds, hrefused⟩ | ⟨hneeds, hexchanged⟩
  · -- refused: the credential has no grant, and its status stays
    rw [hrefresh] at hrefused
    obtain ⟨rfl, rfl⟩ := Prod.mk.inj hrefused
    rw [attempt_of_failed hrefresh] at hsame hcipher hstatus
    obtain ⟨hdropped, hnone⟩ := hc.dropped hneeds
    have hfailed : failedStatus c₁.status = c₁.status := by
      unfold failedStatus
      rcases hdropped with hs | hs <;> simp [hs]
    have hkept : c'.status = c₁.status := by
      rcases hstatus with ⟨hs, -⟩ | hs | ⟨-, code, message, hr⟩
      · exact hs
      · exact hs.trans hfailed
      · cases hr
    refine ⟨hsame, .inr ⟨?_, hcipher.trans hnone⟩, by rw [hkept]⟩
    rw [hkept]
    exact hdropped
  · have hconnected := hc.connected hneeds
    have hnot : c.status ≠ "disconnected" := by
      rcases hconnected with hs | hs <;> simp [hs]
    rw [hrefresh] at hexchanged
    cases hexchanged with
    | kept scopes e =>
      rw [attempt_of_failed hrefresh] at hsame hcipher hstatus
      have herror : c'.status = "error" := by
        rcases hstatus with ⟨-, hr⟩ | hs | ⟨hs, -⟩
        · cases hr
        · rw [hs]
          unfold failedStatus
          rcases hconnected with hs | hs <;> simp [hs]
        · exact hs
      rcases hc with ⟨-, ciphertext, hc, hne⟩ | ⟨hs, -⟩
      · refine ⟨⟨hsame.userId, hsame.accountKey, hsame.disconnectedAt⟩,
          .inl ⟨.inr herror, ciphertext, hcipher.trans hc, hne⟩, ?_⟩
        rw [herror]
        exact iff_of_false (by simp) hnot
      · rcases hconnected with h₁ | h₁ <;> rcases hs with h₂ | h₂ <;> simp [h₁] at h₂
    | stored scopes token keyId ciphertext access hencrypt htoken =>
      obtain ⟨t, result, hattempt, -⟩ := attempt_of_refreshed K.settings hrefresh
      rw [hattempt] at hsame hcipher hstatus
      have hstored : c'.status = "connected" ∨ c'.status = "error" := by
        rcases hstatus with ⟨hs, -⟩ | hs | ⟨hs, -⟩
        · exact .inl hs
        · exact .inr (hs.trans (show failedStatus "connected" = "error" by decide))
        · exact .inr hs
      refine ⟨⟨hsame.userId, hsame.accountKey, hsame.disconnectedAt⟩,
        .inl ⟨hstored, ciphertext, hcipher, (decryptToken_of_encrypt hF hencrypt).2⟩, ?_⟩
      refine iff_of_false ?_ hnot
      rcases hstored with hs | hs <;> simp [hs]
    | revoked =>
      rw [attempt_of_failed hrefresh] at hsame hcipher hstatus
      have hrevoked : c'.status = "revoked" := by
        rcases hstatus with ⟨hs, -⟩ | hs | ⟨-, code, message, hr⟩
        · exact hs
        · exact hs.trans (show failedStatus "revoked" = "revoked" by decide)
        · cases hr
      refine ⟨⟨hsame.userId, hsame.accountKey, hsame.disconnectedAt⟩,
        .inr ⟨.inl hrevoked, hcipher⟩, ?_⟩
      rw [hrevoked]
      exact iff_of_false (by simp) hnot

/-- A credential put in the place of another one of its account. -/
theorem Account.Valid.put {g : AuthDb} {syncing : Option (GmailRequest × GmailCredential)}
    (h : Account.Valid K.digest owner ⟨g, syncing⟩) {c c' : GmailCredential}
    (hc : credential g owner = some c) (hkept : Kept c c') :
    Account.Valid K.digest owner ⟨putCredential c' g, none⟩ := by
  have howner : c'.userId = owner := by
    rw [hkept.same.userId]
    exact Table.key_of_get hc
  have hput : credential (putCredential c' g) owner = some c' := by
    rw [← howner]
    exact credential_putCredential_self c' g
  refine ⟨?_, ?_, ?_, ?_, fun _ _ hnone => by cases hnone⟩
  · show ConnectionKeys (putCredential c' g).connections
    rw [putCredential_connections]
    exact h.connections
  · intro c₂ hc₂
    obtain rfl := Option.some.inj (hput.symm.trans hc₂)
    exact hkept.grant
  · intro c₂ hc₂ hstatus
    obtain rfl := Option.some.inj (hput.symm.trans hc₂)
    rw [hkept.same.accountKey]
    exact h.account c hc fun hd => hstatus (hkept.disconnected.2 hd)
  · intro a ha hgmail hactive
    have ha : a ∈ g.connections := by
      rw [← putCredential_connections c' g]
      exact ha
    obtain ⟨c₀, hc₀, hstatus, hkey⟩ := h.active a ha hgmail hactive
    obtain rfl := Option.some.inj (hc.symm.trans hc₀)
    refine ⟨c', hput, fun hd => hstatus (hkept.disconnected.1 hd), ?_⟩
    rw [hkey, hkept.same.accountKey]

/-- New connections that keep their keys, where those that are active belong to the account
    of the credential. -/
theorem Account.Valid.reconnect {g : AuthDb} {syncing : Option (GmailRequest × GmailCredential)}
    (h : Account.Valid K.digest owner ⟨g, syncing⟩) {connections : List SourceConnection}
    (hkeys : ConnectionKeys connections)
    (hactive : ∀ a ∈ connections, ofGmail owner a = true → a.status = .active →
      ∃ c, credential g owner = some c ∧ c.status ≠ "disconnected" ∧ a.connectionKey = c.accountKey) :
    Account.Valid K.digest owner ⟨{ g with connections := connections }, syncing⟩ :=
  ⟨hkeys, h.grant, h.account, hactive, h.syncing⟩

/-- A callback makes the account of its credential the active one. -/
theorem Account.Valid.callback {g g' : AuthDb} (h : Account.Valid K.digest owner ⟨g, none⟩)
    {row : OAuthState} {grant : Grant} {account : PyStr} (howner : row.userId = some owner)
    (hkey : grant.accountKey = K.digest account) (hcipher : grant.refreshCiphertext ≠ [])
    (hrun : (storeCredential row grant).run g = .ok ((), g')) :
    Account.Valid K.digest owner ⟨g', none⟩ := by
  obtain ⟨⟨c, hc, hc_key, hstatus, hc_cipher⟩, hconnections⟩ := storeCredential_run howner hrun
  refine ⟨?_, ?_, ?_, ?_, fun _ _ hnone => by cases hnone⟩
  · show ConnectionKeys g'.connections
    rw [hconnections]
    exact h.connections.congr (by rw [map_name_withStatus, map_name_withStatus])
  · intro c₂ hc₂
    obtain rfl := Option.some.inj (hc.symm.trans hc₂)
    exact .inl ⟨.inl hstatus, _, hc_cipher, hcipher⟩
  · intro c₂ hc₂ _
    obtain rfl := Option.some.inj (hc.symm.trans hc₂)
    exact ⟨account, hc_key.trans hkey⟩
  · intro a ha hgmail hactive
    refine ⟨c, hc, by rw [hstatus]; simp, ?_⟩
    have ha : a ∈ g'.connections := ha
    rw [hconnections, mem_withStatus] at ha
    obtain ⟨a₁, ha₁, rfl⟩ := ha
    rw [hc_key]
    by_cases hp : (ofGmail owner a₁ && a₁.connectionKey == grant.accountKey) = true
    · simp only [hp, if_true]
      simpa using (Bool.and_eq_true_iff.1 hp).2
    · -- a row the second update leaves was disconnected by the first
      exfalso
      rw [if_neg hp] at hgmail hactive
      rw [mem_withStatus] at ha₁
      obtain ⟨a₀, -, rfl⟩ := ha₁
      by_cases hp₀ : ofGmail owner a₀ = true
      · rw [if_pos hp₀] at hactive
        cases hactive
      · rw [if_neg hp₀] at hgmail
        exact hp₀ hgmail

/-- A disconnect leaves no account active. -/
theorem Account.Valid.disconnect {g g' : AuthDb} (h : Account.Valid K.digest owner ⟨g, none⟩)
    {providerRevokes : Bool} {r : Bool × Instant}
    (hrun : (Connections.disconnect owner providerRevokes).run g = .ok (r, g')) :
    Account.Valid K.digest owner ⟨g', none⟩ := by
  obtain ⟨⟨t, hc⟩, hconnections⟩ := disconnect_run hrun
  refine ⟨?_, ?_, ?_, ?_, fun _ _ hnone => by cases hnone⟩
  · show ConnectionKeys g'.connections
    rw [hconnections]
    exact h.connections.congr (map_name_withStatus _ _ _)
  · intro c hc'
    obtain rfl := Option.some.inj (hc.symm.trans hc')
    exact .inr ⟨.inr rfl, rfl⟩
  · intro c hc' hstatus
    obtain rfl := Option.some.inj (hc.symm.trans hc')
    exact absurd rfl hstatus
  · intro a ha hgmail hactive
    exfalso
    have ha : a ∈ g'.connections := ha
    rw [hconnections, mem_withStatus] at ha
    obtain ⟨a₀, -, rfl⟩ := ha
    by_cases hp : ofGmail owner a₀ = true
    · rw [if_pos hp] at hactive
      cases hactive
    · rw [if_neg hp] at hgmail
      exact hp hgmail

/-- The connection a sync adds is the one of the credential it holds. -/
theorem Account.Valid.ensures
    (hdigest : ∀ account, normalizeDisplayText K.core.platform.unicode (K.digest account) =
      K.digest account) {g : AuthDb} {request : GmailRequest} {c : GmailCredential}
    (h : Account.Valid K.digest owner ⟨g, some (request, c)⟩) {d d' : Db} {fresh : FreshIds}
    {connection : SourceConnection} (hd : d.connections = g.connections)
    (hrun : (Ingestion.ensureConnection K.core fresh owner K.connector c.accountKey).run d =
      .ok (connection, d')) :
    Account.Valid K.digest owner ⟨{ g with connections := d'.connections }, some (request, c)⟩ := by
  obtain ⟨-, hc, hneeds⟩ := h.syncing request c rfl
  have hnot : c.status ≠ "disconnected" := by
    rcases (h.grant c hc).connected hneeds with hs | hs <;> simp [hs]
  rcases ensureConnection_adds _ _ hrun with hsame |
    ⟨a, hadd, -, -, hkey, -, -, -⟩
  · rw [hsame, hd]
    exact h
  · obtain ⟨account, haccount⟩ := h.account c hc hnot
    have hkey : a.connectionKey = c.accountKey := by
      rw [hkey, haccount, hdigest account]
    have hkeys := ensureConnection_keys (hd ▸ h.connections) hrun
    rw [hadd, hd] at hkeys ⊢
    refine h.reconnect hkeys ?_
    intro b hb hgmail hactive
    rcases List.mem_append.1 hb with hb | hb
    · exact h.active b hb hgmail hactive
    · rw [List.mem_singleton] at hb
      subst hb
      exact ⟨c, hc, hnot, hkey⟩

/-- One step keeps the invariant. -/
theorem Account.Valid.step (hF : K.fernet.Lawful)
    (hdigest : ∀ account, normalizeDisplayText K.core.platform.unicode (K.digest account) =
      K.digest account) {s s' : Account} (h : s.Valid K.digest owner)
    (hstep : AccountStep K owner s s') : s'.Valid K.digest owner := by
  cases hstep with
  | callback g g' row grant account howner hkey hcipher hrun =>
    exact h.callback howner hkey hcipher hrun
  | disconnect g g' providerRevokes r hrun => exact h.disconnect hrun
  | runs g g' request r howner hrun =>
    obtain ⟨c, c', response, hc, hsettle, rfl⟩ := runGmail_run hrun
    rw [howner] at hc
    exact h.put hc (kept_of_settle hF (h.grant c hc) hsettle)
  | syncs g request c c' access howner hc hrefresh =>
    refine ⟨h.connections, h.grant, h.account, h.active, fun request' c₂ hsome => ?_⟩
    obtain ⟨rfl, rfl⟩ := Prod.mk.inj (Option.some.inj hsome)
    refine ⟨howner, hc, ?_⟩
    -- a refresh that returned was not refused
    rcases refreshAccess_cases K.fernet K.settings.keyring request.draw
      request.answer c with ⟨-, hrefused⟩ | ⟨hneeds, -⟩
    · rw [hrefresh] at hrefused
      cases hrefused
    · exact hneeds
  | ensures g request c d d' fresh connection hd hrun =>
    exact h.ensures hdigest hd hrun
  | cursor g request c d d' connectionId cursor syncedAt hd hrun =>
    obtain ⟨f, hmap, hf, -⟩ := updateConnectionCursor_keeps _ _ hrun
    rw [hmap, hd]
    refine h.reconnect (h.connections.congr ?_) ?_
    · rw [List.map_map]
      exact List.map_congr_left fun a _ => (hf a).1
    · intro b hb hgmail hactive
      obtain ⟨a, ha, rfl⟩ := List.mem_map.1 hb
      obtain ⟨hname, hstatus⟩ := hf a
      obtain ⟨-, hname⟩ := Prod.mk.inj hname
      obtain ⟨huser, hname⟩ := Prod.mk.inj hname
      obtain ⟨htype, hkey⟩ := Prod.mk.inj hname
      have hgmail : ofGmail owner a = true := by
        unfold ofGmail at hgmail ⊢
        rw [← huser, ← htype]
        exact hgmail
      rw [hkey]
      exact h.active a ha hgmail (hstatus.symm.trans hactive)
  | ends g request c c' response hsettle =>
    obtain ⟨-, hc, -⟩ := h.syncing request c rfl
    exact h.put hc (kept_of_settle hF (h.grant c hc) hsettle)
  | lost g request c =>
    exact ⟨h.connections, h.grant, h.account, h.active, fun _ _ hnone => by cases hnone⟩
  | timedOut g g' hrun =>
    rcases markTimedOut_run hrun with rfl | ⟨c, hc, htimes, rfl⟩
    · exact h
    · have hstatus : c.status = "connected" ∨ c.status = "error" := by
        simpa [timesOut] using htimes
      refine h.put hc ⟨⟨rfl, rfl, rfl⟩, ?_, ?_⟩
      · rcases h.grant c hc with ⟨-, hcipher⟩ | ⟨hs, -⟩
        · exact .inl ⟨.inr rfl, hcipher⟩
        · rcases hstatus with h₁ | h₁ <;> rcases hs with h₂ | h₂ <;> simp [h₁] at h₂
      · refine iff_of_false (by simp [GmailCredential.timedOut]) ?_
        rcases hstatus with hs | hs <;> simp [hs]
  | elsewhere g g' syncing hc hfilter hkeys =>
    have hmem : ∀ a ∈ g'.connections, ofGmail owner a = true → a ∈ g.connections := by
      intro a ha hgmail
      have : a ∈ g'.connections.filter (ofGmail owner) := List.mem_filter.2 ⟨ha, hgmail⟩
      rw [hfilter] at this
      exact (List.mem_filter.1 this).1
    refine ⟨hkeys, ?_, ?_, ?_, ?_⟩
    · intro c hc'
      exact h.grant c (hc ▸ hc')
    · intro c hc'
      exact h.account c (hc ▸ hc')
    · intro a ha hgmail hactive
      obtain ⟨c, hc₀, hrest⟩ := h.active a (hmem a ha hgmail) hgmail hactive
      exact ⟨c, hc.trans hc₀, hrest⟩
    · intro request c hsome
      obtain ⟨howner, hc₀, hneeds⟩ := h.syncing request c hsome
      exact ⟨howner, hc.trans hc₀, hneeds⟩

/-- Every state reached is valid. -/
theorem account_valid (hF : K.fernet.Lawful)
    (hdigest : ∀ account, normalizeDisplayText K.core.platform.unicode (K.digest account) =
      K.digest account) {s : Account} (hs : AccountReached K owner s) : s.Valid K.digest owner := by
  induction hs with
  | empty clock =>
    refine ⟨⟨List.nodup_nil, List.nodup_nil⟩, fun _ hc => ?_, fun _ hc => ?_, fun _ ha => ?_,
      fun _ _ hnone => ?_⟩
    · cases hc
    · cases hc
    · cases ha
    · cases hnone
  | step _ hstep ih => exact ih.step hF hdigest hstep

/-- A step that gives a disconnected credential a grant is a callback. -/
theorem callback_of_grant (hF : K.fernet.Lawful) {s s' : Account} (h : s.Valid K.digest owner)
    (hstep : AccountStep K owner s s') {c c' : GmailCredential}
    (hc : credential s.db owner = some c) (hstatus : c.status = "disconnected")
    (hc' : credential s'.db owner = some c') (hcipher : c'.refreshCiphertext ≠ none) :
    ∃ row grant, row.userId = some owner ∧
      (storeCredential row grant).run s.db = .ok ((), s'.db) := by
  have hnone : c.refreshCiphertext = none := by
    rcases h.grant c hc with ⟨hs | hs, -⟩ | ⟨-, hnone⟩
    · simp [hstatus] at hs
    · simp [hstatus] at hs
    · exact hnone
  -- what keeps the credential, or puts another one of its account, gives it no grant
  have hput : ∀ (g : AuthDb) (c₂ : GmailCredential), credential g owner = some c → Kept c c₂ →
      credential (putCredential c₂ g) owner = some c' → False := by
    intro g c₂ hg hkept hput
    have howner : c₂.userId = owner := by
      rw [hkept.same.userId]
      exact Table.key_of_get hg
    rw [← howner, credential_putCredential_self] at hput
    obtain rfl := Option.some.inj hput
    rcases hkept.grant with ⟨hs | hs, -⟩ | ⟨-, hdropped⟩
    · simp [hkept.disconnected.2 hstatus] at hs
    · simp [hkept.disconnected.2 hstatus] at hs
    · exact hcipher hdropped
  have hsame : credential s'.db owner = credential s.db owner → False := by
    intro hsame
    rw [hsame, hc] at hc'
    obtain rfl := Option.some.inj hc'
    exact hcipher hnone
  cases hstep with
  | callback g g' row grant account howner hkey _ hrun => exact ⟨row, grant, howner, hrun⟩
  | disconnect g g' providerRevokes r hrun =>
    obtain ⟨⟨t, htomb⟩, -⟩ := disconnect_run hrun
    obtain rfl := Option.some.inj (htomb.symm.trans hc')
    exact absurd rfl hcipher
  | runs g g' request r howner hrun =>
    obtain ⟨c₁, c₂, response, hc₁, hsettle, rfl⟩ := runGmail_run hrun
    rw [howner] at hc₁
    obtain rfl := Option.some.inj (hc.symm.trans hc₁)
    exact (hput g c₂ hc (kept_of_settle hF (h.grant c hc) hsettle) hc').elim
  | syncs g request c₁ c₂ access howner _ hrefresh => exact (hsame rfl).elim
  | ensures g request c₁ d d' fresh connection hd hrun => exact (hsame rfl).elim
  | cursor g request c₁ d d' connectionId cursor syncedAt hd hrun => exact (hsame rfl).elim
  | ends g request c₁ c₂ response hsettle =>
    obtain ⟨-, hc₁, -⟩ := h.syncing request c₁ rfl
    obtain rfl := Option.some.inj (hc.symm.trans hc₁)
    exact (hput g c₂ hc (kept_of_settle hF (h.grant c hc) hsettle) hc').elim
  | lost g request c₁ => exact (hsame rfl).elim
  | timedOut g g' hrun =>
    rcases markTimedOut_run hrun with rfl | ⟨c₁, hc₁, htimes, -⟩
    · exact (hsame rfl).elim
    · -- a timeout is not recorded in a disconnected credential
      obtain rfl := Option.some.inj (hc.symm.trans hc₁)
      simp [timesOut, hstatus] at htimes
  | elsewhere g g' syncing hkeeps _ _ => exact (hsame hkeeps).elim

/-- **The Gmail connection of a user.**  In every state reached by callbacks, refreshes, syncs
    (lost or timed out ones too) and disconnects: at most one Gmail connection is active; it
    belongs to the account of the credential, which is not disconnected; a credential is
    connected or failed exactly when it has a grant, and revoked or disconnected exactly when
    it has none; and only a callback gives a disconnected credential a grant. -/
theorem account_invariant (hF : K.fernet.Lawful)
    (hdigest : ∀ account, normalizeDisplayText K.core.platform.unicode (K.digest account) =
      K.digest account) {s : Account} (hs : AccountReached K owner s) :
    (∀ a ∈ s.db.connections, ∀ b ∈ s.db.connections, ofGmail owner a = true →
      ofGmail owner b = true → a.status = .active → b.status = .active → a = b) ∧
    (∀ a ∈ s.db.connections, ofGmail owner a = true → a.status = .active →
      ∃ c, credential s.db owner = some c ∧ c.status ≠ "disconnected" ∧
        a.connectionKey = c.accountKey) ∧
    (∀ c, credential s.db owner = some c → GrantMatches c) ∧
    (∀ s', AccountStep K owner s s' → ∀ c c', credential s.db owner = some c →
      c.status = "disconnected" → credential s'.db owner = some c' → c'.refreshCiphertext ≠ none →
      ∃ row grant, row.userId = some owner ∧
        (storeCredential row grant).run s.db = .ok ((), s'.db)) := by
  have hvalid := account_valid hF hdigest hs
  refine ⟨?_, hvalid.active, hvalid.grant, fun s' hstep c c' hc hstatus hc' hcipher =>
    callback_of_grant hF hvalid hstep hc hstatus hc' hcipher⟩
  intro a ha b hb hgmail_a hgmail_b hactive_a hactive_b
  obtain ⟨c, hc, -, hkey_a⟩ := hvalid.active a ha hgmail_a hactive_a
  obtain ⟨c', hc', -, hkey_b⟩ := hvalid.active b hb hgmail_b hactive_b
  obtain rfl := Option.some.inj (hc.symm.trans hc')
  refine hvalid.connections.eq ha hb ?_
  simp only [ofGmail, Bool.and_eq_true, beq_iff_eq] at hgmail_a hgmail_b
  show (a.userId, a.connectorType, a.connectionKey) = (b.userId, b.connectorType, b.connectionKey)
  rw [hgmail_a.1, hgmail_a.2, hgmail_b.1, hgmail_b.2, hkey_a, hkey_b]

end Invariant

/-! ### A connected account that has synced -/

/-- The tables and hashes of these accounts. -/
def flowPlatform : Ingestion.Platform where
  unicode := .plain
  sha256 := flowDigest
  isoformat := fun _ => py "2026-03-02T10:00:00Z"
  parseDatetime := fun _ => some ⟨flowTime 0, some 0⟩
  uuidText := fun _ => py "0"
  distinctOrder := id
  zones := ⟨fun _ => true, fun _ _ => 0⟩

/-- A receipt connector whose mailbox has no receipts. -/
def flowAccounts : AccountConfig where
  fernet := flowFernet
  settings := flowGmail
  digest := flowDigest
  core := ⟨flowPlatform, .default⟩
  connector := ⟨.gmail, "Gmail receipts", fun _ => .ok ⟨[], []⟩, fun _ => .contentError ""⟩

theorem flowDigest_display (account : PyStr) :
    normalizeDisplayText .plain (flowDigest account) = flowDigest account := by
  unfold flowDigest
  split
  · decide +kernel
  · split
    · decide +kernel
    · split
      · decide +kernel
      · split <;> decide +kernel

/-- The grant a callback brings. -/
def flowConnectedGrant : Grant where
  refreshCiphertext := oldCiphertext
  keyId := py "k1"
  scopes := GMAIL_READONLY_SCOPE
  accountKey := flowDigest flowAddress

theorem flowConnected_stored :
    (storeCredential (flowState "A" "B" 0) flowConnectedGrant).run flowStart =
      .ok ((), flowConnected) := by
  rfl

/-- The store of the first user, as `sync_connector` reads it. -/
def flowUsers : Db := { Db.empty (flowTime 0) with users := [⟨1, py "UTC", py "EUR"⟩] }

/-- What the sync does to the connections. -/
def flowEnsure : DbTx SourceConnection :=
  Ingestion.ensureConnection flowAccounts.core ⟨9, 9, 9, 9, 9, 9, 9, 9, 9, 9, 9, 9⟩ 1
    flowAccounts.connector flowCredential.accountKey

/-- The database during the sync. -/
def flowDuring : AuthDb :=
  { flowConnected with connections := (flowEnsure.after flowUsers).connections }

/-- The account is connected, and its sync has added a connection. -/
theorem flowDuring_reached :
    AccountReached flowAccounts 1 ⟨flowDuring, some (flowSync (.ok []), flowCredential)⟩ := by
  have hstart : AccountReached flowAccounts 1 ⟨flowStart, none⟩ := .empty (flowTime 0)
  have hconnected : AccountReached flowAccounts 1 ⟨flowConnected, none⟩ :=
    hstart.step (.callback flowStart flowConnected (flowState "A" "B" 0) flowConnectedGrant
      flowAddress rfl rfl (by decide +kernel) flowConnected_stored)
  obtain ⟨c', hrefresh⟩ := flowSync_refreshes
  have hsyncing := hconnected.step (.syncs flowConnected (flowSync (.ok [])) flowCredential c'
    (py "ya29") rfl flowConnected_credential hrefresh)
  obtain ⟨connection, hrun⟩ := Tx.run_of_commits (x := flowEnsure) (g := flowUsers)
    (by decide +kernel)
  exact hsyncing.step (.ensures flowConnected _ flowCredential flowUsers _ _ connection rfl hrun)

/-- The connection a sync has added is the active one of the account. -/
theorem account_invariant_sync :
    (∃ a ∈ flowDuring.connections, ofGmail 1 a = true ∧ a.status = .active) ∧
      ∀ a ∈ flowDuring.connections, ofGmail 1 a = true → a.status = .active →
        a.connectionKey = flowCredential.accountKey := by
  obtain ⟨-, hactive, -, -⟩ := account_invariant flowFernet_lawful flowDigest_display
    flowDuring_reached
  constructor
  · have hsome : (flowDuring.connections.any fun a => ofGmail 1 a && a.status == .active) = true := by
      decide +kernel
    simpa using hsome
  · intro a ha hgmail hstatus
    obtain ⟨c, hc, -, hkey⟩ := hactive a ha hgmail hstatus
    have hcredential : credential flowDuring 1 = some flowCredential := flowConnected_credential
    rw [hkey, Option.some.inj (hc.symm.trans hcredential)]

end Expensea.Connections
