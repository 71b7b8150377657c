import Expensea.Auth.OAuth

namespace Expensea.Connections

open Txn Auth
open Txn.Tx (reads modify acquire throw each)

/-!
# Gmail connections

`app/connections/router.py`: `connect` starts an authorization flow, `callback` consumes
its state, exchanges the code with the provider and stores the credential, and
`disconnect` leaves a tombstone in place of the credential.  A callback is two
transactions with the exchange between them; the provider's answers are arguments.
-/

variable (digest : PyStr → PyStr) (settings : AuthSettings)

/-- What a successful code exchange yields. -/
structure Grant where
  refreshCiphertext : PyStr
  keyId : PyStr
  scopes : PyStr
  accountKey : PyStr
  deriving DecidableEq

/-- The credential of a user. -/
def credential (g : AuthDb) (owner : Uuid) : Option GmailCredential :=
  Table.get GmailCredential.userId owner g.credentials

/-- Replace the credential of a user, or insert it. -/
def putCredential (c : GmailCredential) (g : AuthDb) : AuthDb :=
  match credential g c.userId with
  | none => { g with credentials := g.credentials ++ [c] }
  | some _ =>
    { g with credentials := Table.set GmailCredential.userId c.userId (fun _ => c) g.credentials }

/-- One row of an `UPDATE` of connections. -/
def updateConnection (p : SourceConnection → Bool) (status : SourceConnectionStatus) (id : Uuid) :
    AuthTx Unit := do
  acquire (.connection id)
  modify fun g =>
    { g with
      connections := Table.set SourceConnection.id id
        (fun c => if p c then { c with status := status } else c) g.connections }

/-- `UPDATE source_connections SET status WHERE p` -/
def updateConnections (p : SourceConnection → Bool) (status : SourceConnectionStatus) :
    AuthTx Unit := do
  let ids ← reads fun g => (g.connections.filter p).map SourceConnection.id
  each ids (updateConnection p status)

/-- `connect` -/
def connect (owner : Uuid) (secrets : StateSecrets) (requestedAt now : Instant) :
    AuthTx OAuthState :=
  startState digest settings "gmail" (some owner) secrets requestedAt now

/-- The first transaction of `callback`. -/
def consume (owner : Uuid) (state browser : PyStr) (now : Instant) : AuthTx OAuthState :=
  consumeState digest "gmail" (some owner) state browser now

/-- `disconnected_at IS NULL OR disconnected_at < created_at` -/
def accepts (c : GmailCredential) (row : OAuthState) : Bool :=
  c.disconnectedAt.all fun t => decide (t < row.createdAt)

/-- The row a callback inserts. -/
def Grant.credential (grant : Grant) (owner : Uuid) : GmailCredential where
  userId := owner
  refreshCiphertext := some grant.refreshCiphertext
  keyId := grant.keyId
  scopes := grant.scopes
  accountKey := grant.accountKey
  status := "connected"
  lastErrorCode := none
  lastSyncedAt := none
  disconnectedAt := none

/-- The upsert of `callback`: it waits for the credential row, and a tombstone that is not
    older than the state cancels it. -/
def upsertCredential (row : OAuthState) (grant : Grant) (owner : Uuid) : AuthTx Unit := do
  acquire (.credential owner)
  let existing ← reads fun g => credential g owner
  match existing with
  | none => modify (putCredential (grant.credential owner))
  | some c =>
    if accepts c row then
      modify (putCredential { grant.credential owner with lastSyncedAt := c.lastSyncedAt })
    else throw ⟨"GMAIL_CONNECTION_CANCELLED", 409⟩

/-- The second transaction of `callback`. -/
def storeCredential (row : OAuthState) (grant : Grant) : AuthTx Unit :=
  match row.userId with
  | none => throw ⟨"INTEGRITY_ERROR", 500⟩
  | some owner => do
    upsertCredential row grant owner
    updateConnections (fun c => c.userId == owner && c.connectorType == .gmail) .disconnected
    updateConnections
      (fun c => c.userId == owner && c.connectorType == .gmail && c.connectionKey == grant.accountKey)
      .active

/-- The tombstone of a disconnect. -/
def tombstone (owner : Uuid) (disconnectedAt : Instant) : GmailCredential where
  userId := owner
  refreshCiphertext := none
  keyId := []
  scopes := []
  accountKey := []
  status := "disconnected"
  lastErrorCode := none
  lastSyncedAt := none
  disconnectedAt := some disconnectedAt

/-- `SELECT ... FOR UPDATE` of a user's credential. -/
def lockCredential (owner : Uuid) : AuthTx (Option GmailCredential) := do
  let found ← reads fun g => credential g owner
  match found with
  | none => pure none
  | some _ => do
    acquire (.credential owner)
    reads fun g => credential g owner

/-- The upsert of a tombstone: `clock_timestamp()` is read with the values to insert, and
    again for the update of a row that is already there. -/
def putTombstone (owner : Uuid) : AuthTx Instant := do
  let insertedAt ← reads AuthDb.clock
  acquire (.credential owner)
  let existing ← reads fun g => credential g owner
  match existing with
  | none => do
    modify (putCredential (tombstone owner insertedAt))
    pure insertedAt
  | some _ => do
    let updatedAt ← reads AuthDb.clock
    modify (putCredential (tombstone owner updatedAt))
    pure updatedAt

/-- `disconnect`: whether the provider revoked the token, and the time of the tombstone. -/
def disconnect (owner : Uuid) (providerRevokes : Bool) : AuthTx (Bool × Instant) := do
  let credential ← lockCredential owner
  let revoked := providerRevokes && credential.any (·.refreshCiphertext.any (!·.isEmpty))
  let disconnectedAt ← putTombstone owner
  deleteStates fun s => s.userId == some owner && s.purpose == "gmail"
  updateConnections (fun c => c.userId == owner && c.connectorType == .gmail) .disconnected
  pure (revoked, disconnectedAt)

/-! ### Requests -/

/-- What a committed transaction of a request did. -/
inductive Outcome where
  | connected (row : OAuthState)
  | consumed (row : OAuthState)
  | stored (row : OAuthState)
  | disconnected (owner : Uuid) (revoked : Bool) (disconnectedAt : Instant)
  deriving DecidableEq

/-- The transactions sessions may open.  A callback stores a credential only for a state it
    has consumed. -/
inductive Admitted (log : List Outcome) : AuthTx Outcome → Prop
  | connect (owner : Uuid) (secrets : StateSecrets) (requestedAt now : Instant) :
      Admitted log (Outcome.connected <$> connect digest settings owner secrets requestedAt now)
  | consume (owner : Uuid) (state browser : PyStr) (now : Instant) :
      Admitted log (Outcome.consumed <$> consume digest owner state browser now)
  | store (row : OAuthState) (grant : Grant) : .consumed row ∈ log →
      Admitted log ((fun _ => Outcome.stored row) <$> storeCredential row grant)
  | disconnect (owner : Uuid) (providerRevokes : Bool) :
      Admitted log ((fun r => Outcome.disconnected owner r.1 r.2) <$> disconnect owner providerRevokes)

/-- Time passes. -/
def Passes (g g' : AuthDb) : Prop := ∃ t, g.clock ≤ t ∧ g' = { g with clock := t }

end Expensea.Connections
