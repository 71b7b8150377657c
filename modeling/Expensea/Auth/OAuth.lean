import Expensea.Lib.Interleave
import Expensea.Lib.Table
import Expensea.Models

namespace Expensea.Auth

open Txn
open Txn.Tx (reads modify acquire throw each)

/-!
# OAuth transactions

`app/auth/oauth.py` over the tables of `app/models/auth.py`: an authorization flow starts
by storing a state row and goes on once a callback has consumed it.  A state is consumed
by deleting its row, so of several callbacks with one state at most one goes on.

Two clocks appear: `created_at` and the other database times are read from the store, and
`datetime.now(UTC)` of the application is an argument.
-/

/-- `oauth_states` -/
structure OAuthState where
  stateHash : PyStr
  purpose : String
  browserHash : PyStr
  userId : Option Uuid
  nonce : PyStr
  verifier : PyStr
  expiresAt : Instant
  createdAt : Instant
  deriving DecidableEq

/-- `gmail_credentials` -/
structure GmailCredential where
  userId : Uuid
  refreshCiphertext : Option PyStr
  keyId : PyStr
  scopes : PyStr
  accountKey : PyStr
  status : String
  lastErrorCode : Option String
  lastSyncedAt : Option Instant
  disconnectedAt : Option Instant
  deriving DecidableEq

/-- The tables the authorization flows use, and the clock of the database. -/
structure AuthDb where
  states : List OAuthState
  credentials : List GmailCredential
  connections : List SourceConnection
  clock : Instant

/-- The rows the flows lock, by their primary keys. -/
inductive AuthLock where
  | state (hash : PyStr)
  | credential (userId : Uuid)
  | connection (id : Uuid)
  deriving DecidableEq, Repr

/-- `AuthError` -/
structure AuthError where
  code : String
  status : Nat
  deriving DecidableEq, Repr

abbrev AuthTx := Tx AuthDb AuthLock AuthError

/-- `Settings` -/
structure AuthSettings where
  oauthStateSeconds : ℤ

/-- The random values one `start_state` draws. -/
structure StateSecrets where
  browser : PyStr
  state : PyStr
  nonce : PyStr
  verifier : PyStr

variable (digest : PyStr → PyStr) (settings : AuthSettings)

/-! ### Row statements -/

/-- Delete the state with this hash. -/
def AuthDb.withoutState (hash : PyStr) (g : AuthDb) : AuthDb :=
  { g with states := g.states.filter (·.stateHash != hash) }

/-- One row of a `DELETE` of states. -/
def deleteState (hash : PyStr) : AuthTx Unit := do
  acquire (.state hash)
  modify (AuthDb.withoutState hash)

/-- `DELETE FROM oauth_states WHERE p`.  No statement updates a state, so a chosen row that
    is still there when it is locked still satisfies `p`. -/
def deleteStates (p : OAuthState → Bool) : AuthTx Unit := do
  let hashes ← reads fun g => (g.states.filter p).map OAuthState.stateHash
  each hashes deleteState

/-- `session.add(row)` and flush: the hash is the primary key. -/
def insertState (row : OAuthState) : AuthTx Unit := do
  acquire (.state row.stateHash)
  let clash ← reads fun g => g.states.any (·.stateHash == row.stateHash)
  if clash then throw ⟨"INTEGRITY_ERROR", 500⟩
  else modify fun g => { g with states := g.states ++ [row] }

/-! ### Operations -/

/-- `start_state`: `created_at` is the start of the transaction. -/
def startState (purpose : String) (userId : Option Uuid) (secrets : StateSecrets)
    (requestedAt now : Instant) : AuthTx OAuthState := do
  let createdAt ← reads AuthDb.clock
  let row : OAuthState :=
    { stateHash := digest secrets.state
      purpose := purpose
      browserHash := digest secrets.browser
      userId := userId
      nonce := secrets.nonce
      verifier := secrets.verifier
      expiresAt := requestedAt + settings.oauthStateSeconds * 1000000
      createdAt := createdAt }
  deleteStates fun s => s.expiresAt ≤ now
  insertState row
  pure row

/-- The condition of the `DELETE` of `consume_state`. -/
def OAuthState.matches (purpose : String) (owner : Option Uuid) (state browser : PyStr)
    (now : Instant) (row : OAuthState) : Bool :=
  row.stateHash == digest state && row.purpose == purpose && row.browserHash == digest browser &&
    decide (now < row.expiresAt) && (owner.isNone || row.userId == owner)

/-- `consume_state` of a request with this state, browser cookie and session owner. -/
def consumeState (purpose : String) (owner : Option Uuid) (state browser : PyStr)
    (now : Instant) : AuthTx OAuthState := do
  let absent := state.isEmpty || browser.isEmpty
  if absent || decide (128 < state.length) || decide (128 < browser.length) then
    throw ⟨"OAUTH_STATE_INVALID", 400⟩
  else do
    let found ← reads fun g => g.states.find? (·.matches digest purpose owner state browser now)
    match found with
    | none => throw ⟨"OAUTH_STATE_INVALID", 400⟩
    | some row => do
      acquire (.state row.stateHash)
      let locked ← reads fun g =>
        g.states.find? (·.matches digest purpose owner state browser now)
      match locked with
      | none => throw ⟨"OAUTH_STATE_INVALID", 400⟩
      | some row => do
        modify (AuthDb.withoutState row.stateHash)
        pure row

end Expensea.Auth
