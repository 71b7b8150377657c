import Expensea.Connections.Router
import Expensea.Domain.JsonText
import Expensea.Ingestion.Service

namespace Expensea.Connections

open Txn Auth
open Txn.Tx (reads modify acquire throw)

/-!
# Gmail operations

`refresh_access` and `run_gmail` of `app/connections/router.py`, with the keyring of
`app/connections/crypto.py`.

* `encryptToken`, `decryptToken` — `TokenVault`, over the cipher `Fernet`;
* `refreshAccess` — one exchange of the stored grant, by what the provider answers;
* `follow` — what a sync does after it, by what the services it calls do;
* `runGmail` — the transaction around both: it holds the credential row from its lock to
  the end, and commits on the exits that are caught inside it;
* `markTimedOut` — the transaction that records a timeout;
* `Exchanged`, `SameAccount` — all an exchange, and an operation that commits, may do to a
  credential.
-/

/-! ### The keyring -/

/-- `cryptography.fernet.Fernet`. -/
structure Fernet where
  /-- `Fernet(key.encode("ascii"))` accepts the key. -/
  accepts : PyStr → Bool
  /-- A token under a key, with the time and the random bytes it draws. -/
  encrypt : PyStr → Nat → PyStr → PyStr
  /-- The text of a ciphertext, or `none` where `decrypt` raises. -/
  decrypt : PyStr → PyStr → Option PyStr

/-- What the cipher is documented to do: a token decrypts under the key that encrypted it. -/
structure Fernet.Lawful (F : Fernet) : Prop where
  decrypt_encrypt : ∀ key draw token, F.accepts key = true → (utf8Size token).isSome = true →
    F.decrypt key (F.encrypt key draw token) = some token
  encrypt_ne_nil : ∀ key draw token, F.encrypt key draw token ≠ []

/-- The keys of `token_encryption_keys` and the active one. -/
structure Keyring where
  activeId : PyStr
  keys : List (PyStr × PyStr)

/-- `self.keys[key_id]` -/
def Keyring.key (ring : Keyring) (keyId : PyStr) : Option PyStr :=
  (ring.keys.find? fun k => k.1 == keyId).map Prod.snd

/-- The error of a key that cannot be used. -/
def keyUnavailable : AuthError := ⟨"TOKEN_KEY_UNAVAILABLE", 503⟩

section Vault

variable (F : Fernet) (ring : Keyring)

/-- `TokenVault.encrypt`: the active key id and the ciphertext. -/
def encryptToken (draw : Nat) (token : PyStr) : Except AuthError (PyStr × PyStr) :=
  match ring.key ring.activeId with
  | none => .error keyUnavailable
  | some key =>
    if F.accepts key && (utf8Size token).isSome then .ok (ring.activeId, F.encrypt key draw token)
    else .error keyUnavailable

/-- `TokenVault.decrypt` -/
def decryptToken (keyId ciphertext : PyStr) : Except AuthError PyStr :=
  match ring.key keyId with
  | none => .error keyUnavailable
  | some key =>
    if F.accepts key then
      match F.decrypt key ciphertext with
      | some token => .ok token
      | none => .error keyUnavailable
    else .error keyUnavailable

end Vault

/-! ### Errors and settings -/

/-- What an operation may raise, by the classes its handlers tell apart. -/
inductive GmailError where
  | auth (e : AuthError)
  | app (e : AppError)
  /-- `AIError` -/
  | ai (code : String)
  /-- Any other exception. -/
  | unexpected
  deriving DecidableEq

/-- The exceptions that are caught as `AIError`, by their code. -/
def GmailError.aiCode : GmailError → Option String
  | .ai code => some code
  | .app (.proposalReview code _) => some code
  | _ => none

/-- The exceptions `_run_gmail` turns into a response: the code it stores and the response. -/
def GmailError.caught : GmailError → Option AuthError
  | .auth e => some e
  | .app (.connectorUnavailable code _) => some ⟨code, 502⟩
  | _ => none

/-- The answer to an exception that nothing catches. -/
def internalError : AuthError := ⟨"INTERNAL", 500⟩

/-- `Settings` -/
structure GmailSettings where
  /-- `gmail_client_id` is set. -/
  configured : Bool
  keyring : Keyring
  /-- `ai_provider` is not `disabled`. -/
  aiEnabled : Bool

/-! ### Refreshing -/

/-- `GMAIL_READONLY_SCOPE` -/
def GMAIL_READONLY_SCOPE : PyStr := py "https://www.googleapis.com/auth/gmail.readonly"

/-- `set(scope.split()) == {GMAIL_READONLY_SCOPE}` -/
def readonlyScope (scope : PyStr) : Bool :=
  !(split scope).isEmpty && (split scope).all (· == GMAIL_READONLY_SCOPE)

/-- What comes back from the token endpoint. -/
inductive TokenAnswer where
  /-- `httpx.HTTPError` -/
  | failed
  | response (status : Nat) (content : List Utf8.Byte)

/-- The error of an answer that cannot be used. -/
def providerError : AuthError := ⟨"OAUTH_PROVIDER_ERROR", 502⟩

/-- `json_response` -/
def jsonResponse (status : Nat) (content : List Utf8.Byte) : Except AuthError (List (PyStr × Json)) :=
  if 200 ≤ status ∧ status ≤ 299 then
    match loads content with
    | .ok (.object fields) => .ok fields
    | _ => .error providerError
  else .error providerError

/-- `validate_scope` -/
def validateScope (fields : List (PyStr × Json)) : Except AuthError PyStr :=
  match getField fields "scope" with
  | some (.str scope) => if readonlyScope scope then .ok scope else .error ⟨"GMAIL_SCOPE_INVALID", 403⟩
  | _ => .error ⟨"GMAIL_SCOPE_INVALID", 403⟩

/-- The error of an unusable token. -/
def tokenInvalid : AuthError := ⟨"GMAIL_TOKEN_INVALID", 502⟩

/-- The text of a field that is a non-empty string. -/
def nonemptyText : Option Json → Option PyStr
  | some (.str s) => if s.isEmpty then none else some s
  | _ => none

/-- `str(token_type).lower() == "bearer"` -/
def isBearer : Option Json → Bool
  | some (.str s) => s.map asciiLower == py "bearer"
  | _ => false

/-- `tokens.get("refresh_token", refresh_token)`, where it is a non-empty string. -/
def rotatedToken (fields : List (PyStr × Json)) (refreshToken : PyStr) : Option PyStr :=
  match getField fields "refresh_token" with
  | none => if refreshToken.isEmpty then none else some refreshToken
  | some value => nonemptyText (some value)

/-- A credential as an attempt leaves it in memory, and how the attempt ended. -/
abbrev Attempt (α : Type) := GmailCredential × Except GmailError α

section Refresh

variable (F : Fernet) (ring : Keyring)

/-- The grant of a credential is another one. -/
def GmailCredential.storing (c : GmailCredential) (keyId ciphertext : PyStr) : GmailCredential :=
  { c with
    keyId := keyId
    refreshCiphertext := some ciphertext
    status := "connected"
    lastErrorCode := none }

/-- A credential whose grant the provider has revoked. -/
def GmailCredential.revoked (c : GmailCredential) : GmailCredential :=
  { c with
    status := "revoked"
    refreshCiphertext := none
    lastErrorCode := some "GMAIL_GRANT_REVOKED" }

/-- The tokens of an answer, after its scope. -/
def storeTokens (draw : Nat) (c : GmailCredential) (refreshToken : PyStr)
    (fields : List (PyStr × Json)) : Attempt PyStr :=
  match nonemptyText (getField fields "access_token") with
  | none => (c, .error (.auth tokenInvalid))
  | some access =>
    if isBearer (getField fields "token_type") then
      match rotatedToken fields refreshToken with
      | none => (c, .error (.auth tokenInvalid))
      | some rotated =>
        match encryptToken F ring draw rotated with
        | .error e => (c, .error (.auth e))
        | .ok (keyId, ciphertext) => (GmailCredential.storing c keyId ciphertext, .ok access)
    else (c, .error (.auth tokenInvalid))

/-- The fields of an answer: a scope in it is validated and kept first. -/
def acceptTokens (draw : Nat) (c : GmailCredential) (refreshToken : PyStr)
    (fields : List (PyStr × Json)) : Attempt PyStr :=
  match getField fields "scope" with
  | none => storeTokens F ring draw c refreshToken fields
  | some _ =>
    match validateScope fields with
    | .error e => (c, .error (.auth e))
    | .ok scope => storeTokens F ring draw { c with scopes := scope } refreshToken fields

/-- An answer with a status other than 400, or with another error than `invalid_grant`. -/
def acceptResponse (draw : Nat) (c : GmailCredential) (refreshToken : PyStr) (status : Nat)
    (content : List Utf8.Byte) : Attempt PyStr :=
  match jsonResponse status content with
  | .error e => (c, .error (.auth e))
  | .ok fields => acceptTokens F ring draw c refreshToken fields

/-- The exchange of a decrypted grant. -/
def exchange (draw : Nat) (c : GmailCredential) (refreshToken : PyStr) : TokenAnswer → Attempt PyStr
  | .failed => (c, .error (.auth providerError))
  | .response status content =>
    if status = 400 then
      match loads content with
      | .error _ => (c, .error (.auth providerError))
      | .ok (.object fields) =>
        match getField fields "error" with
        | some (.str e) =>
          if e = py "invalid_grant" then
            (GmailCredential.revoked c, .error (.auth ⟨"GMAIL_GRANT_REVOKED", 409⟩))
          else acceptResponse F ring draw c refreshToken status content
        | _ => acceptResponse F ring draw c refreshToken status content
      -- `.get` of a value that is not an object
      | .ok _ => (c, .error .unexpected)
    else acceptResponse F ring draw c refreshToken status content

/-- A credential that has to be connected anew. -/
def needsReconnect (c : GmailCredential) : Bool :=
  c.status == "revoked" || c.status == "disconnected" || !c.refreshCiphertext.any (!·.isEmpty)

/-- `refresh_access` -/
def refreshAccess (draw : Nat) (answer : TokenAnswer) (c : GmailCredential) : Attempt PyStr :=
  if needsReconnect c then (c, .error (.auth ⟨"GMAIL_RECONNECT_REQUIRED", 409⟩))
  else if !readonlyScope c.scopes then (c, .error (.auth ⟨"GMAIL_SCOPE_INVALID", 403⟩))
  else
    match decryptToken F ring c.keyId (c.refreshCiphertext.getD []) with
    | .error e => (c, .error (.auth e))
    | .ok refreshToken => exchange F ring draw c refreshToken answer

end Refresh

/-! ### What follows -/

/-- The response of an operation. -/
structure GmailResponse where
  synced : Bool
  events : Nat
  proposals : Nat
  extractionStatus : String
  extractionErrorCodes : List String
  needsReview : Nat
  deriving DecidableEq

/-- What the services do that a sync calls: `sync_connector`, and `extract_raw_event` on each
    of its events. -/
structure SyncAnswers where
  synced : Except GmailError (List Ingestion.IngestionResult)
  syncedAt : Instant
  extracted : Uuid → Except GmailError Unit

/-- The loop over the events: an `AIError` is collected, another exception ends it. -/
def extractEvents (extracted : Uuid → Except GmailError Unit) :
    List Ingestion.IngestionResult → Except GmailError (Nat × List String)
  | [] => .ok (0, [])
  | event :: events =>
    match extracted event.rawEventId with
    | .ok _ => (extractEvents extracted events).map fun r => (r.1 + 1, r.2)
    | .error e =>
      match e.aiCode with
      | some code => (extractEvents extracted events).map fun r => (r.1, code :: r.2)
      | none => .error e

/-- The response after a sync of these events, or after none. -/
def gmailResponse (aiEnabled synced : Bool) (events : List Ingestion.IngestionResult)
    (proposals : Nat) (errors : List String) : GmailResponse where
  synced := synced
  events := events.length
  proposals := proposals
  extractionStatus :=
    if !aiEnabled then "disabled" else if errors.isEmpty then "completed" else "errors"
  extractionErrorCodes := errors
  needsReview := (events.filter fun e => e.state == .needsReview).length

/-- What a sync does once `refresh_access` has returned. -/
def follow (aiEnabled : Bool) (answers : SyncAnswers) (c : GmailCredential) :
    Attempt GmailResponse :=
  match answers.synced with
  | .error e => (c, .error e)
  | .ok events =>
    let c := { c with lastSyncedAt := some answers.syncedAt }
    if aiEnabled then
      (c, (extractEvents answers.extracted events).map fun r =>
        gmailResponse aiEnabled true events r.1 r.2)
    else (c, .ok (gmailResponse aiEnabled true events 0 []))

/-! ### The operation -/

/-- One operation: its owner, whether it syncs, and what the services answer to it. -/
structure GmailRequest where
  owner : Uuid
  sync : Bool
  answer : TokenAnswer
  draw : Nat
  answers : SyncAnswers

section Operation

variable (F : Fernet) (settings : GmailSettings)

/-- The body of the `try` of `_run_gmail`. -/
def attempt (request : GmailRequest) (c : GmailCredential) : Attempt GmailResponse :=
  match refreshAccess F settings.keyring request.draw request.answer c with
  | (c', .error e) => (c', .error e)
  | (c', .ok _) =>
    if request.sync then follow settings.aiEnabled request.answers c'
    else (c', .ok (gmailResponse settings.aiEnabled false [] 0 []))

/-- The handlers of `_run_gmail`: the credential and the response of an attempt whose
    exception is caught, or the exception that rolls back. -/
def settle : Attempt GmailResponse → Except GmailError (GmailCredential × Except AuthError GmailResponse)
  | (c, .ok response) => .ok (c, .ok response)
  | (c, .error (.auth e)) =>
    .ok ({ c with
      lastErrorCode := some e.code
      status := if c.status == "revoked" || c.status == "disconnected" then c.status else "error" },
      .error e)
  | (c, .error (.app (.connectorUnavailable code _))) =>
    .ok ({ c with
      lastErrorCode := some code
      status := "error" }, .error ⟨code, 502⟩)
  | (_, .error e) => .error e

/-- The stored grant of a credential. -/
def grantOf (c : GmailCredential) : PyStr × Option PyStr := (c.keyId, c.refreshCiphertext)

/-- What `_run_gmail` does with the credential it has locked: whether it has replaced the
    stored grant, and its response. -/
def operate (request : GmailRequest) (c : GmailCredential) :
    AuthTx (Bool × Except AuthError GmailResponse) :=
  match settle (attempt F settings request c) with
  | .ok (c', response) => do
    modify (putCredential c')
    pure (grantOf c' != grantOf c, response)
  | .error _ => throw internalError

/-- `_run_gmail` -/
def runGmail (request : GmailRequest) : AuthTx (Bool × Except AuthError GmailResponse) :=
  if settings.configured then do
    let locked ← lockCredential request.owner
    match locked with
    | none => throw ⟨"GMAIL_NOT_CONNECTED", 409⟩
    | some c => operate F settings request c
  else throw ⟨"GMAIL_NOT_CONFIGURED", 503⟩

end Operation

/-- The credentials a timeout is recorded in. -/
def timesOut (c : GmailCredential) : Bool := c.status == "connected" || c.status == "error"

/-- The row of a credential after a timeout. -/
def GmailCredential.timedOut (c : GmailCredential) : GmailCredential :=
  { c with
    status := "error"
    lastErrorCode := some "GMAIL_OPERATION_TIMEOUT" }

/-- The transaction `run_gmail` opens after a timeout: the `UPDATE` of a row that matches,
    which is looked at again once it is locked. -/
def markTimedOut (owner : Uuid) : AuthTx Unit := do
  let found ← reads fun g => (credential g owner).filter timesOut
  match found with
  | none => pure ()
  | some _ => do
    acquire (.credential owner)
    let locked ← reads fun g => (credential g owner).filter timesOut
    match locked with
    | none => pure ()
    | some c => modify (putCredential (GmailCredential.timedOut c))

/-! ### What happens to a credential -/

/-- The refresh token an answer brings. -/
def TokenAnswer.refreshToken : TokenAnswer → Option PyStr
  | .failed => none
  | .response status content =>
    match jsonResponse status content with
    | .ok fields => nonemptyText (getField fields "refresh_token")
    | .error _ => none

section Specs

variable {F : Fernet} {ring : Keyring}

/-- A stored ciphertext decrypts to the token it was made from. -/
theorem decryptToken_of_encrypt (hF : F.Lawful) {draw : Nat} {token keyId ciphertext : PyStr}
    (h : encryptToken F ring draw token = .ok (keyId, ciphertext)) :
    decryptToken F ring keyId ciphertext = .ok token ∧ ciphertext ≠ [] := by
  unfold encryptToken at h
  cases hkey : ring.key ring.activeId with
  | none => simp [hkey] at h
  | some key =>
    simp only [hkey] at h
    by_cases hok : (F.accepts key && (utf8Size token).isSome) = true
    · rw [if_pos hok] at h
      obtain ⟨rfl, rfl⟩ := Prod.mk.inj (Except.ok.inj h)
      obtain ⟨haccepts, hsize⟩ := Bool.and_eq_true_iff.1 hok
      refine ⟨?_, hF.encrypt_ne_nil key draw token⟩
      unfold decryptToken
      rw [hkey]
      simp only [haccepts, if_true, hF.decrypt_encrypt key draw token haccepts hsize]
    · rw [if_neg hok] at h
      cases h

variable (F ring) in
/-- All an exchange may do to a credential: fail and keep its grant, store the token the
    answer brings or the old one under a new ciphertext, or drop a grant that was revoked. -/
inductive Exchanged (draw : Nat) (answer : TokenAnswer) (c : GmailCredential) : Attempt PyStr → Prop
  | kept (scopes : PyStr) (e : GmailError) :
      Exchanged draw answer c ({ c with scopes := scopes }, .error e)
  | stored (scopes token keyId ciphertext access : PyStr) :
      encryptToken F ring draw token = .ok (keyId, ciphertext) →
      (∀ new, answer.refreshToken = some new → token = new) →
      Exchanged draw answer c
        (GmailCredential.storing { c with scopes := scopes } keyId ciphertext, .ok access)
  | revoked : Exchanged draw answer c
      (GmailCredential.revoked c, .error (.auth ⟨"GMAIL_GRANT_REVOKED", 409⟩))

theorem storeTokens_exchanged {draw : Nat} {answer : TokenAnswer} {c : GmailCredential}
    {refreshToken : PyStr} {fields : List (PyStr × Json)}
    (hanswer : answer.refreshToken = nonemptyText (getField fields "refresh_token"))
    (scopes : PyStr) :
    Exchanged F ring draw answer c
      (storeTokens F ring draw { c with scopes := scopes } refreshToken fields) := by
  unfold storeTokens
  cases nonemptyText (getField fields "access_token") with
  | none => exact .kept scopes _
  | some access =>
    dsimp only
    by_cases hbearer : isBearer (getField fields "token_type") = true
    · rw [if_pos hbearer]
      cases hrotated : rotatedToken fields refreshToken with
      | none => exact .kept scopes _
      | some token =>
        dsimp only
        cases hencrypt : encryptToken F ring draw token with
        | error e => exact .kept scopes _
        | ok r =>
          obtain ⟨keyId, ciphertext⟩ := r
          refine .stored scopes token keyId ciphertext access hencrypt fun new hnew => ?_
          -- the answer has a token of its own, so it is the one that is encrypted
          rw [hanswer] at hnew
          unfold rotatedToken at hrotated
          cases hfield : getField fields "refresh_token" with
          | none => simp [hfield, nonemptyText] at hnew
          | some value =>
            rw [hfield] at hrotated hnew
            exact Option.some.inj (hrotated.symm.trans hnew)
    · rw [if_neg hbearer]
      exact .kept scopes _

theorem acceptResponse_exchanged {draw : Nat} {c : GmailCredential} {refreshToken : PyStr}
    {status : Nat} {content : List Utf8.Byte} :
    Exchanged F ring draw (.response status content) c
      (acceptResponse F ring draw c refreshToken status content) := by
  unfold acceptResponse
  cases hjson : jsonResponse status content with
  | error e => exact .kept c.scopes _
  | ok fields =>
    have hanswer : (TokenAnswer.response status content).refreshToken =
        nonemptyText (getField fields "refresh_token") := by
      simp only [TokenAnswer.refreshToken, hjson]
    show Exchanged F ring draw _ c (acceptTokens F ring draw c refreshToken fields)
    unfold acceptTokens
    cases getField fields "scope" with
    | none => exact storeTokens_exchanged hanswer c.scopes
    | some value =>
      cases validateScope fields with
      | error e => exact .kept c.scopes _
      | ok scope => exact storeTokens_exchanged hanswer scope

theorem exchange_exchanged {draw : Nat} {c : GmailCredential} {refreshToken : PyStr}
    (answer : TokenAnswer) :
    Exchanged F ring draw answer c (exchange F ring draw c refreshToken answer) := by
  cases answer with
  | failed => exact .kept c.scopes _
  | response status content =>
    unfold exchange
    dsimp only
    by_cases hstatus : status = 400
    · rw [if_pos hstatus]
      cases loads content with
      | error e => exact .kept c.scopes _
      | ok value =>
        cases value with
        | object fields =>
          dsimp only
          split
          · split
            · exact .revoked
            · exact acceptResponse_exchanged
          · exact acceptResponse_exchanged
        | _ => exact .kept c.scopes _
    · rw [if_neg hstatus]
      exact acceptResponse_exchanged

variable (F ring) in
/-- `refresh_access` refuses a credential that has to be connected anew, and otherwise does
    what an exchange does. -/
theorem refreshAccess_cases (draw : Nat) (answer : TokenAnswer) (c : GmailCredential) :
    (needsReconnect c = true ∧ refreshAccess F ring draw answer c =
      (c, .error (.auth ⟨"GMAIL_RECONNECT_REQUIRED", 409⟩))) ∨
    (needsReconnect c = false ∧
      Exchanged F ring draw answer c (refreshAccess F ring draw answer c)) := by
  unfold refreshAccess
  by_cases hneeds : needsReconnect c = true
  · left
    exact ⟨hneeds, if_pos hneeds⟩
  · right
    refine ⟨by simpa using hneeds, ?_⟩
    rw [if_neg hneeds]
    by_cases hscope : readonlyScope c.scopes = true
    · simp only [hscope, Bool.not_true, Bool.false_eq_true, if_false]
      cases decryptToken F ring c.keyId (c.refreshCiphertext.getD []) with
      | error e => exact .kept c.scopes _
      | ok refreshToken => exact exchange_exchanged answer
    · have hscope : readonlyScope c.scopes = false := by simpa using hscope
      simp only [hscope, Bool.not_false, if_true]
      exact .kept c.scopes _

/-- A refresh that returns has stored the token of the answer. -/
theorem refreshAccess_ok (hF : F.Lawful) {draw : Nat} {answer : TokenAnswer}
    {c c' : GmailCredential} {access new : PyStr}
    (h : refreshAccess F ring draw answer c = (c', .ok access))
    (hnew : answer.refreshToken = some new) :
    decryptToken F ring c'.keyId (c'.refreshCiphertext.getD []) = .ok new := by
  rcases refreshAccess_cases F ring draw answer c with ⟨-, hrefused⟩ | ⟨-, hexchanged⟩
  · rw [hrefused] at h
    cases h
  · rw [h] at hexchanged
    cases hexchanged with
    | stored scopes token keyId ciphertext access hencrypt htoken =>
      rw [← htoken new hnew]
      exact (decryptToken_of_encrypt hF hencrypt).1

/-- A refresh that returns has stored a ciphertext. -/
theorem refreshAccess_stores {draw : Nat} {answer : TokenAnswer} {c c' : GmailCredential}
    {access : PyStr} (h : refreshAccess F ring draw answer c = (c', .ok access)) :
    c'.refreshCiphertext ≠ none := by
  rcases refreshAccess_cases F ring draw answer c with ⟨-, hrefused⟩ | ⟨-, hexchanged⟩
  · rw [hrefused] at h
    cases h
  · rw [h] at hexchanged
    cases hexchanged with
    | stored scopes token keyId ciphertext access hencrypt htoken => exact Option.some_ne_none _

/-- The first exception of the extractions that the loop does not collect. -/
def extractionError (extracted : Uuid → Except GmailError Unit)
    (events : List Ingestion.IngestionResult) : Option GmailError :=
  events.findSome? fun event =>
    match extracted event.rawEventId with
    | .ok _ => none
    | .error e => if e.aiCode.isNone then some e else none

/-- The exception that leaves what follows `refresh_access`. -/
def GmailRequest.raises (aiEnabled : Bool) (request : GmailRequest) : Option GmailError :=
  if request.sync then
    match request.answers.synced with
    | .error e => some e
    | .ok events => if aiEnabled then extractionError request.answers.extracted events else none
  else none

/-- The exception a computation ended with. -/
def raised {α : Type} : Except GmailError α → Option GmailError
  | .ok _ => none
  | .error e => some e

@[simp] theorem raised_map {α β : Type} (f : α → β) (x : Except GmailError α) :
    raised (x.map f) = raised x := by
  cases x <;> rfl

theorem raised_extractEvents (extracted : Uuid → Except GmailError Unit)
    (events : List Ingestion.IngestionResult) :
    raised (extractEvents extracted events) = extractionError extracted events := by
  induction events with
  | nil => rfl
  | cons event events ih =>
    unfold extractionError at ih ⊢
    rw [List.findSome?_cons]
    unfold extractEvents
    cases extracted event.rawEventId with
    | ok u =>
      dsimp only
      rw [raised_map, ih]
    | error e =>
      cases hcode : e.aiCode with
      | none => simp [hcode, raised]
      | some code =>
        simp only [hcode, Option.isNone_some, Bool.false_eq_true, if_false]
        rw [raised_map, ih]

/-- What follows leaves the grant alone. -/
theorem follow_credential (aiEnabled : Bool) (answers : SyncAnswers) (c : GmailCredential) :
    ∃ t, (follow aiEnabled answers c).1 = { c with lastSyncedAt := t } := by
  unfold follow
  cases answers.synced with
  | error e => exact ⟨c.lastSyncedAt, rfl⟩
  | ok events =>
    cases aiEnabled with
    | false => exact ⟨some answers.syncedAt, rfl⟩
    | true => exact ⟨some answers.syncedAt, rfl⟩

section Attempts

variable {settings : GmailSettings} {request : GmailRequest} {c c₁ c' : GmailCredential}
  {access : PyStr} {response : Except AuthError GmailResponse}

variable (settings) in
/-- After a refresh that returned, an attempt keeps its grant and ends with the exception
    that leaves what follows. -/
theorem attempt_of_refreshed
    (h : refreshAccess F settings.keyring request.draw request.answer c = (c₁, .ok access)) :
    ∃ t result, attempt F settings request c = ({ c₁ with lastSyncedAt := t }, result) ∧
      raised result = request.raises settings.aiEnabled := by
  unfold attempt GmailRequest.raises
  rw [h]
  dsimp only
  by_cases hsync : request.sync = true
  · obtain ⟨t, ht⟩ := follow_credential settings.aiEnabled request.answers c₁
    rw [if_pos hsync, if_pos hsync]
    refine ⟨t, (follow settings.aiEnabled request.answers c₁).2, Prod.ext ht rfl, ?_⟩
    unfold follow
    cases request.answers.synced with
    | error e => rfl
    | ok events =>
      cases settings.aiEnabled with
      | false => rfl
      | true =>
        show raised ((extractEvents request.answers.extracted events).map _) = _
        rw [raised_map, raised_extractEvents]
        rfl
  · rw [if_neg hsync, if_neg hsync]
    exact ⟨c₁.lastSyncedAt, _, rfl, rfl⟩

/-- A refresh that did not return ends the attempt. -/
theorem attempt_of_failed {e : GmailError}
    (h : refreshAccess F settings.keyring request.draw request.answer c = (c₁, .error e)) :
    attempt F settings request c = (c₁, .error e) := by
  unfold attempt
  rw [h]

/-- The same account with the same history of disconnects. -/
structure SameAccount (c c' : GmailCredential) : Prop where
  userId : c'.userId = c.userId
  accountKey : c'.accountKey = c.accountKey
  disconnectedAt : c'.disconnectedAt = c.disconnectedAt

/-- The status of a credential after a caught exception. -/
def failedStatus (status : String) : String :=
  if status == "revoked" || status == "disconnected" then status else "error"

/-- A commit of an attempt: a caught exception is recorded in the credential, and what the
    attempt did to the rest of it stays. -/
theorem settle_ok {r : Attempt GmailResponse} (h : settle r = .ok (c', response)) :
    SameAccount r.1 c' ∧ grantOf c' = grantOf r.1 ∧
      ((c'.status = r.1.status ∧ raised r.2 = none) ∨ c'.status = failedStatus r.1.status ∨
        c'.status = "error" ∧ ∃ code message, r.2 = .error (.app (.connectorUnavailable code message))) := by
  obtain ⟨c, result⟩ := r
  cases result with
  | ok answer =>
    obtain ⟨rfl, -⟩ := Prod.mk.inj (Except.ok.inj h)
    exact ⟨⟨rfl, rfl, rfl⟩, rfl, .inl ⟨rfl, rfl⟩⟩
  | error e =>
    cases e with
    | auth e =>
      obtain ⟨rfl, -⟩ := Prod.mk.inj (Except.ok.inj h)
      exact ⟨⟨rfl, rfl, rfl⟩, rfl, .inr (.inl rfl)⟩
    | app e =>
      cases e with
      | connectorUnavailable code message =>
        obtain ⟨rfl, -⟩ := Prod.mk.inj (Except.ok.inj h)
        exact ⟨⟨rfl, rfl, rfl⟩, rfl, .inr (.inr ⟨rfl, code, message, rfl⟩)⟩
      | _ => cases h
    | ai code => cases h
    | unexpected => cases h

/-- An attempt commits unless an exception leaves it that no handler catches. -/
theorem settle_isOk (r : Attempt GmailResponse) :
    (∃ committed, settle r = .ok committed) ↔ ∀ e, raised r.2 = some e → e.caught ≠ none := by
  obtain ⟨c, result⟩ := r
  cases result with
  | ok answer => exact ⟨fun _ e he => (by cases he), fun _ => ⟨_, rfl⟩⟩
  | error e =>
    have hraised : ∀ e', raised (.error e : Except GmailError GmailResponse) = some e' ↔ e = e' :=
      fun _ => Option.some_inj
    simp only [hraised, forall_eq']
    cases e with
    | auth e => exact ⟨fun _ h => (by cases h), fun _ => ⟨_, rfl⟩⟩
    | app e =>
      cases e with
      | connectorUnavailable code message => exact ⟨fun _ h => (by cases h), fun _ => ⟨_, rfl⟩⟩
      | _ => exact ⟨fun ⟨_, h⟩ => (by cases h), fun h => absurd rfl h⟩
    | ai code => exact ⟨fun ⟨_, h⟩ => (by cases h), fun h => absurd rfl h⟩
    | unexpected => exact ⟨fun ⟨_, h⟩ => (by cases h), fun h => absurd rfl h⟩

end Attempts

end Specs

end Expensea.Connections
