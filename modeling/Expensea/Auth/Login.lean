import Expensea.Auth.OAuth

namespace Expensea.Auth

open Txn Txn.Discipline
open Txn.Tx (reads modify acquire throw each)

/-!
# Login

The end of `callback` in `app/auth/router.py`, from the verified claims on, over the tables
of `app/models/auth.py`: the identity is looked up or created with its own user, and a
session is opened.  Of several first logins of one identity one creates it and the others,
which waited for its unique key, take its user and delete their own.

* `callback` — the transaction of a login;
* `LoginOk`, `Did` — what is invariant, and what the commit of a login does;
* `one_identity_one_user` — what every interleaving of logins leaves.
-/

/-- `users`, by the columns a login writes. -/
structure LoginUser where
  id : Uuid
  email : PyStr
  name : PyStr
  deriving DecidableEq

/-- `auth_identities` -/
structure AuthIdentity where
  id : Uuid
  userId : Uuid
  issuer : PyStr
  subject : PyStr
  deriving DecidableEq

/-- `auth_sessions` -/
structure AuthSession where
  tokenHash : PyStr
  userId : Uuid
  csrfToken : PyStr
  expiresAt : Instant
  deriving DecidableEq

/-- The tables a login uses. -/
structure LoginDb where
  users : List LoginUser
  identities : List AuthIdentity
  sessions : List AuthSession

/-- Primary and unique keys that a transaction inserts, and rows it deletes. -/
inductive LoginLock where
  | user (id : Uuid)
  | email (email : PyStr)
  | identityId (id : Uuid)
  | identity (issuer subject : PyStr)
  | session (tokenHash : PyStr)
  deriving DecidableEq, Repr

abbrev LoginTx := Tx LoginDb LoginLock AuthError

/-- A callback with verified claims: the issuer of the settings, the subject of the claims,
    the cookie (empty if absent), the values it draws and what its clock shows. -/
structure Login where
  issuer : PyStr
  subject : PyStr
  oldToken : PyStr
  userId : Uuid
  identityId : Uuid
  token : PyStr
  csrfToken : PyStr
  deletedAt : Instant
  expiresAt : Instant

/-- What a committed login did: whose identity it was, the user it logged in and the session
    it opened. -/
structure LoggedIn where
  issuer : PyStr
  subject : PyStr
  userId : Uuid
  tokenHash : PyStr
  deriving DecidableEq

/-- `uuid.hex` -/
def uuidHex (id : Uuid) : PyStr :=
  (List.range 32).map fun i =>
    let digit := id / 16 ^ (31 - i) % 16
    Fin.ofNat _ (if digit < 10 then 48 + digit else 87 + digit)

/-- A violated constraint, which the callback does not catch. -/
def integrityError : AuthError := ⟨"INTEGRITY_ERROR", 500⟩

/-! ### Statements -/

/-- The identity has this issuer and subject. -/
def AuthIdentity.named (issuer subject : PyStr) (i : AuthIdentity) : Bool :=
  i.issuer == issuer && i.subject == subject

/-- `SELECT ... WHERE issuer = ... AND subject = ...` -/
def identityOf (issuer subject : PyStr) (g : LoginDb) : Option AuthIdentity :=
  g.identities.find? (·.named issuer subject)

/-- A user of this identifier is there. -/
def hasUser (id : Uuid) (g : LoginDb) : Bool := g.users.any (·.id == id)

/-- `session.add(User(...))` and flush. -/
def insertUser (user : LoginUser) : LoginTx Unit := do
  acquire (.user user.id)
  acquire (.email user.email)
  let clash ← reads fun g => hasUser user.id g || g.users.any (·.email == user.email)
  if clash then throw integrityError
  else modify fun g => { g with users := g.users ++ [user] }

/-- The insert of an identity that no other one stands in the way of. -/
def addIdentity (identity : AuthIdentity) : LoginTx Bool := do
  acquire (.identityId identity.id)
  let clash ← reads fun g => g.identities.any (·.id == identity.id) ||
    decide (512 < identity.issuer.length) || decide (255 < identity.subject.length)
  if clash then throw integrityError
  else do
    modify fun g => { g with identities := g.identities ++ [identity] }
    pure true

/-- `INSERT ... ON CONFLICT (issuer, subject) DO NOTHING`: whether the row was inserted.  A
    transaction that is inserting the same pair is waited for.  PostgreSQL lets go of the key
    where it does nothing; here it stays locked until the login ends. -/
def insertIdentity (identity : AuthIdentity) : LoginTx Bool := do
  acquire (.identity identity.issuer identity.subject)
  let present ← reads fun g => g.identities.any (·.named identity.issuer identity.subject)
  if present then pure false else addIdentity identity

/-- `DELETE FROM users WHERE id = ...`, which cascades. -/
def LoginDb.withoutUser (id : Uuid) (g : LoginDb) : LoginDb where
  users := g.users.filter (·.id != id)
  identities := g.identities.filter (·.userId != id)
  sessions := g.sessions.filter (·.userId != id)

/-- One row of a `DELETE` of sessions. -/
def deleteSession (tokenHash : PyStr) : LoginTx Unit := do
  acquire (.session tokenHash)
  modify fun g => { g with sessions := g.sessions.filter (·.tokenHash != tokenHash) }

/-- `DELETE FROM auth_sessions WHERE p`.  No statement updates a session, so a chosen row
    that is still there when it is locked still satisfies `p`. -/
def deleteSessions (p : AuthSession → Bool) : LoginTx Unit := do
  let hashes ← reads fun g => (g.sessions.filter p).map AuthSession.tokenHash
  each hashes deleteSession

/-- `session.add(AuthSession(...))`, flushed at the commit. -/
def insertSession (row : AuthSession) : LoginTx Unit := do
  acquire (.session row.tokenHash)
  let clash ← reads fun g => g.sessions.any (·.tokenHash == row.tokenHash) ||
    !hasUser row.userId g
  if clash then throw integrityError
  else modify fun g => { g with sessions := g.sessions ++ [row] }

/-! ### The callback -/

/-- The identity's user after a lost race: the winner's. -/
def mappedUser (r : Login) : LoginTx Uuid := do
  let mapped ← reads fun g => (identityOf r.issuer r.subject g).map AuthIdentity.userId
  modify (LoginDb.withoutUser r.userId)
  match mapped with
  | none => throw ⟨"IDENTITY_MAPPING_FAILED", 503⟩
  | some userId => pure userId

/-- A first login: a user of its own, unless another login created the identity meanwhile. -/
def firstLogin (r : Login) : LoginTx Uuid := do
  insertUser ⟨r.userId, uuidHex r.userId ++ py "@identity.invalid", py "SpendGraph user"⟩
  let inserted ← insertIdentity ⟨r.identityId, r.userId, r.issuer, r.subject⟩
  if inserted then pure r.userId else mappedUser r

/-- The user of the identity, created unless it is there. -/
def loginUser (r : Login) : LoginTx Uuid := do
  let existing ← reads (identityOf r.issuer r.subject)
  match existing with
  | some identity => pure identity.userId
  | none => firstLogin r

variable (digest : PyStr → PyStr)

/-- The session the browser had is closed. -/
def closeOldSession (r : Login) : LoginTx Unit :=
  if r.oldToken = [] then pure ()
  else deleteSessions fun t => t.tokenHash == digest r.oldToken

/-- The session of a login, in place of the one the browser had and of expired ones. -/
def openSession (r : Login) (userId : Uuid) : LoginTx Unit := do
  closeOldSession digest r
  deleteSessions fun t => decide (t.expiresAt ≤ r.deletedAt)
  insertSession ⟨digest r.token, userId, r.csrfToken, r.expiresAt⟩

/-- `callback`, once the claims are verified. -/
def callback (r : Login) : LoginTx LoggedIn := do
  let userId ← loginUser r
  openSession digest r userId
  pure ⟨r.issuer, r.subject, userId, digest r.token⟩

/-! ### What a login does -/

/-- What holds of the committed users and identities. -/
structure LoginOk (g : LoginDb) : Prop where
  userIds : (g.users.map LoginUser.id).Nodup
  owners : ∀ i ∈ g.identities, hasUser i.userId g = true
  names : (g.identities.map fun i => (i.issuer, i.subject)).Nodup
  distinct : (g.identities.map AuthIdentity.userId).Nodup

/-- What the commit of a login does: nothing goes but sessions, its identity is there with
    its user, a new user has an identity, and a new session is its own. -/
structure Did (o : LoggedIn) (h : List LoginLock) (g g' : LoginDb) : Prop where
  ok : LoginOk g'
  kept : ∀ i ∈ g.identities, i ∈ g'.identities
  identity : (identityOf o.issuer o.subject g').map AuthIdentity.userId = some o.userId
  users : ∀ u ∈ g'.users, u ∈ g.users ∨ ∃ i ∈ g'.identities, i.userId = u.id
  sessions : ∀ t ∈ g'.sessions, t ∈ g.sessions ∨ t.tokenHash = o.tokenHash ∧ t.userId = o.userId
  unlockedUsers : ∀ id, .user id ∉ h → hasUser id g' = hasUser id g
  unlockedIdentities : ∀ issuer subject, .identity issuer subject ∉ h →
    identityOf issuer subject g' = identityOf issuer subject g

/-- What a login may rely on: users and identities whose keys it holds stay, and so does
    every identity. -/
structure Relies (h : List LoginLock) (g g' : LoginDb) : Prop where
  kept : ∀ i ∈ g.identities, i ∈ g'.identities
  lockedUsers : ∀ id, .user id ∈ h → hasUser id g' = hasUser id g
  lockedIdentities : ∀ issuer subject, .identity issuer subject ∈ h →
    identityOf issuer subject g' = identityOf issuer subject g

/-- Other requests may delete sessions. -/
structure Others (g g' : LoginDb) : Prop where
  users : g'.users = g.users
  identities : g'.identities = g.identities
  sessions : ∀ t ∈ g'.sessions, t ∈ g.sessions

/-- The locking discipline of logins. -/
def loginDiscipline : Discipline LoginDb LoginLock AuthError LoggedIn where
  inv := LoginOk
  post h o g g' := Did o h g g'
  rely := Relies
  env := Others
  rely_refl _ _ := ⟨fun _ hi => hi, fun _ _ => rfl, fun _ _ _ => rfl⟩
  rely_trans _ _ _ _ h₁ h₂ := ⟨fun i hi => h₂.kept i (h₁.kept i hi),
    fun id hl => (h₂.lockedUsers id hl).trans (h₁.lockedUsers id hl),
    fun issuer subject hl =>
      (h₂.lockedIdentities issuer subject hl).trans (h₁.lockedIdentities issuer subject hl)⟩
  post_rely := by
    rintro h h' o g g' - - hdisj hdid
    exact ⟨hdid.kept, fun id hl => hdid.unlockedUsers id fun hl' => hdisj _ hl' hl,
      fun issuer subject hl => hdid.unlockedIdentities issuer subject fun hl' => hdisj _ hl' hl⟩
  env_inv := by
    rintro g g' hg ⟨husers, hidentities, -⟩
    have huser : ∀ id, hasUser id g' = hasUser id g := fun id => by rw [hasUser, husers, hasUser]
    constructor
    · rw [husers]
      exact hg.userIds
    · intro i hi
      rw [huser]
      exact hg.owners i (hidentities ▸ hi)
    · rw [hidentities]
      exact hg.names
    · rw [hidentities]
      exact hg.distinct
  env_rely := by
    rintro h g g' - ⟨husers, hidentities, -⟩
    refine ⟨fun i hi => hidentities ▸ hi, fun id _ => ?_, fun issuer subject _ => ?_⟩
    · rw [hasUser, husers, hasUser]
    · rw [identityOf, hidentities, identityOf]

theorem identityOf_eq_some {g : LoginDb} (hg : LoginOk g) {issuer subject : PyStr}
    {i : AuthIdentity} (hi : i ∈ g.identities) (hnamed : i.named issuer subject = true) :
    identityOf issuer subject g = some i := by
  refine Table.find?_of_unique hi hnamed fun j hj hjnamed => ?_
  simp only [AuthIdentity.named, Bool.and_eq_true, beq_iff_eq] at hnamed hjnamed
  refine List.inj_on_of_nodup_map hg.names hj hi ?_
  rw [hnamed.1, hnamed.2, hjnamed.1, hjnamed.2]

theorem mem_of_identityOf {g : LoginDb} {issuer subject : PyStr} {i : AuthIdentity}
    (h : identityOf issuer subject g = some i) :
    i ∈ g.identities ∧ i.issuer = issuer ∧ i.subject = subject := by
  have hnamed := List.find?_some h
  simp only [AuthIdentity.named, Bool.and_eq_true, beq_iff_eq] at hnamed
  exact ⟨List.mem_of_find?_eq_some h, hnamed⟩

/-- An identity that was found is found ever after. -/
theorem Relies.identityOf {h : List LoginLock} {g g' : LoginDb} (hr : Relies h g g')
    (hg' : LoginOk g') {issuer subject : PyStr} {i : AuthIdentity}
    (hi : Auth.identityOf issuer subject g = some i) :
    Auth.identityOf issuer subject g' = some i := by
  obtain ⟨hmem, -, -⟩ := mem_of_identityOf hi
  exact identityOf_eq_some hg' (hr.kept i hmem) (List.find?_some hi)

/-! ### The three ways to a user -/

section Users

variable {o : LoggedIn} {h : List LoginLock} {g : LoginDb} {i : AuthIdentity}

/-- A login of an identity that is there changes no user and no identity. -/
theorem Did.existing (hg : LoginOk g) (hi : identityOf o.issuer o.subject g = some i)
    (huser : i.userId = o.userId) : Did o h g g where
  ok := hg
  kept _ hj := hj
  identity := by rw [hi, ← huser]; rfl
  users _ hu := .inl hu
  sessions _ ht := .inl ht
  unlockedUsers _ _ := rfl
  unlockedIdentities _ _ _ := rfl

/-- A user that was inserted and deleted again leaves users and identities as they were. -/
theorem withoutUser_append {user : LoginUser} (hg : LoginOk g) (hfresh : hasUser user.id g = false) :
    LoginDb.withoutUser user.id { g with users := g.users ++ [user] } =
      { g with sessions := g.sessions.filter (·.userId != user.id) } := by
  have husers : (g.users ++ [user]).filter (·.id != user.id) = g.users := by
    rw [List.filter_append, List.filter_cons_of_neg (by simp), List.filter_nil, List.append_nil]
    refine List.filter_eq_self.2 fun u hu => ?_
    have hne := List.any_eq_false.1 hfresh u hu
    simpa using hne
  have hidentities : g.identities.filter (·.userId != user.id) = g.identities := by
    refine List.filter_eq_self.2 fun i hi => ?_
    have hne : i.userId ≠ user.id := fun he => by
      have howner := hg.owners i hi
      rw [he, hfresh] at howner
      cases howner
    simpa using hne
  show LoginDb.mk _ _ _ = LoginDb.mk _ _ _
  rw [husers, hidentities]

/-- A lost race: the identity of the winner is there. -/
theorem Did.raced {user : LoginUser} (hg : LoginOk g) (hfresh : hasUser user.id g = false)
    (hi : identityOf o.issuer o.subject g = some i) (huser : i.userId = o.userId) :
    Did o h g (LoginDb.withoutUser user.id { g with users := g.users ++ [user] }) := by
  rw [withoutUser_append hg hfresh]
  exact {
    ok := ⟨hg.userIds, hg.owners, hg.names, hg.distinct⟩
    kept := fun _ hj => hj
    identity := by
      show (identityOf o.issuer o.subject g).map _ = _
      rw [hi, ← huser]
      rfl
    users := fun _ hu => .inl hu
    sessions := fun t ht => .inl (List.mem_of_mem_filter ht)
    unlockedUsers := fun _ _ => rfl
    unlockedIdentities := fun _ _ _ => rfl }

/-- A first login: a new identity with a new user. -/
theorem Did.created {user : LoginUser} (hg : LoginOk g) (hfresh : hasUser user.id g = false)
    (hnone : identityOf i.issuer i.subject g = none) (howner : i.userId = user.id)
    (huser : LoginLock.user user.id ∈ h)
    (hname : LoginLock.identity i.issuer i.subject ∈ h) {tokenHash : PyStr} :
    Did ⟨i.issuer, i.subject, user.id, tokenHash⟩ h g
      { g with
        users := g.users ++ [user]
        identities := g.identities ++ [i] } := by
  have hnew : ∀ u ∈ g.users, u.id ≠ user.id := fun u hu => by
    simpa using List.any_eq_false.1 hfresh u hu
  have hother : ∀ j ∈ g.identities, j.named i.issuer i.subject = false := fun j hj => by
    simpa using List.find?_eq_none.1 hnone j hj
  have hself : i.named i.issuer i.subject = true := by simp [AuthIdentity.named]
  have hhas : ∀ id, hasUser id { g with
      users := g.users ++ [user]
      identities := g.identities ++ [i] } = (hasUser id g || user.id == id) := by
    intro id
    simp [hasUser]
  constructor
  · constructor
    · exact Table.nodup_append_one hg.userIds hnew
    · intro j hj
      rw [hhas]
      rcases List.mem_append.1 hj with hj | hj
      · rw [hg.owners j hj, Bool.true_or]
      · rw [List.mem_singleton.1 hj, howner]
        simp
    · refine Table.nodup_append_one hg.names fun j hj heq => ?_
      have hnamed := hother j hj
      simp only [Prod.mk.injEq] at heq
      simp [AuthIdentity.named, heq.1, heq.2] at hnamed
    · refine Table.nodup_append_one hg.distinct fun j hj heq => ?_
      have hj' := hg.owners j hj
      rw [heq, howner, hfresh] at hj'
      cases hj'
  · exact fun j hj => List.mem_append_left _ hj
  · have hfound : identityOf i.issuer i.subject { g with
        users := g.users ++ [user]
        identities := g.identities ++ [i] } = some i := Table.find?_append_fresh hother hself
    rw [hfound, ← howner]
    rfl
  · intro u hu
    rcases List.mem_append.1 hu with hu | hu
    · exact .inl hu
    · rw [List.mem_singleton.1 hu]
      exact .inr ⟨i, List.mem_append_right _ (List.mem_singleton_self i), howner⟩
  · exact fun t ht => .inl ht
  · intro id hid
    have hne : ¬ user.id = id := fun he => hid (he ▸ huser)
    rw [hhas]
    simp [hne]
  · intro issuer subject hl
    have hne : i.named issuer subject = false := by
      by_contra hnamed
      simp only [AuthIdentity.named, Bool.and_eq_true, beq_iff_eq, Bool.not_eq_false] at hnamed
      exact hl (hnamed.1 ▸ hnamed.2 ▸ hname)
    show (g.identities ++ [i]).find? _ = g.identities.find? _
    rw [List.find?_append, List.find?_cons_of_neg (by simp [hne]), List.find?_nil, Option.or_none]

end Users

/-! ### Sessions -/

/-- An update that only deletes sessions, or adds the session of `o`. -/
structure TouchesSessions (o : LoggedIn) (u : LoginDb → LoginDb) : Prop where
  users : ∀ g, (u g).users = g.users
  identities : ∀ g, (u g).identities = g.identities
  sessions : ∀ g, ∀ t ∈ (u g).sessions,
    t ∈ g.sessions ∨ t.tokenHash = o.tokenHash ∧ t.userId = o.userId

theorem Did.touch {o : LoggedIn} {h : List LoginLock} {g g' : LoginDb} (hdid : Did o h g g')
    {u : LoginDb → LoginDb} (hu : TouchesSessions o u) : Did o h g (u g') := by
  have huser : ∀ id, hasUser id (u g') = hasUser id g' := fun id => by
    rw [hasUser, hu.users, hasUser]
  have hname : ∀ issuer subject, identityOf issuer subject (u g') = identityOf issuer subject g' :=
    fun issuer subject => by rw [identityOf, hu.identities, identityOf]
  constructor
  · constructor
    · rw [hu.users]
      exact hdid.ok.userIds
    · intro i hi
      rw [huser]
      exact hdid.ok.owners i (hu.identities g' ▸ hi)
    · rw [hu.identities]
      exact hdid.ok.names
    · rw [hu.identities]
      exact hdid.ok.distinct
  · exact fun i hi => hu.identities g' ▸ hdid.kept i hi
  · rw [hname]
    exact hdid.identity
  · intro v hv
    rw [hu.users] at hv
    rw [hu.identities]
    exact hdid.users v hv
  · intro t ht
    rcases hu.sessions g' t ht with ht | hnew
    · exact hdid.sessions t ht
    · exact .inr hnew
  · exact fun id hid => (huser id).trans (hdid.unlockedUsers id hid)
  · exact fun issuer subject hl =>
      (hname issuer subject).trans (hdid.unlockedIdentities issuer subject hl)

/-- The more locks are held, the less is said of the others. -/
theorem Did.lock {o : LoggedIn} {h : List LoginLock} {g g' : LoginDb} (hdid : Did o h g g')
    (l : LoginLock) : Did o (l :: h) g g' :=
  { hdid with
    unlockedUsers := fun id hid =>
      hdid.unlockedUsers id fun hmem => hid (List.mem_cons_of_mem _ hmem)
    unlockedIdentities := fun issuer subject hl =>
      hdid.unlockedIdentities issuer subject fun hmem => hl (List.mem_cons_of_mem _ hmem) }

theorem touches_deleteSessions {o : LoggedIn} (p : AuthSession → Bool) :
    (deleteSessions p).Writes (TouchesSessions o) := by
  intro g
  refine Tx.writes_each (fun tokenHash => ?_) _
  show TouchesSessions o _ ∧ True
  exact ⟨⟨fun _ => rfl, fun _ => rfl, fun g t ht => .inl (List.mem_of_mem_filter ht)⟩, trivial⟩

theorem touches_openSession (r : Login) (o : LoggedIn) (ho : o.tokenHash = digest r.token) :
    (openSession digest r o.userId).Writes (TouchesSessions o) := by
  refine Tx.writes_bind (x := closeOldSession digest r) ?_ fun _ => ?_
  · unfold closeOldSession
    split
    · trivial
    · exact touches_deleteSessions _
  · refine Tx.writes_bind (x := deleteSessions _) (touches_deleteSessions _) fun _ => ?_
    intro g
    show (if (g.sessions.any (·.tokenHash == digest r.token) || !hasUser o.userId g) = true then
      throw integrityError
      else modify fun g => { g with
        sessions := g.sessions ++ [⟨digest r.token, o.userId, r.csrfToken, r.expiresAt⟩] } :
      LoginTx Unit).Writes (TouchesSessions o)
    split
    · trivial
    · refine ⟨⟨fun _ => rfl, fun _ => rfl, fun g t ht => ?_⟩, trivial⟩
      rcases List.mem_append.1 ht with ht | ht
      · exact .inl ht
      · rw [List.mem_singleton.1 ht]
        exact .inr ⟨ho.symm, rfl⟩

/-! ### Safety -/

theorem Relies.weaken {l : LoginLock} {h : List LoginLock} {g g' : LoginDb}
    (hr : Relies (l :: h) g g') : Relies h g g' :=
  ⟨hr.kept, fun id hl => hr.lockedUsers id (List.mem_cons_of_mem _ hl),
    fun issuer subject hl => hr.lockedIdentities issuer subject (List.mem_cons_of_mem _ hl)⟩

theorem Relies.trans {h : List LoginLock} {g g' g'' : LoginDb} (h₁ : Relies h g g')
    (h₂ : Relies h g' g'') : Relies h g g'' := loginDiscipline.rely_trans _ _ _ _ h₁ h₂

section Safety

variable (r : Login) {w : LoginDb → LoginDb} {h : List LoginLock} {g : LoginDb}

/-- The commit of the login, as far as it has come, whatever the others do meanwhile. -/
def Heading (o : LoggedIn) (w : LoginDb → LoginDb) (h : List LoginLock) (g : LoginDb) : Prop :=
  ∀ g', Relies h g g' → LoginOk g' → Did o h g' (w g')

/-- What a login returns for a user. -/
def Login.outcome (userId : Uuid) : LoggedIn := ⟨r.issuer, r.subject, userId, digest r.token⟩

/-- The user a first login inserts. -/
def Login.user : LoginUser :=
  ⟨r.userId, uuidHex r.userId ++ py "@identity.invalid", py "SpendGraph user"⟩

/-- Once the user is known, the rest of a login concerns its session. -/
theorem callback_rest {userId : Uuid} (hw : Heading (r.outcome digest userId) w h g) :
    loginDiscipline.wp (openSession digest r userId >>= fun _ =>
      (pure (r.outcome digest userId) : LoginTx LoggedIn)) loginDiscipline.Commit w h g := by
  rw [loginDiscipline.wp_bind]
  have hrest := loginDiscipline.wp_of_kept (J := Heading (r.outcome digest userId))
    (fun w h g g' hr _ hj g'' hr' => hj g'' (hr.trans hr'))
    (fun u w h g hu hj g' hr hi => (hj g' hr hi).touch hu)
    (fun l w h g hj g' hr hi => (hj g' hr.weaken hi).lock l)
    (touches_openSession digest r (r.outcome digest userId) rfl) w h g hw
  refine loginDiscipline.wp_mono ?_ _ _ _ _ hrest
  exact fun _ w h g hj g' hr hi => ⟨(hj g' hr hi).ok, hj g' hr hi⟩

/-- The winner of a race has committed its identity. -/
theorem mappedUser_heading (hkey : LoginLock.user r.userId ∈ h)
    (hfresh : hasUser r.userId g = false) :
    loginDiscipline.wp (mappedUser r) (fun userId => Heading (r.outcome digest userId))
      (fun g => { g with users := g.users ++ [r.user] }) h g := by
  rw [mappedUser, loginDiscipline.wp_bind, loginDiscipline.wp_reads]
  intro g₁ hr₁ _
  rw [loginDiscipline.wp_bind, loginDiscipline.wp_modify]
  intro g₂ hr₂ hg₂
  have hread : identityOf r.issuer r.subject { g₁ with users := g₁.users ++ [r.user] } =
      identityOf r.issuer r.subject g₁ := rfl
  rw [hread]
  cases hi : identityOf r.issuer r.subject g₁ with
  | none => trivial
  | some i =>
    intro g' hr' hg'
    have hfresh' : hasUser r.user.id g' = false :=
      ((hr₁.trans (hr₂.trans hr')).lockedUsers _ hkey).trans hfresh
    exact Did.raced hg' hfresh' (hr'.identityOf hg' (hr₂.identityOf hg₂ hi)) rfl

/-- The identity of a first login is inserted. -/
theorem addIdentity_heading (hkey : LoginLock.user r.userId ∈ h)
    (hname : LoginLock.identity r.issuer r.subject ∈ h) (hfresh : hasUser r.userId g = false)
    (hnone : identityOf r.issuer r.subject g = none) :
    loginDiscipline.wp (addIdentity ⟨r.identityId, r.userId, r.issuer, r.subject⟩)
      (fun inserted w h g => inserted = true ∧ Heading (r.outcome digest r.userId) w h g)
      (fun g => { g with users := g.users ++ [r.user] }) h g := by
  rw [addIdentity, loginDiscipline.wp_bind, loginDiscipline.wp_acquire]
  intro g₁ hr₁ _
  rw [loginDiscipline.wp_bind, loginDiscipline.wp_reads]
  intro g₂ hr₂ _
  split
  · trivial
  rw [loginDiscipline.wp_bind, loginDiscipline.wp_modify]
  intro g₃ hr₃ _
  refine ⟨rfl, fun g' hr' hg' => ?_⟩
  -- both keys are held, so nobody else has inserted the user or the identity
  have hrely := hr₁.trans (hr₂.weaken.trans (hr₃.weaken.trans hr'.weaken))
  show Did _ _ g' { g' with
    users := g'.users ++ [r.user]
    identities := g'.identities ++ [⟨r.identityId, r.userId, r.issuer, r.subject⟩] }
  have huser : LoginLock.user r.user.id ∈ h := hkey
  refine Did.created (i := ⟨r.identityId, r.userId, r.issuer, r.subject⟩) hg' ?_ ?_ rfl
    (List.mem_cons_of_mem _ huser) (List.mem_cons_of_mem _ hname)
  · exact (hrely.lockedUsers _ hkey).trans hfresh
  · exact (hrely.lockedIdentities _ _ hname).trans hnone

/-- The user of a first login. -/
theorem firstLogin_heading : loginDiscipline.wp (firstLogin r)
    (fun userId => Heading (r.outcome digest userId)) id [] g := by
  unfold firstLogin insertUser insertIdentity
  rw [loginDiscipline.wp_bind, loginDiscipline.wp_bind, loginDiscipline.wp_acquire]
  intro g₁ _ _
  rw [loginDiscipline.wp_bind, loginDiscipline.wp_acquire]
  intro g₂ _ _
  rw [loginDiscipline.wp_bind, loginDiscipline.wp_reads]
  intro g₃ _ _
  dsimp only [id]
  split
  · trivial
  rename_i hclash
  rw [Bool.not_eq_true, Bool.or_eq_false_iff] at hclash
  obtain ⟨hfresh, -⟩ := hclash
  rw [loginDiscipline.wp_modify]
  intro g₄ hr₄ _
  rw [loginDiscipline.wp_bind, loginDiscipline.wp_bind, loginDiscipline.wp_acquire]
  intro g₅ hr₅ _
  rw [loginDiscipline.wp_bind, loginDiscipline.wp_reads]
  intro g₆ hr₆ _
  have hfresh₆ : hasUser r.userId g₆ = false := by
    rw [hr₆.lockedUsers _ (by simp), hr₅.lockedUsers _ (by simp), hr₄.lockedUsers _ (by simp)]
    exact hfresh
  dsimp only [Function.comp_apply, id]
  split
  · rw [loginDiscipline.wp_pure, if_neg (by decide)]
    exact mappedUser_heading digest r (by simp) hfresh₆
  · rename_i hnone
    refine loginDiscipline.wp_mono ?_ _ _ _ _
      (addIdentity_heading digest r (by simp) (by simp) hfresh₆ ?_)
    · rintro inserted w h g ⟨rfl, hw⟩
      exact hw
    · rw [identityOf, List.find?_eq_none]
      exact List.any_eq_false.1 (by simpa using hnone)

/-- Every login is safe, whatever the others do meanwhile. -/
theorem callback_safe : loginDiscipline.Safe (callback digest r) id [] g := by
  unfold Discipline.Safe callback loginUser
  rw [loginDiscipline.wp_bind, loginDiscipline.wp_bind, loginDiscipline.wp_reads]
  intro g₁ _ _
  dsimp only [id]
  cases hi : identityOf r.issuer r.subject g₁ with
  | some i =>
    refine callback_rest digest r fun g' hr hg' => ?_
    exact Did.existing hg' (hr.identityOf hg' hi) rfl
  | none =>
    refine loginDiscipline.wp_mono ?_ _ _ _ _ (firstLogin_heading digest r)
    exact fun userId w h g hw => callback_rest digest r hw

end Safety

/-! ### Runs -/

section Runs

variable {ι : Type} [DecidableEq ι] {g₀ : LoginDb}

/-- A session runs a login. -/
def Logins (_ : List LoggedIn) (p : LoginTx LoggedIn) : Prop := ∃ r : Login, p = callback digest r

/-- What the logins so far have left. -/
structure Mapped (g₀ g : LoginDb) (log : List LoggedIn) : Prop where
  identities : ∀ o ∈ log, (identityOf o.issuer o.subject g).map AuthIdentity.userId = some o.userId
  sessions : ∀ t ∈ g.sessions, ∃ o ∈ log, t.tokenHash = o.tokenHash ∧ t.userId = o.userId
  users : ∀ u ∈ g.users, u ∈ g₀.users ∨ ∃ i ∈ g.identities, i.userId = u.id

theorem Mapped.commit {g g' : LoginDb} {log : List LoggedIn} {o : LoggedIn} {h : List LoginLock}
    (hm : Mapped g₀ g log) (hdid : Did o h g g') : Mapped g₀ g' (log ++ [o]) where
  identities := by
    intro o' ho'
    rcases List.mem_append.1 ho' with ho' | ho'
    · obtain ⟨i, hi, huser⟩ := Option.map_eq_some_iff.1 (hm.identities o' ho')
      rw [identityOf_eq_some hdid.ok (hdid.kept i (mem_of_identityOf hi).1) (List.find?_some hi),
        ← huser]
      rfl
    · rw [List.mem_singleton.1 ho']
      exact hdid.identity
  sessions := by
    intro t ht
    rcases hdid.sessions t ht with ht | hnew
    · obtain ⟨o', ho', hsame⟩ := hm.sessions t ht
      exact ⟨o', List.mem_append_left _ ho', hsame⟩
    · exact ⟨o, List.mem_append_right _ (List.mem_singleton_self o), hnew⟩
  users := by
    intro u hu
    rcases hdid.users u hu with hu | hnew
    · rcases hm.users u hu with hold | ⟨i, hi, howner⟩
      · exact .inl hold
      · exact .inr ⟨i, hdid.kept i hi, howner⟩
    · exact .inr hnew

/-- **One identity, one user.**  From a store without identities and sessions, in every state
    that any interleaving of logins with rollbacks, crashes and deletions of sessions reaches:
    an issuer and subject that logged in have exactly one identity row; every session was
    opened by a login, for the user of its identity; no two identities share a user; and
    every user a login created has an identity. -/
theorem one_identity_one_user (husers : (g₀.users.map LoginUser.id).Nodup)
    (hidentities : g₀.identities = []) (hsessions : g₀.sessions = [])
    {s : State LoginDb LoginLock AuthError LoggedIn ι}
    (hs : Reachable (Logins digest) Others g₀ s) :
    (∀ o ∈ s.log, ∃ i, s.db.identities.filter (·.named o.issuer o.subject) = [i] ∧
      i.userId = o.userId) ∧
    (∀ t ∈ s.db.sessions, ∃ o ∈ s.log, t.tokenHash = o.tokenHash ∧ t.userId = o.userId) ∧
    (s.db.identities.map AuthIdentity.userId).Nodup ∧
    (∀ u ∈ s.db.users, u ∈ g₀.users ∨ ∃ i ∈ s.db.identities, i.userId = u.id) := by
  have h₀ : LoginOk g₀ := by
    constructor
    · exact husers
    all_goals simp [hidentities]
  have hprog : ∀ log p g, Logins digest log p → loginDiscipline.inv g →
      loginDiscipline.Safe p id [] g := by
    rintro log p g ⟨r, rfl⟩ -
    exact callback_safe digest r
  have hok : LoginOk s.db := (Discipline.sound hprog h₀ hs).inv
  have hmapped : Mapped g₀ s.db s.log := by
    refine Discipline.commit_induction (J := Mapped g₀) hprog h₀ ?_ ?_ ?_ hs
    · exact ⟨by simp, by simp [hsessions], fun u hu => .inl hu⟩
    · exact fun h o g g' log _ _ hdid hm => hm.commit hdid
    · rintro g g' log - ⟨hu, hi, ht⟩ hm
      refine ⟨fun o ho => ?_, fun t htm => hm.sessions t (ht t htm), ?_⟩
      · rw [identityOf, hi]
        exact hm.identities o ho
      · rw [hu, hi]
        exact hm.users
  refine ⟨fun o ho => ?_, hmapped.sessions, hok.distinct, hmapped.users⟩
  obtain ⟨i, hi, huser⟩ := Option.map_eq_some_iff.1 (hmapped.identities o ho)
  obtain ⟨hmem, hissuer, hsubject⟩ := mem_of_identityOf hi
  refine ⟨i, Table.filter_eq_singleton hok.names hmem fun j _ => ?_, huser⟩
  simp [AuthIdentity.named, hissuer, hsubject]

/-- The SHA-256 digests of the tokens of two logins. -/
def sampleDigest (token : PyStr) : PyStr :=
  if token = List.replicate 43 65 then
    py "0f007385b6f9d4b7eeb2748605afe1a984a0a3bfa3f014d09e2a784ce9e5cd1a"
  else py "6bcb93259ceb9adbdaaa6b0752d473bf3f893c1c34b8f83543e27c379803f7ab"

/-- A first login of a subject. -/
def sampleLogin : Login where
  issuer := py "https://accounts.google.com"
  subject := py "110169484474386276334"
  oldToken := []
  userId := 1
  identityId := 2
  token := List.replicate 43 65
  csrfToken := List.replicate 43 67
  deletedAt := 0
  expiresAt := 10

/-- Another first login of the same subject, at the same time. -/
def sampleRace : Login :=
  { sampleLogin with userId := 3, identityId := 4, token := 66 :: List.replicate 42 65 }

/-- Two first logins race: the second one finds no identity, the first one commits, and then the
    second one takes its user.  It is one of the runs of `one_identity_one_user`. -/
theorem one_identity_one_user_race :
    ∃ s : State LoginDb LoginLock AuthError LoggedIn Bool,
      Reachable (Logins sampleDigest) Others ⟨[], [], []⟩ s ∧
      s.log.map LoggedIn.userId = [1, 1] ∧ s.db.users.map LoginUser.id = [1] ∧
      s.db.sessions.map AuthSession.userId = [1, 1] ∧
      ∀ o ∈ s.log, ∃ i, s.db.identities.filter (·.named o.issuer o.subject) = [i] ∧
        i.userId = o.userId := by
  -- what is left of a login once it has looked for the identity
  let user : Option AuthIdentity → LoginTx Uuid
    | some identity => pure identity.userId
    | none => firstLogin sampleRace
  let rest (existing : Option AuthIdentity) : LoginTx LoggedIn := do
    let userId ← user existing
    openSession sampleDigest sampleRace userId
    pure (sampleRace.outcome sampleDigest userId)
  have hopened : Reachable (Logins sampleDigest) Others ⟨[], [], []⟩
      (⟨⟨[], [], []⟩, [], Function.update (fun _ => none) false (some ⟨rest none, id, []⟩)⟩ :
        State LoginDb LoginLock AuthError LoggedIn Bool) :=
    Reachable.opened (f := identityOf sampleRace.issuer sampleRace.subject) (k := rest) false rfl
      .init ⟨sampleRace, rfl⟩
  have hheld : ∀ (j : Bool) (t : Session LoginDb LoginLock AuthError LoggedIn),
      Function.update (fun _ => none) false (some ⟨rest none, id, []⟩) j = some t →
      t.held = [] := by
    intro j t ht
    cases j with
    | false =>
      rw [Function.update_self] at ht
      rw [← Option.some.inj ht]
    | true => cases ht
  let won := (callback sampleDigest sampleLogin).after ⟨[], [], []⟩
  obtain ⟨a, hrun, ha⟩ := Tx.run_of_returns
    (show (callback sampleDigest sampleLogin).returns (fun o => o.userId == 1) ⟨[], [], []⟩ = true
      by decide +kernel)
  obtain ⟨b, hrun', hb⟩ := Tx.run_of_returns
    (show (rest none).returns (fun o => o.userId == 1) won = true by decide +kernel)
  have hwon := hopened.beside true rfl hheld ⟨sampleLogin, rfl⟩ hrun
  have hlost := Reachable.finish (w := id) false (fun _ _ _ h => by cases h) hrun' hwon
  refine ⟨_, hlost, ?_, ?_, ?_, (one_identity_one_user sampleDigest (by simp) rfl rfl hlost).1⟩
  · rw [List.map_append, List.nil_append, List.map_singleton, List.map_singleton, eq_of_beq ha,
      eq_of_beq hb]
    rfl
  · show ((rest none).after won).users.map LoginUser.id = [1]
    decide +kernel
  · show ((rest none).after won).sessions.map AuthSession.userId = [1, 1]
    decide +kernel

end Runs

end Expensea.Auth
