import Expensea.Connections.Disconnect
import Expensea.Connections.Refresh

namespace Expensea.Connections

open Txn Txn.Discipline Auth
open Txn.Tx (reads modify acquire throw)

/-!
# Gmail operations — where a rotated token survives

Refreshes, syncs and timeouts interleaved with the authorization requests.  An operation
holds the credential row from its lock to its end, so the grant in the row is decided by
whether the operation that rotated it commits:

* `gmailDiscipline` — a commit that replaces no grant of a user leaves it;
* `Unreplaced` — the runs in which nothing replaces a user's grant;
* `rotated_token_kept_iff` — a token the provider has rotated stays stored, until something
  replaces it, exactly when what follows the exchange ends normally or with an exception
  that `_run_gmail` catches, and the operation is not lost before its commit.
-/

/-! ### Requests -/

/-- What a committed transaction did. -/
inductive GmailOutcome where
  | flow (outcome : Outcome)
  /-- An operation: whether it replaced the stored grant, and its response. -/
  | ran (owner : Uuid) (replaced : Bool) (response : Except AuthError GmailResponse)
  | timedOut (owner : Uuid)

/-- The commits of the authorization requests. -/
def flows (log : List GmailOutcome) : List Outcome :=
  log.filterMap fun
    | .flow outcome => some outcome
    | _ => none

/-- A commit that replaces or drops the grant of a user. -/
def GmailOutcome.replaces (owner : Uuid) : GmailOutcome → Bool
  | .flow outcome => outcome.touches owner
  | .ran user replaced _ => user == owner && replaced
  | .timedOut _ => false

/-- The grant in a user's credential row. -/
def storedGrant (g : AuthDb) (owner : Uuid) : Option (PyStr × Option PyStr) :=
  (credential g owner).map grantOf

/-- The token a user's credential row holds. -/
def storedToken (F : Fernet) (ring : Keyring) (g : AuthDb) (owner : Uuid) : Option PyStr :=
  match storedGrant g owner with
  | some (keyId, some ciphertext) => (decryptToken F ring keyId ciphertext).toOption
  | _ => none

/-- The transaction of an operation. -/
def operation (F : Fernet) (settings : GmailSettings) (request : GmailRequest) :
    AuthTx GmailOutcome :=
  (fun r => GmailOutcome.ran request.owner r.1 r.2) <$> runGmail F settings request

/-- What an operation still has to do once it has locked a credential. -/
def operating (F : Fernet) (settings : GmailSettings) (request : GmailRequest)
    (c : GmailCredential) : AuthTx GmailOutcome :=
  (fun r => GmailOutcome.ran request.owner r.1 r.2) <$> operate F settings request c

/-- The transactions sessions may open. -/
inductive GmailAdmitted (digest : PyStr → PyStr) (auth : AuthSettings) (F : Fernet)
    (settings : GmailSettings) (log : List GmailOutcome) : AuthTx GmailOutcome → Prop
  | flow (p : AuthTx Outcome) : Admitted digest auth (flows log) p →
      GmailAdmitted digest auth F settings log (GmailOutcome.flow <$> p)
  | run (request : GmailRequest) :
      GmailAdmitted digest auth F settings log (operation F settings request)
  | timeout (owner : Uuid) : GmailAdmitted digest auth F settings log
      ((fun _ => GmailOutcome.timedOut owner) <$> markTimedOut owner)

/-- Time passes, and transactions that are not about credentials commit. -/
def Elsewhere (g g' : AuthDb) : Prop := g'.credentials = g.credentials

/-! ### The discipline -/

theorem keepsLocked_refl (h : List AuthLock) (g : AuthDb) : KeepsLocked h g g := fun _ _ => rfl

theorem keepsLocked_trans {h : List AuthLock} {g g' g'' : AuthDb} (h₁ : KeepsLocked h g g')
    (h₂ : KeepsLocked h g' g'') : KeepsLocked h g g'' :=
  fun owner hl => (h₂ owner hl).trans (h₁ owner hl)

/-- What leaves the credentials leaves the locked ones. -/
theorem Elsewhere.keepsLocked {g g' : AuthDb} (he : Elsewhere g g') (h : List AuthLock) :
    KeepsLocked h g g' := by
  intro owner _
  unfold credential
  rw [show g'.credentials = g.credentials from he]

/-- Rows that are not locked by one session are kept for the others. -/
theorem KeepsUnlocked.keepsLocked {h h' : List AuthLock} {g g' : AuthDb}
    (hkeeps : KeepsUnlocked h g g') (hdisj : List.Disjoint h h') : KeepsLocked h' g g' :=
  fun owner hl => hkeeps owner fun hl' => hdisj hl' hl

/-- A commit that replaces no grant of a user leaves it, and rows that are not locked stay. -/
def gmailDiscipline : Discipline AuthDb AuthLock AuthError GmailOutcome where
  inv _ := True
  post h a g g' :=
    (∀ owner, a.replaces owner = false → storedGrant g' owner = storedGrant g owner) ∧
      KeepsUnlocked h g g'
  rely := KeepsLocked
  env := Elsewhere
  rely_refl := keepsLocked_refl
  rely_trans _ _ _ _ := keepsLocked_trans
  post_rely _ _ _ _ _ _ _ hdisj hpost := hpost.2.keepsLocked hdisj
  env_inv _ _ _ _ := trivial
  env_rely h _ _ _ he := he.keepsLocked h

/-- An authorization request that does not touch a user's credential leaves its grant. -/
theorem Outcome.Effect.storedGrant {a : Outcome} {g g' : AuthDb} (h : a.Effect g g') {owner : Uuid}
    (ha : a.touches owner = false) : storedGrant g' owner = storedGrant g owner := by
  have hsame : g'.credentials = g.credentials →
      Connections.storedGrant g' owner = Connections.storedGrant g owner := by
    intro hc
    unfold Connections.storedGrant credential
    rw [hc]
  have hother : credential g' owner = credential g owner →
      Connections.storedGrant g' owner = Connections.storedGrant g owner := by
    intro hc
    unfold Connections.storedGrant
    rw [hc]
  cases a with
  | connected row => exact hsame h
  | consumed row => exact hsame h
  | stored row =>
    obtain ⟨u, hu, -, -, hothers⟩ := h
    have hne : ¬ row.userId = some owner := by simpa [Outcome.touches] using ha
    exact hother (hothers owner fun ho => hne (by rw [hu, ho]))
  | disconnected u revoked t =>
    have hne : ¬ u = owner := by simpa [Outcome.touches] using ha
    exact hother (h.2 owner fun ho => hne ho.symm)

/-- The authorization requests keep the discipline. -/
theorem safe_flow {digest : PyStr → PyStr} {auth : AuthSettings} {log : List Outcome}
    {p : AuthTx Outcome} (hp : Admitted digest auth log p) (g : AuthDb) :
    gmailDiscipline.Safe (GmailOutcome.flow <$> p) id [] g := by
  refine (gmailDiscipline.wp_map p _ _ _ _ _).2 ?_
  -- the two disciplines rely on the same
  have hinv : authDiscipline.inv = gmailDiscipline.inv := rfl
  have hrely : authDiscipline.rely = gmailDiscipline.rely := rfl
  refine gmailDiscipline.wp_mono ?_ p id [] g
    ((wp_congr hinv hrely p _ id [] g).1 (safe_admitted hp g))
  intro a w h g hcommit g' hrely hinv
  obtain ⟨-, heffect, hkeeps⟩ := hcommit g' hrely hinv
  exact ⟨trivial, fun owner ha => heffect.storedGrant ha, hkeeps⟩

/-- A commit that replaces one locked row and says whether it changed the grant. -/
theorem commit_of_replaces {owner : Uuid} {c c' : GmailCredential} {w : AuthDb → AuthDb}
    {h : List AuthLock} {g : AuthDb} (hr : Replaces owner (some c) c' w h g) {a : GmailOutcome}
    (ha : a.replaces owner = false → grantOf c' = grantOf c) :
    gmailDiscipline.Commit a w h g := by
  intro g' hrely _
  have hc : credential g' owner = some c := (hrely owner hr.locked).trans hr.committed
  refine ⟨trivial, fun v hv => ?_, fun v hl => ?_⟩
  · by_cases hvo : v = owner
    · subst hvo
      unfold storedGrant
      rw [hr.written g', hc, Option.map_some, Option.map_some, ha hv]
    · unfold storedGrant
      rw [hr.others g' v hvo]
  · refine hr.others g' v fun hvo => hl ?_
    rw [hvo]
    exact hr.locked

/-- A commit that has written nothing. -/
theorem commit_of_id {h : List AuthLock} {g : AuthDb} (a : GmailOutcome) :
    gmailDiscipline.Commit a id h g :=
  fun _ _ _ => ⟨trivial, fun _ _ => rfl, fun _ _ => rfl⟩

/-- The row an operation writes is its owner's. -/
theorem committed_userId {F : Fernet} {settings : GmailSettings} {request : GmailRequest}
    {c c' : GmailCredential} {response : Except AuthError GmailResponse}
    (h : settle (attempt F settings request c) = .ok (c', response)) : c'.userId = c.userId := by
  obtain ⟨hsame, -, -⟩ := settle_ok h
  rw [hsame.userId]
  rcases hrefresh : refreshAccess F settings.keyring request.draw request.answer c with ⟨c₁, result⟩
  have huser : c₁.userId = c.userId := by
    rcases refreshAccess_cases F settings.keyring request.draw request.answer c
      with ⟨-, hrefused⟩ | ⟨-, hexchanged⟩
    · rw [hrefresh] at hrefused
      rw [(Prod.mk.inj hrefused).1]
    · rw [hrefresh] at hexchanged
      cases hexchanged with
      | kept => rfl
      | stored => rfl
      | revoked => rfl
  cases result with
  | error e => rw [attempt_of_failed hrefresh]; exact huser
  | ok access =>
    obtain ⟨t, result, hattempt, -⟩ := attempt_of_refreshed settings hrefresh
    rw [hattempt]
    exact huser

/-- What follows the lock of a credential keeps the discipline. -/
theorem safe_operating (F : Fernet) (settings : GmailSettings) (request : GmailRequest)
    {c : GmailCredential} {h : List AuthLock} {g : AuthDb} (hl : .credential request.owner ∈ h)
    (hc : credential g request.owner = some c) :
    gmailDiscipline.Safe (operating F settings request c) id h g := by
  unfold operating operate
  cases hsettle : settle (attempt F settings request c) with
  | error e => trivial
  | ok committed =>
    obtain ⟨c', response⟩ := committed
    have howner : c'.userId = request.owner := by
      rw [committed_userId hsettle]
      exact Table.key_of_get hc
    intro g₁ hrely _
    have hc₁ : credential g₁ request.owner = some c := (hrely _ hl).trans hc
    refine commit_of_replaces (.of_put hl hc₁ howner fun _ => rfl) fun ha => ?_
    simpa [GmailOutcome.replaces] using ha

theorem safe_operation (F : Fernet) (settings : GmailSettings) (request : GmailRequest)
    (g : AuthDb) : gmailDiscipline.Safe (operation F settings request) id [] g := by
  unfold operation runGmail
  by_cases hconfigured : settings.configured = true
  · rw [if_pos hconfigured]
    intro g₁ _ _
    dsimp only [id]
    cases credential g₁ request.owner with
    | none => trivial
    | some _ =>
      intro g₂ _ _ g₃ _ _
      dsimp only [id]
      cases hc : credential g₃ request.owner with
      | none => trivial
      | some c => exact safe_operating F settings request (by simp) hc
  · rw [if_neg hconfigured]
    trivial

theorem safe_timeout (owner : Uuid) (g : AuthDb) :
    gmailDiscipline.Safe ((fun _ => GmailOutcome.timedOut owner) <$> markTimedOut owner) id [] g := by
  unfold markTimedOut
  intro g₁ _ _
  dsimp only [id]
  cases (credential g₁ owner).filter timesOut with
  | none => exact commit_of_id _
  | some _ =>
    intro g₂ _ _ g₃ _ _
    dsimp only [id]
    cases hfound : (credential g₃ owner).filter timesOut with
    | none => exact fun g' _ _ => ⟨trivial, fun _ _ => rfl, fun _ _ => rfl⟩
    | some c =>
      obtain ⟨hc, -⟩ := Option.filter_eq_some_iff.1 hfound
      intro g₄ hrely _
      have hc₄ : credential g₄ owner = some c := (hrely owner List.mem_cons_self).trans hc
      have howner : c.userId = owner := Table.key_of_get hc
      have hr : Replaces owner (some c) (GmailCredential.timedOut c)
          (putCredential (GmailCredential.timedOut c) ∘ id) [.credential owner] g₄ := by
        refine .of_put List.mem_cons_self hc₄ ?_ fun _ => rfl
        exact howner
      exact commit_of_replaces hr fun _ => rfl

section Runs

variable {digest : PyStr → PyStr} {auth : AuthSettings} {F : Fernet} {settings : GmailSettings}

theorem safe_gmailAdmitted {log : List GmailOutcome} {p : AuthTx GmailOutcome}
    (hp : GmailAdmitted digest auth F settings log p) (g : AuthDb) :
    gmailDiscipline.Safe p id [] g := by
  cases hp with
  | flow p hp => exact safe_flow hp g
  | run request => exact safe_operation F settings request g
  | timeout owner => exact safe_timeout owner g

/-! ### Runs that replace nothing -/

/-- A state of the connections and the sessions on them. -/
abbrev GmailState (ι : Type) := State AuthDb AuthLock AuthError GmailOutcome ι

variable {ι : Type} [DecidableEq ι]

variable (digest auth F settings) in
/-- The states reached without a commit that replaces the grant of a user. -/
inductive Unreplaced (owner : Uuid) (s : GmailState ι) : GmailState ι → Prop
  | refl : Unreplaced owner s s
  | step {s₁ s₂ : GmailState ι} {ev : Event AuthError GmailOutcome} : Unreplaced owner s s₁ →
      Step (GmailAdmitted digest auth F settings) Elsewhere s₁ ev s₂ →
      (∀ a, ev = .commit a → a.replaces owner = false) → Unreplaced owner s s₂

/-- What replaces nothing leaves the grant. -/
theorem Unreplaced.storedGrant {owner : Uuid} {s s' : GmailState ι} (hg : gmailDiscipline.Good s)
    (h : Unreplaced digest auth F settings owner s s') :
    gmailDiscipline.Good s' ∧ storedGrant s'.db owner = storedGrant s.db owner := by
  induction h with
  | refl => exact ⟨hg, rfl⟩
  | @step s₁ s₂ ev _ hstep hreplaces ih =>
    obtain ⟨hg₁, hgrant⟩ := ih
    refine ⟨hg₁.step (fun p hp => safe_gmailAdmitted hp _) hstep, ?_⟩
    rw [← hgrant]
    by_cases hcommit : ∃ a, ev = .commit a
    · obtain ⟨a, rfl⟩ := hcommit
      obtain ⟨⟨h, hpost, -⟩, -⟩ := hg₁.commit_post hstep
      exact hpost owner (hreplaces a rfl)
    · by_cases henv : ev = .environment
      · subst henv
        cases hstep with
        | env g he =>
          unfold Connections.storedGrant credential
          rw [show g.credentials = _ from he]
      · rw [hstep.db_eq (fun a ha => hcommit ⟨a, ha⟩) henv]

/-! ### The end of an operation -/

/-- How a session ends: by the commit of its result, by its error, or lost. -/
theorem session_end {allowed : List GmailOutcome → AuthTx GmailOutcome → Prop}
    {s s' : GmailState ι} {ev : Event AuthError GmailOutcome} (hstep : Step allowed Elsewhere s ev s')
    {i : ι} {t : Session AuthDb AuthLock AuthError GmailOutcome} (ht : s.sessions i = some t)
    (hend : s'.sessions i = none) :
    (∃ a, t.prog = .pure a ∧ ev = .commit a ∧ s'.db = t.pending s.db) ∨
      (∃ e, t.prog = .fail e ∧ ev = .rollback e ∧ s'.db = s.db) ∨ (ev = .silent ∧ s'.db = s.db) := by
  have hopen : ∀ (j : ι) (u : Session AuthDb AuthLock AuthError GmailOutcome),
      (s.setSession j (some u)).sessions i ≠ none := by
    intro j u
    rw [State.setSession_sessions]
    by_cases hj : j = i
    · subst hj
      simp
    · rw [Function.update_of_ne (Ne.symm hj), ht]
      simp
  have hother : ∀ j : ι, j ≠ i → (s.setSession j none).sessions i ≠ none := by
    intro j hj
    rw [State.setSession_sessions, Function.update_of_ne (Ne.symm hj), ht]
    simp
  cases hstep with
  | begin j p hn hp => exact absurd hend (hopen j _)
  | read j k w h hs => exact absurd hend (hopen j _)
  | write j u k w h hs => exact absurd hend (hopen j _)
  | lock j l k w h hs hfree => exact absurd hend (hopen j _)
  | locked j l k w h hs hfree => exact absurd hend (hopen j _)
  | skipped j l k w h hs hheld => exact absurd hend (hopen j _)
  | commit j a w h hs =>
    by_cases hj : j = i
    · subst hj
      obtain rfl := Option.some.inj (ht.symm.trans hs)
      exact .inl ⟨a, rfl, rfl, rfl⟩
    · exact absurd hend (hother j hj)
  | rollback j e w h hs =>
    by_cases hj : j = i
    · subst hj
      obtain rfl := Option.some.inj (ht.symm.trans hs)
      exact .inr (.inl ⟨e, rfl, rfl, rfl⟩)
    · exact absurd hend (hother j hj)
  | crash j => exact .inr (.inr ⟨rfl, rfl⟩)
  | env g he => exact absurd hend (by rw [ht]; simp)

/-- **A rotated token survives exactly the exits that commit.**  An operation has locked the
    credential of its owner, and its refresh returns after the provider answered with a new
    refresh token.  Once it has ended, and until something replaces the grant, the token
    stored is the new one if and only if the operation was not lost before its commit and
    no exception left it that `_run_gmail` does not catch. -/
theorem rotated_token_kept_iff (hF : F.Lawful) {g₀ : AuthDb} {s₀ s s' : GmailState ι}
    (hs₀ : Reachable (GmailAdmitted digest auth F settings) Elsewhere g₀ s₀) {i : ι}
    {request : GmailRequest} {c c' : GmailCredential} {access new : PyStr}
    (hlocked : s₀.sessions i =
      some ⟨operating F settings request c, id, [.credential request.owner]⟩)
    (hc : credential s₀.db request.owner = some c)
    (hrefresh : refreshAccess F settings.keyring request.draw request.answer c = (c', .ok access))
    (hnew : request.answer.refreshToken = some new)
    (hother : storedToken F settings.keyring s₀.db request.owner ≠ some new)
    (hf : Follows (GmailAdmitted digest auth F settings) Elsewhere i s₀ s)
    {ev : Event AuthError GmailOutcome}
    (hstep : Step (GmailAdmitted digest auth F settings) Elsewhere s ev s')
    (hend : s'.sessions i = none) :
    (∀ s'', Unreplaced digest auth F settings request.owner s' s'' →
      storedToken F settings.keyring s''.db request.owner = some new) ↔
    (∀ e, request.raises settings.aiEnabled = some e → e.caught ≠ none) ∧ ev ≠ .silent := by
  have hprog : ∀ log p g, GmailAdmitted digest auth F settings log p → gmailDiscipline.inv g →
      gmailDiscipline.Safe p id [] g := fun log p g hp _ => safe_gmailAdmitted hp g
  have hg₀ : gmailDiscipline.Good s₀ := gmailDiscipline.sound hprog trivial hs₀
  obtain ⟨hg, ⟨t, ht, -⟩, hrely⟩ := hf.rely hprog hg₀ hlocked
  have hcs : credential s.db request.owner = some c :=
    (hrely request.owner List.mem_cons_self).trans hc
  -- the token of an operation that does not commit is the old one
  have hlost : s'.db = s.db → ¬ ∀ s'', Unreplaced digest auth F settings request.owner s' s'' →
      storedToken F settings.keyring s''.db request.owner = some new := by
    intro hdb hall
    refine hother ?_
    have hend := hall s' .refl
    unfold storedToken storedGrant at hend ⊢
    rw [hdb, hcs] at hend
    rw [hc]
    exact hend
  obtain ⟨synced, result, hattempt, hraised⟩ := attempt_of_refreshed settings hrefresh
  have hcaught := settle_isOk (attempt F settings request c)
  rw [hattempt, hraised, ← hattempt] at hcaught
  rw [← hcaught]
  by_cases hok : ∃ committed, settle (attempt F settings request c) = .ok committed
  · obtain ⟨⟨c₂, response⟩, hsettle⟩ := hok
    -- the operation writes the credential with the new grant, and has no error
    have hwpe : gmailDiscipline.wpe (fun _ => False) (operating F settings request c)
        (fun _ w _ _ => ∀ g, credential (w g) request.owner = some c₂) id
        [.credential request.owner] s₀.db := by
      unfold operating operate
      rw [hsettle]
      intro g _ _ g'
      have howner : c₂.userId = request.owner := by
        rw [committed_userId hsettle]
        exact Table.key_of_get hc
      rw [← howner]
      exact credential_putCredential_self c₂ g'
    have hgrant : grantOf c₂ = grantOf c' := by
      obtain ⟨-, hkept, -⟩ := settle_ok hsettle
      rw [hkept, hattempt]
      rfl
    obtain ⟨-, t', ht', hwpe'⟩ := hf.wpe hprog (fun _ _ _ _ _ _ _ hq => hq) hg₀ hlocked hwpe
    rcases session_end hstep ht' hend with ⟨a, hpure, hev, hdb⟩ | ⟨e, hfail, -, -⟩ | ⟨hev, hdb⟩
    · rw [hpure] at hwpe'
      refine iff_of_true (fun s'' hun => ?_) ⟨⟨_, hsettle⟩, by rw [hev]; simp⟩
      have hg' : gmailDiscipline.Good s' := hg.step (fun p hp => safe_gmailAdmitted hp _) hstep
      have hstored : storedGrant s''.db request.owner = some (grantOf c') := by
        rw [(hun.storedGrant hg').2, hdb]
        unfold storedGrant
        rw [hwpe' s.db, Option.map_some, hgrant]
      have htoken := refreshAccess_ok hF hrefresh hnew
      unfold storedToken
      rw [hstored]
      unfold grantOf
      cases hcipher : c'.refreshCiphertext with
      | none =>
        -- a refresh that returned has stored a ciphertext
        exact absurd hcipher (refreshAccess_stores hrefresh)
      | some ciphertext =>
        rw [hcipher] at htoken
        dsimp only
        rw [show decryptToken F settings.keyring c'.keyId ciphertext = .ok new from htoken]
        rfl
    · rw [hfail] at hwpe'
      exact hwpe'.elim
    · exact iff_of_false (hlost hdb) fun hcond => hcond.2 hev
  · refine iff_of_false (hlost ?_) fun hcond => hok hcond.1
    have hwpe : gmailDiscipline.wpe (fun _ => True) (operating F settings request c)
        (fun _ _ _ _ => False) id [.credential request.owner] s₀.db := by
      unfold operating operate
      cases hsettle : settle (attempt F settings request c) with
      | error e => trivial
      | ok committed => exact absurd ⟨_, hsettle⟩ hok
    obtain ⟨-, t', ht', hwpe'⟩ := hf.wpe hprog (fun _ _ _ _ _ _ _ hq => hq) hg₀ hlocked hwpe
    rcases session_end hstep ht' hend with ⟨a, hpure, -, -⟩ | ⟨e, -, -, hdb⟩ | ⟨-, hdb⟩
    · rw [hpure] at hwpe'
      exact hwpe'.elim
    · exact hdb
    · exact hdb

/-- Every operation on a credential comes to the point where it has locked it. -/
theorem operation_locks {allowed : List GmailOutcome → AuthTx GmailOutcome → Prop}
    {env : AuthDb → AuthDb → Prop} {P : GmailState ι → Prop}
    (hclosed : ∀ s ev s', P s → Step allowed env s ev s' → P s') {g : AuthDb}
    {log : List GmailOutcome} (hs : P ⟨g, log, fun _ => none⟩)
    (hconfigured : settings.configured = true) {request : GmailRequest} {c : GmailCredential}
    (hallowed : allowed log (operation F settings request))
    (hc : credential g request.owner = some c) (i : ι) :
    P ⟨g, log, Function.update (fun _ => none) i
      (some ⟨operating F settings request c, id, [.credential request.owner]⟩)⟩ := by
  -- the statements that are left after the query, and after the lock
  obtain ⟨query, hprogram, lookup, hquery, hlookup⟩ : ∃ query : AuthDb → AuthTx GmailOutcome,
      operation F settings request = .read query ∧ ∃ lookup : AuthDb → AuthTx GmailOutcome,
      query g = .lock (.credential request.owner) (.read lookup) ∧
        lookup g = operating F settings request c := by
    unfold operation runGmail
    rw [if_pos hconfigured]
    refine ⟨_, rfl, ?_⟩
    simp only [hc]
    exact ⟨_, rfl, by simp only [hc]; rfl⟩
  have hbegun := hclosed _ _ _ hs (.begin i _ rfl hallowed)
  rw [hprogram] at hbegun
  have hread := hclosed _ _ _ hbegun (.read i query id [] (Function.update_self _ _ _))
  have hfree : ∀ t : Session AuthDb AuthLock AuthError GmailOutcome,
      ¬ (⟨g, log, Function.update (fun _ => none) i (some t)⟩ : GmailState ι).HeldByOther i
        (.credential request.owner) := by
    rintro t ⟨j, u, hj, hu, -⟩
    dsimp only at hu
    rw [Function.update_of_ne hj] at hu
    cases hu
  simp only [State.setSession, Function.update_idem, id, hquery] at hread
  have hlocked := hclosed _ _ _ hread
    (.lock i (.credential request.owner) (.read lookup) id [] (by simp) (hfree _))
  simp only [State.setSession, Function.update_idem] at hlocked
  have hdone := hclosed _ _ _ hlocked (.read i lookup id [.credential request.owner] (by simp))
  simpa only [State.setSession, Function.update_idem, id, hlookup] using hdone

/-- An operation that has locked a credential can go on to its own end. -/
theorem operation_ends {g₀ : AuthDb} {s₀ : GmailState ι}
    (hs₀ : Reachable (GmailAdmitted digest auth F settings) Elsewhere g₀ s₀) {i : ι}
    {request : GmailRequest} {c : GmailCredential} {h : List AuthLock}
    (hlocked : s₀.sessions i = some ⟨operating F settings request c, id, h⟩) :
    ∃ s s' ev, Reachable (GmailAdmitted digest auth F settings) Elsewhere g₀ s' ∧
      Follows (GmailAdmitted digest auth F settings) Elsewhere i s₀ s ∧
      Step (GmailAdmitted digest auth F settings) Elsewhere s ev s' ∧ s'.sessions i = none ∧
      ev ≠ .silent := by
  unfold operating operate at hlocked
  cases hsettle : settle (attempt F settings request c) with
  | error e =>
    rw [hsettle] at hlocked
    have hstep : Step (GmailAdmitted digest auth F settings) Elsewhere s₀ _ _ :=
      .rollback i internalError id h hlocked
    exact ⟨s₀, _, _, hs₀.step hstep, .refl, hstep, by simp, by simp⟩
  | ok committed =>
    obtain ⟨c', response⟩ := committed
    rw [hsettle] at hlocked
    have hwrite : Step (GmailAdmitted digest auth F settings) Elsewhere s₀ _ _ :=
      .write i (putCredential c') _ id h hlocked
    have hcommit : Step (GmailAdmitted digest auth F settings) Elsewhere
        (s₀.setSession i (some ⟨_, _, _⟩)) _ _ :=
      .commit i (GmailOutcome.ran request.owner (grantOf c' != grantOf c) response)
        (putCredential c' ∘ id) h (Function.update_self _ _ _)
    exact ⟨_, _, _, (hs₀.step hwrite).step hcommit, .step .refl hwrite (by simp), hcommit,
      by simp, by simp⟩

end Runs

/-! ### A rotation that is kept, and one that is lost -/

/-- A key of the keyring. -/
def flowKey : PyStr := py "AAECAwQFBgcICQoLDA0ODxAREhMUFRYXGBkaGxwdHh8="

/-- The ciphertext of the first token. -/
def oldCiphertext : PyStr :=
  py "gAAAAABppV-gAAECAwQFBgcICQoLDA0OD74HFnbRyxKNpKHMNS646dHn24g5uzM7_sjcTNTaWbtX_WYtlCkPYX0YAeAXdhNUgg=="

/-- The ciphertext of the token the provider rotates to. -/
def newCiphertext : PyStr :=
  py "gAAAAABppWDMEBESExQVFhcYGRobHB0eH4mNrxS-OzuUiepjUymACGdGqiUvm7K9_-kcM1roPDbb-QufnWiUT0ISMHmehuA0Ew=="

/-- The cipher, with two of its ciphertexts and a marked copy of every other text. -/
def flowFernet : Fernet where
  accepts key := key == flowKey
  encrypt _ draw token :=
    if draw = 0 ∧ token = py "1//0gOld" then oldCiphertext
    else if draw = 1 ∧ token = py "1//0gNew" then newCiphertext
    else 0x21 :: token
  decrypt _ ciphertext :=
    if ciphertext = oldCiphertext then some (py "1//0gOld")
    else if ciphertext = newCiphertext then some (py "1//0gNew")
    else match ciphertext with
      | 0x21 :: token => some token
      | _ => none

theorem flowFernet_lawful : flowFernet.Lawful where
  decrypt_encrypt key draw token _ _ := by
    have hmark : ∀ (t : PyStr) (u : PyStr), u.head? ≠ some 0x21 → (0x21 :: t : PyStr) ≠ u := by
      rintro t u hu rfl
      exact hu rfl
    have hold := hmark token oldCiphertext (by decide +kernel)
    have hnew := hmark token newCiphertext (by decide +kernel)
    have hne : newCiphertext ≠ oldCiphertext := by decide +kernel
    unfold flowFernet
    dsimp only
    by_cases h₀ : draw = 0 ∧ token = py "1//0gOld"
    · rw [if_pos h₀, if_pos rfl, h₀.2]
    · rw [if_neg h₀]
      by_cases h₁ : draw = 1 ∧ token = py "1//0gNew"
      · rw [if_pos h₁, if_neg hne, if_pos rfl, h₁.2]
      · rw [if_neg h₁, if_neg hold, if_neg hnew]
        rfl
  encrypt_ne_nil key draw token := by
    unfold flowFernet
    dsimp only
    split
    · decide +kernel
    · split
      · decide +kernel
      · exact List.cons_ne_nil _ _

/-- One key, no extraction. -/
def flowGmail : GmailSettings := ⟨true, ⟨py "k1", [(py "k1", flowKey)]⟩, false⟩

/-- The credential of the first user. -/
def flowCredential : GmailCredential where
  userId := 1
  refreshCiphertext := some oldCiphertext
  keyId := py "k1"
  scopes := GMAIL_READONLY_SCOPE
  accountKey := flowDigest flowAddress
  status := "connected"
  lastErrorCode := none
  lastSyncedAt := none
  disconnectedAt := none

/-- The answer of the token endpoint, with a new refresh token. -/
def flowAnswer : TokenAnswer :=
  .response 200 ("\x7b\"access_token\":\"ya29\",\"refresh_token\":\"1//0gNew\",\"token_type\":\"Bearer\"\x7d".toList.map
    fun c => Utf8.byte c.toNat)

/-- A sync, by what `sync_connector` does. -/
def flowSync (synced : Except GmailError (List Ingestion.IngestionResult)) : GmailRequest where
  owner := 1
  sync := true
  answer := flowAnswer
  draw := 1
  answers := ⟨synced, flowTime 5, fun _ => .ok ()⟩

/-- The connected account before the sync. -/
def flowConnected : AuthDb := ⟨[], [flowCredential], [], flowTime 0⟩

theorem flowConnected_credential : credential flowConnected 1 = some flowCredential := by
  decide +kernel

theorem attempt_ok {α : Type} {x : Attempt α} {a : α} (h : x.2.toOption = some a) :
    ∃ c, x = (c, .ok a) := by
  obtain ⟨c, result⟩ := x
  cases result with
  | error e => cases h
  | ok b => exact ⟨c, by rw [Option.some.inj h]⟩

theorem flowSync_refreshes : ∃ c', refreshAccess flowFernet flowGmail.keyring 1 flowAnswer
    flowCredential = (c', .ok (py "ya29")) :=
  attempt_ok (by decide +kernel)

/-- The states of the sync. -/
def FlowRun : GmailState Unit → Prop :=
  Reachable (GmailAdmitted flowDigest flowSettings flowFernet flowGmail) Elsewhere flowConnected

/-- The sync alone, at a point of its program. -/
def flowPoint (p : AuthTx GmailOutcome) (w : AuthDb → AuthDb) : GmailState Unit :=
  ⟨flowConnected, [], Function.update (fun _ => none) () (some ⟨p, w, [.credential 1]⟩)⟩

theorem flowPoint_session (p : AuthTx GmailOutcome) (w : AuthDb → AuthDb) :
    (flowPoint p w).sessions () = some ⟨p, w, [.credential 1]⟩ := by
  simp [flowPoint]

/-- Nothing replaces the grant of the first user, and the token stored is the new one. -/
def KeepsNew (s : GmailState Unit) : Prop :=
  ∀ s'', Unreplaced flowDigest flowSettings flowFernet flowGmail 1 s s'' →
    storedToken flowFernet flowGmail.keyring s''.db 1 = some (py "1//0gNew")

theorem flowLocked_reached (synced : Except GmailError (List Ingestion.IngestionResult)) :
    FlowRun (flowPoint (operating flowFernet flowGmail (flowSync synced) flowCredential) id) := by
  have hc : credential flowConnected (flowSync synced).owner = some flowCredential :=
    flowConnected_credential
  exact operation_locks (fun _ _ _ hs hstep => hs.step hstep) .init rfl (.run _) hc ()

/-- A sync that ends normally keeps the rotated token; a sync of an event whose identity was
    delivered before with other content loses it. -/
theorem rotated_token_kept_sync :
    (∃ s, FlowRun s ∧ s.sessions () = none ∧ KeepsNew s) ∧
      ∃ s, FlowRun s ∧ s.sessions () = none ∧ ¬ KeepsNew s := by
  have hkeeps : ∀ (request : GmailRequest) (s₀ : GmailState Unit), request.owner = 1 →
      request.answer = flowAnswer → request.draw = 1 → FlowRun s₀ → s₀.db = flowConnected →
      s₀.sessions () = some ⟨operating flowFernet flowGmail request flowCredential, id,
        [.credential request.owner]⟩ →
      ∃ s', FlowRun s' ∧ s'.sessions () = none ∧ (KeepsNew s' ↔
        ∀ e, request.raises flowGmail.aiEnabled = some e → e.caught ≠ none) := by
    intro request s₀ howner hanswer hdraw hs₀ hdb hlocked
    obtain ⟨c', hrefresh⟩ := flowSync_refreshes
    have hnew : flowAnswer.refreshToken = some (py "1//0gNew") := by decide +kernel
    have hother : storedToken flowFernet flowGmail.keyring flowConnected 1 ≠
        some (py "1//0gNew") := by decide +kernel
    have hc := flowConnected_credential
    rw [← hanswer] at hnew
    rw [← hdb, ← howner] at hother hc
    rw [← hanswer, ← hdraw] at hrefresh
    obtain ⟨s, s', ev, hreached, hf, hstep, hend, hev⟩ := operation_ends hs₀ hlocked
    have hkept := rotated_token_kept_iff flowFernet_lawful hs₀ hlocked hc hrefresh hnew hother hf
      hstep hend
    unfold KeepsNew
    rw [← howner]
    exact ⟨s', hreached, hend, hkept.trans (and_iff_left hev)⟩
  have hends : ∀ synced, ∃ s', FlowRun s' ∧ s'.sessions () = none ∧ (KeepsNew s' ↔
      ∀ e, (flowSync synced).raises flowGmail.aiEnabled = some e → e.caught ≠ none) :=
    fun synced => hkeeps (flowSync synced) _ rfl rfl rfl (flowLocked_reached synced) rfl
      (flowPoint_session _ _)
  constructor
  · obtain ⟨s', hreached, hend, hkept⟩ := hends (.ok [])
    refine ⟨s', hreached, hend, hkept.2 fun e he => ?_⟩
    cases he
  · obtain ⟨s', hreached, hend, hkept⟩ := hends (.error (.app (.ingestionConflict
      "SOURCE_IDENTITY_CONTENT_MISMATCH"
      "A source identity was redelivered with different content.")))
    exact ⟨s', hreached, hend, fun h => hkept.1 h _ rfl rfl⟩

end Expensea.Connections
