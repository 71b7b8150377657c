import Expensea.Jobs.Sent
import Expensea.Web.LedgerFormatters

namespace Expensea.Web

open Jobs Txn Txn.Discipline

/-!
# Queueing a note from the browser

`JobStatusPanel` of `apps/web/src/components/dashboard/JobStatusPanel.tsx`, its client
(`lib/jobs-client.ts`) and the queue behind the endpoints of `app/jobs/routes.py`, as one system:
any number of panels, a network that loses, delays and repeats requests and loses answers, other
clients of the endpoints, and the queue transactions of `Jobs.Repository` under every interleaving.

* `Panel` — the state of a panel, with one function for each handler;
* `Network` and `Reached` — the panels, the requests that were sent and the queue;
* `Network.ExactlyOnce` — what holds of every reachable state: one job at most for each command,
  a success shown is a job that is there, and a command is never refused as a conflict.
-/

/-! ### The client's messages -/

/-- What `String.prototype.trim` removes at the ends: white space and line terminators. -/
def isWhite (u : UInt16) : Bool :=
  (0x09 ≤ u && u ≤ 0x0D) || u == 0x20 || u == 0xA0 || u == 0x1680 ||
    (0x2000 ≤ u && u ≤ 0x200A) || u == 0x2028 || u == 0x2029 || u == 0x202F || u == 0x205F ||
    u == 0x3000 || u == 0xFEFF

/-- `text.trim()` -/
def trim (text : JsStr) : JsStr :=
  ((text.dropWhile isWhite).reverse.dropWhile isWhite).reverse

/-- The payload of a command, as the client sends it. -/
structure NotePayload where
  note : JsStr
  sourceTimestamp : JsStr
  labels : List JsStr
  deriving DecidableEq

/-- `EnqueueNote` -/
structure EnqueueNote where
  kind : JobKind
  idempotencyKey : Uuid
  payload : NotePayload
  deriving DecidableEq

/-- The command the endpoint reads in the request body: `received` is what `JSON.stringify` writes
    of a payload and `EnqueueJob.model_validate_json` reads, none where the endpoint answers 413
    or 422. -/
def EnqueueNote.job (received : NotePayload → Option FinancialNotePayload) (c : EnqueueNote) :
    Option EnqueueJob :=
  (received c.payload).map fun payload => ⟨c.kind, c.idempotencyKey, payload⟩

/-- The message of a `JobsApiError`. -/
def jobsApiErrorMessage (status : Nat) : String :=
  if status = 429 then "The queue is full. Try again shortly."
  else if status = 401 ∨ status = 403 then "Sign in to view your jobs."
  else if status = 409 then "This job cannot perform that action. Refresh its status."
  else "The job request could not be completed."

/-- Why a request of the client failed: the status of an answer, or anything else (the network, an
    answer that is not JSON). -/
abbrev Cause := Option Nat

/-- The text shown for a failure: the message of a `JobsApiError`, or the handler's own. -/
def Cause.text (other : String) : Cause → String
  | some status => jobsApiErrorMessage status
  | none => other

/-! ### The panel -/

/-- The buttons of a job. -/
inductive ActionKind where
  | retry
  | cancel
  deriving DecidableEq

/-- A request a handler waits for. -/
inductive Waiting where
  | enqueue (command : EnqueueNote)
  | action (kind : ActionKind) (jobId : Uuid)

/-- The state of a panel.  The handler that set `busy` is the one that waits. -/
structure Panel where
  jobs : List JobView
  note : JsStr
  error : Option String
  pendingCommand : Option EnqueueNote
  waiting : Option Waiting

namespace Panel

/-- A panel as it is mounted. -/
def initial : Panel := ⟨[], [], none, none, none⟩

/-- `busy`, set before the request of a handler and cleared after it. -/
def busy (p : Panel) : Bool := p.waiting.isSome

/-- `upsert` -/
def upsert (job : JobView) (p : Panel) : Panel :=
  { p with jobs := (job :: p.jobs.filter fun item => item.id != job.id).take 20 }

/-- `onChange` of the text area. -/
def change (text : JsStr) (p : Panel) : Panel :=
  { p with note := text, pendingCommand := none }

/-- `submit` up to its request: the panel and the command it sends.  `key` is
    `crypto.randomUUID()` and `timestamp` is `new Date().toISOString()`, both drawn only where no
    command is pending. -/
def submit (key : Uuid) (timestamp : JsStr) (p : Panel) : Option (Panel × EnqueueNote) :=
  if (trim p.note).isEmpty || p.busy then none
  else
    let command := p.pendingCommand.getD
      { kind := .financialNoteExtract, idempotencyKey := key,
        payload := { note := p.note, sourceTimestamp := timestamp, labels := [] } }
    some ({ p with error := none, pendingCommand := some command,
                   waiting := some (.enqueue command) }, command)

/-- `submit` after its request was answered. -/
def submitted (job : JobView) (p : Panel) : Panel :=
  { p.upsert job with pendingCommand := none, note := [], waiting := none }

/-- `submit` after its request failed. -/
def submitFailed (cause : Cause) (p : Panel) : Panel :=
  { p with error := some (cause.text "Enqueue failed. Retry the unchanged note safely."),
           waiting := none }

/-- The buttons shown for a job. -/
def offers (job : JobView) : ActionKind → Bool
  | .retry => job.status == .deadLetter && job.reviewRetries < 3
  | .cancel => job.status == .queued || job.status == .retryWait

/-- `action` up to its request. -/
def act (kind : ActionKind) (jobId : Uuid) (p : Panel) : Panel :=
  { p with error := none, waiting := some (.action kind jobId) }

/-- `action` after its request was answered. -/
def acted (job : JobView) (p : Panel) : Panel := { p.upsert job with waiting := none }

/-- `action` after its request failed. -/
def actionFailed (cause : Cause) (p : Panel) : Panel :=
  { p with error := some (cause.text "The job action could not be completed."), waiting := none }

/-- `poll` after the list was answered. -/
def polled (next : List JobView) (p : Panel) : Panel := { p with jobs := next }

/-- `poll` after the list request failed. -/
def pollFailed (cause : Cause) (p : Panel) : Panel :=
  { p with error := some (cause.text "Job status is temporarily unavailable.") }

end Panel

/-- The request of a button. -/
def ActionKind.request (owner jobId : Uuid) : ActionKind → Request
  | .retry => .reviewRetry owner jobId
  | .cancel => .cancel owner jobId

/-! ### The system -/

/-- A request as it was sent: the signed-in owner and the command. -/
abbrev Message := Uuid × EnqueueNote

/-- The panels, the enqueue requests that were sent and the queue.  `drawn` are the requests the
    panels sent, `told` what they were answered, and `serving` the request an open transaction
    serves. -/
structure Network (π ι : Type) where
  panels : π → Panel
  sent : List Message
  drawn : List Message
  told : List (π × EnqueueNote × JobView)
  serving : ι → Option Message
  server : State JobDb JobLock JobError Call ι

/-- The transactions of the other endpoints and of the worker. -/
def AdmitsOther (settings : JobsSettings) (fingerprint : Fingerprint) (_ : List Call)
    (p : JobTx Call) : Prop :=
  ∃ r : Request, p = r.call settings fingerprint ∧
    ∀ id owner command, r ≠ .enqueue id owner command

section System

variable {π ι : Type} [DecidableEq π] [DecidableEq ι] (settings : JobsSettings)
  (fingerprint : Fingerprint) (received : NotePayload → Option FinancialNotePayload)
  (owner : π → Uuid) (clock : Time)

/-- Replace the state of one panel. -/
def Network.setPanel (n : Network π ι) (a : π) (p : Panel) : Network π ι :=
  { n with panels := Function.update n.panels a p }

/-- The transaction of a request that has arrived. -/
def Network.arrive (n : Network π ι) (i : ι) (m : Message) (p : JobTx Call) : Network π ι :=
  { n with serving := Function.update n.serving i (some m)
           server := n.server.setSession i (some ⟨p, id, []⟩) }

/-- The queue moves on; what a transaction served is forgotten when it ends. -/
def Network.serve (n : Network π ι) (s : State JobDb JobLock JobError Call ι) : Network π ι :=
  { n with serving := fun i => (s.sessions i).bind fun _ => n.serving i
           server := s }

/-- The states of the system.  A request that was sent may arrive at any time and any number of
    times, or never; an answer may be lost, which the panel sees as a failure.  A panel draws a
    key no request has carried, and other clients do not send the keys of the panels. -/
inductive Reached : Network π ι → Prop
  | init : Reached ⟨fun _ => .initial, [], [], [], fun _ => none, ⟨⟨[], clock⟩, [], fun _ => none⟩⟩
  | change {n : Network π ι} (a : π) (text : JsStr) : Reached n → (n.panels a).busy = false →
      Reached (n.setPanel a ((n.panels a).change text))
  | submit {n : Network π ι} (a : π) (key : Uuid) (timestamp : JsStr) (p : Panel)
      (command : EnqueueNote) : Reached n →
      (n.panels a).submit key timestamp = some (p, command) →
      ((n.panels a).pendingCommand = none → ∀ m ∈ n.sent, m.2.idempotencyKey ≠ key) →
      Reached { n.setPanel a p with
        sent := n.sent ++ [(owner a, command)]
        drawn := n.drawn ++ [(owner a, command)] }
  | otherClient {n : Network π ι} (m : Message) : Reached n →
      (∀ d ∈ n.drawn, d.2.idempotencyKey ≠ m.2.idempotencyKey) →
      Reached { n with sent := n.sent ++ [m] }
  | arrive {n : Network π ι} (i : ι) (id : Uuid) (m : Message) (command : EnqueueJob) :
      Reached n → n.server.sessions i = none → m ∈ n.sent → m.2.job received = some command →
      Reached (n.arrive i m ((Request.enqueue id m.1 command).call settings fingerprint))
  | server {n : Network π ι} {ev : Event JobError Call}
      {s : State JobDb JobLock JobError Call ι} : Reached n →
      Step (AdmitsOther settings fingerprint) Passes n.server ev s → Reached (n.serve s)
  | submitted {n : Network π ι} (a : π) (command : EnqueueNote) (id : Uuid) (job : EnqueueJob)
      (c : Call) (v : JobView) : Reached n →
      (n.panels a).waiting = some (.enqueue command) → command.job received = some job →
      c ∈ n.server.log → c.request = .enqueue id (owner a) job → c.outcome = .view v →
      Reached { n.setPanel a ((n.panels a).submitted v) with
        told := n.told ++ [(a, command, v)] }
  | submitFailed {n : Network π ι} (a : π) (command : EnqueueNote) (cause : Cause) : Reached n →
      (n.panels a).waiting = some (.enqueue command) →
      Reached (n.setPanel a ((n.panels a).submitFailed cause))
  | act {n : Network π ι} (a : π) (job : JobView) (kind : ActionKind) : Reached n →
      (n.panels a).busy = false → job ∈ (n.panels a).jobs → Panel.offers job kind = true →
      Reached (n.setPanel a ((n.panels a).act kind job.id))
  | acted {n : Network π ι} (a : π) (kind : ActionKind) (jobId : Uuid) (c : Call) (v : JobView) :
      Reached n → (n.panels a).waiting = some (.action kind jobId) → c ∈ n.server.log →
      c.request = kind.request (owner a) jobId → c.outcome = .view v →
      Reached (n.setPanel a ((n.panels a).acted v))
  | actionFailed {n : Network π ι} (a : π) (kind : ActionKind) (jobId : Uuid) (cause : Cause) :
      Reached n → (n.panels a).waiting = some (.action kind jobId) →
      Reached (n.setPanel a ((n.panels a).actionFailed cause))
  | polled {n : Network π ι} (a : π) (next : List JobView) : Reached n →
      Reached (n.setPanel a ((n.panels a).polled next))
  | pollFailed {n : Network π ι} (a : π) (cause : Cause) : Reached n →
      Reached (n.setPanel a ((n.panels a).pollFailed cause))

end System

section Safety

variable {π ι : Type} [DecidableEq π] [DecidableEq ι] {settings : JobsSettings}
  {fingerprint : Fingerprint} {received : NotePayload → Option FinancialNotePayload}
  {owner : π → Uuid} {clock : Time}

/-! ### The panels and their keys -/

/-- What a panel has pending was sent as it stands, with the text still in the text area; what it
    waits for is pending. -/
structure Panel.Holds (drawn : List Message) (o : Uuid) (p : Panel) : Prop where
  pending : ∀ c, p.pendingCommand = some c → (o, c) ∈ drawn ∧ c.payload.note = p.note
  waits : ∀ c, p.waiting = some (.enqueue c) → p.pendingCommand = some c

/-- The keys of the panels are their own, and what they were answered they had sent. -/
structure Network.Keyed (owner : π → Uuid) (n : Network π ι) : Prop where
  holds : ∀ a, (n.panels a).Holds n.drawn (owner a)
  sent : ∀ d ∈ n.drawn, d ∈ n.sent
  alone : ∀ d ∈ n.drawn, ∀ m ∈ n.sent, m.2.idempotencyKey = d.2.idempotencyKey → m = d
  told : ∀ x ∈ n.told, (owner x.1, x.2.1) ∈ n.drawn

omit [DecidableEq ι] in
/-- A panel moves on and nothing is sent. -/
theorem Network.Keyed.setPanel {n : Network π ι} (hn : n.Keyed owner) (a : π) {p : Panel}
    (hp : p.Holds n.drawn (owner a)) : (n.setPanel a p).Keyed owner where
  holds b := by
    by_cases hb : b = a
    · subst hb
      show (Function.update n.panels b p b).Holds _ _
      rw [Function.update_self]
      exact hp
    · show (Function.update n.panels a p b).Holds _ _
      rw [Function.update_of_ne hb]
      exact hn.holds b
  sent := hn.sent
  alone := hn.alone
  told := hn.told

omit [DecidableEq π] [DecidableEq ι] in
/-- A request is sent under a key that is its own. -/
theorem Network.Keyed.send {n : Network π ι} (hn : n.Keyed owner) {d : Message}
    (hd : ∀ m ∈ n.sent, m.2.idempotencyKey = d.2.idempotencyKey → m = d) :
    ({ n with sent := n.sent ++ [d], drawn := n.drawn ++ [d] } : Network π ι).Keyed owner where
  holds a := ⟨fun c hc => ⟨List.mem_append_left _ ((hn.holds a).pending c hc).1,
    ((hn.holds a).pending c hc).2⟩, (hn.holds a).waits⟩
  sent m hm := by
    rcases List.mem_append.1 hm with hm | hm
    · exact List.mem_append_left _ (hn.sent m hm)
    · exact List.mem_append_right _ hm
  alone x hx m hm hkey := by
    rcases List.mem_append.1 hx with hold | hnew <;> rcases List.mem_append.1 hm with hbefore | hlast
    · exact hn.alone x hold m hbefore hkey
    · -- the request just sent carries the key of an earlier one, so it is that one
      rw [List.mem_singleton.1 hlast] at hkey ⊢
      exact (hd x (hn.sent x hold) hkey.symm).symm
    · rw [List.mem_singleton.1 hnew] at hkey ⊢
      exact hd m hbefore hkey
    · rw [List.mem_singleton.1 hnew, List.mem_singleton.1 hlast]
  told x hx := List.mem_append_left _ (hn.told x hx)

/-- What `submit` leaves: the command it sends is the pending one, or a new one with the text. -/
theorem Panel.submit_eq {p q : Panel} {key : Uuid} {timestamp : JsStr} {command : EnqueueNote}
    (h : p.submit key timestamp = some (q, command)) :
    q.note = p.note ∧ q.pendingCommand = some command ∧ q.waiting = some (.enqueue command) ∧
      (p.pendingCommand = some command ∨
        p.pendingCommand = none ∧ command.idempotencyKey = key ∧ command.payload.note = p.note) := by
  rw [Panel.submit] at h
  split at h
  · cases h
  · obtain ⟨rfl, rfl⟩ := Prod.mk.inj (Option.some.inj h)
    refine ⟨rfl, rfl, rfl, ?_⟩
    cases hpending : p.pendingCommand with
    | some c => exact .inl rfl
    | none => exact .inr ⟨rfl, rfl, rfl⟩

/-- The keys are kept in every state reached. -/
theorem Reached.keyed {n : Network π ι}
    (hn : Reached settings fingerprint received owner clock n) : n.Keyed owner := by
  induction hn with
  | init => exact ⟨fun _ => ⟨nofun, nofun⟩, nofun, nofun, nofun⟩
  | change a text _ hbusy ih =>
    -- the text area is disabled while a handler waits
    refine ih.setPanel a ⟨nofun, fun c hc => ?_⟩
    have hidle : _ = none := Option.not_isSome_iff_eq_none.1 (Bool.eq_false_iff.1 hbusy)
    cases hidle.symm.trans hc
  | @submit n a key timestamp p command _ hsubmit hfresh ih =>
    obtain ⟨hnote, hpending, hwaiting, hcommand⟩ := Panel.submit_eq hsubmit
    have hown : ∀ m ∈ n.sent, m.2.idempotencyKey = command.idempotencyKey →
        m = (owner a, command) := by
      intro m hm hkey
      rcases hcommand with hagain | ⟨hnone, hnew, -⟩
      · exact ih.alone _ ((ih.holds a).pending command hagain).1 m hm hkey
      · exact absurd (hkey.trans hnew) (hfresh hnone m hm)
    refine (ih.send hown).setPanel a ⟨fun c hc => ?_, fun c hc => ?_⟩
    · obtain rfl := Option.some.inj (hpending.symm.trans hc)
      refine ⟨List.mem_append_right _ List.mem_cons_self, ?_⟩
      rw [hnote]
      rcases hcommand with hagain | ⟨-, -, htext⟩
      · exact ((ih.holds a).pending command hagain).2
      · exact htext
    · rw [hwaiting] at hc
      obtain rfl := Waiting.enqueue.inj (Option.some.inj hc)
      exact hpending
  | @otherClient n m _ hother ih =>
    refine ⟨ih.holds, fun d hd => List.mem_append_left _ (ih.sent d hd), ?_, ih.told⟩
    intro d hd x hx hkey
    rcases List.mem_append.1 hx with hx | hx
    · exact ih.alone d hd x hx hkey
    · rw [List.mem_singleton.1 hx] at hkey
      exact absurd hkey.symm (hother d hd)
  | arrive i id m command _ _ _ _ ih => exact ⟨ih.holds, ih.sent, ih.alone, ih.told⟩
  | server _ _ ih => exact ⟨ih.holds, ih.sent, ih.alone, ih.told⟩
  | @submitted n a command id job c v _ hwaiting _ _ _ _ ih =>
    have hkept := ih.setPanel a (⟨nofun, nofun⟩ : ((n.panels a).submitted v).Holds n.drawn (owner a))
    refine ⟨hkept.holds, hkept.sent, hkept.alone, fun x hx => ?_⟩
    rcases List.mem_append.1 hx with hx | hx
    · exact ih.told x hx
    · rw [List.mem_singleton.1 hx]
      exact ((ih.holds a).pending _ ((ih.holds a).waits command hwaiting)).1
  | submitFailed a command cause _ _ ih =>
    exact ih.setPanel a ⟨(ih.holds a).pending, nofun⟩
  | act a job kind _ _ _ _ ih => exact ih.setPanel a ⟨(ih.holds a).pending, nofun⟩
  | acted a kind jobId c v _ _ _ _ _ ih => exact ih.setPanel a ⟨(ih.holds a).pending, nofun⟩
  | actionFailed a kind jobId cause _ _ ih => exact ih.setPanel a ⟨(ih.holds a).pending, nofun⟩
  | polled a next _ ih => exact ih.setPanel a ⟨(ih.holds a).pending, (ih.holds a).waits⟩
  | pollFailed a cause _ ih => exact ih.setPanel a ⟨(ih.holds a).pending, (ih.holds a).waits⟩

/-! ### The queue behind the panels -/

/-- What the queue does where the commands of the requests are among `S`: it runs as
    `Jobs.Sent` has it, a session that ended serves nothing, and a request whose command is alone
    under its key is on its way to an answer that is no conflict. -/
structure Network.Served (settings : JobsSettings) (fingerprint : Fingerprint)
    (received : NotePayload → Option FinancialNotePayload) (clock : Time) (S : Sent)
    (n : Network π ι) : Prop where
  reachable : Reachable (AdmitsSent settings fingerprint S) Passes ⟨[], clock⟩ n.server
  idle : ∀ i, n.server.sessions i = none → n.serving i = none
  accepted : ∀ i m t, n.serving i = some m → n.server.sessions i = some t →
    ∃ command, m.2.job received = some command ∧
      ((∀ x ∈ S, x.2.idempotencyKey = command.idempotencyKey → x.2 = command) →
        (sentDiscipline settings fingerprint S).wpe (· ≠ conflict) t.prog (fun _ _ _ _ => True)
          t.pending t.held n.server.db)

omit [DecidableEq π] in
/-- A state reached by the queue is good for its discipline. -/
theorem Network.Served.good {S : Sent} {n : Network π ι}
    (hn : n.Served settings fingerprint received clock S) :
    (sentDiscipline settings fingerprint S).Good n.server :=
  sound (sent_safe_from settings fingerprint S) (sent_inv_empty clock) hn.reachable

/-- The commands of some requests are among `S`. -/
def Covers (received : NotePayload → Option FinancialNotePayload) (S : Sent) (sent : List Message) :
    Prop :=
  ∀ m ∈ sent, ∀ command, m.2.job received = some command → (m.1, command) ∈ S

omit [DecidableEq π] in
/-- A request arrives. -/
theorem Network.Served.arrive {S : Sent} {n : Network π ι}
    (hn : n.Served settings fingerprint received clock S) {i : ι} {id : Uuid} {m : Message}
    {command : EnqueueJob} (hnone : n.server.sessions i = none)
    (hcommand : m.2.job received = some command) (hin : (m.1, command) ∈ S) :
    (n.arrive i m ((Request.enqueue id m.1 command).call settings fingerprint)).Served
      settings fingerprint received clock S := by
  refine ⟨hn.reachable.step (.begin i _ hnone ⟨_, rfl, ?_⟩), fun j hj => ?_, ?_⟩
  · intro id' owner' command' hrequest
    cases hrequest
    exact hin
  · by_cases hji : j = i
    · subst hji
      simp [Network.arrive] at hj
    · simp only [Network.arrive, State.setSession_sessions, Function.update_of_ne hji] at hj ⊢
      exact hn.idle j hj
  · intro j x t hserving ht
    by_cases hji : j = i
    · subst hji
      simp only [Network.arrive, State.setSession_sessions, Function.update_self] at hserving ht
      obtain rfl := Option.some.inj hserving
      obtain rfl := Option.some.inj ht
      exact ⟨command, hcommand, fun halone => enqueue_no_conflict id m.1 command halone _⟩
    · simp only [Network.arrive, State.setSession_sessions, Function.update_of_ne hji]
        at hserving ht
      exact hn.accepted j x t hserving ht

omit [DecidableEq π] in
/-- The queue moves on. -/
theorem Network.Served.serve {S : Sent} {n : Network π ι}
    (hn : n.Served settings fingerprint received clock S) {ev : Event JobError Call}
    {s : State JobDb JobLock JobError Call ι}
    (hstep : Step (AdmitsSent settings fingerprint S) Passes n.server ev s) :
    (n.serve s).Served settings fingerprint received clock S := by
  have hreach := hn.reachable.step hstep
  refine ⟨hreach, fun i hi => ?_, fun i m t hserving ht => ?_⟩
  · show (s.sessions i).bind _ = none
    rw [show s.sessions i = none from hi]
    rfl
  · have ht' : s.sessions i = some t := ht
    have hserved : n.serving i = some m := by
      have hbind : ((s.sessions i).bind fun _ => n.serving i) = some m := hserving
      rw [ht'] at hbind
      exact hbind
    -- the session was open before, for it served this request
    obtain ⟨u, hu⟩ : ∃ u, n.server.sessions i = some u := by
      cases hsession : n.server.sessions i with
      | none =>
        have hidle := hn.idle i hsession
        rw [hserved] at hidle
        cases hidle
      | some u => exact ⟨u, rfl⟩
    have hgood' := sound (sent_safe_from settings fingerprint S) (sent_inv_empty clock) hreach
    obtain ⟨command, hcommand, haccepted⟩ := hn.accepted i m u hserved hu
    exact ⟨command, hcommand, fun halone => hn.good.wpe_step hgood' hstep
      (fun _ _ _ _ _ _ _ hq => hq) hu ht' (haccepted halone)⟩

/-- In every state reached the queue runs as it does for the requests sent so far, or for more. -/
theorem Reached.served {S : Sent} {n : Network π ι}
    (hn : Reached settings fingerprint received owner clock n)
    (hS : Covers received S n.sent) : n.Served settings fingerprint received clock S := by
  induction hn with
  | init => exact ⟨.init, fun _ _ => rfl, fun _ _ _ hserving => by cases hserving⟩
  | arrive i id m command _ hnone hm hcommand ih =>
    exact (ih hS).arrive hnone hcommand (hS m hm command hcommand)
  | server _ hstep ih =>
    refine (ih hS).serve (hstep.mono ?_)
    rintro p ⟨r, rfl, hr⟩
    exact ⟨r, rfl, fun id o command he => absurd he (hr id o command)⟩
  | submit a key timestamp p command _ _ _ ih =>
    obtain ⟨hreach, hidle, haccepted⟩ := ih fun m hm => hS m (List.mem_append_left _ hm)
    exact ⟨hreach, hidle, haccepted⟩
  | otherClient m _ _ ih =>
    obtain ⟨hreach, hidle, haccepted⟩ := ih fun m hm => hS m (List.mem_append_left _ hm)
    exact ⟨hreach, hidle, haccepted⟩
  | _ =>
    rename_i ih
    obtain ⟨hreach, hidle, haccepted⟩ := ih hS
    exact ⟨hreach, hidle, haccepted⟩

/-- What the panels were told the queue returned, to an enqueue call of the panel's own command. -/
def Network.Reported (received : NotePayload → Option FinancialNotePayload) (owner : π → Uuid)
    (n : Network π ι) : Prop :=
  ∀ x ∈ n.told, ∃ c ∈ n.server.log, ∃ id command, x.2.1.job received = some command ∧
    c.request = .enqueue id (owner x.1) command ∧ c.outcome = .view x.2.2

theorem Reached.reported {n : Network π ι}
    (hn : Reached settings fingerprint received owner clock n) : n.Reported received owner := by
  induction hn with
  | init => exact nofun
  | server _ hstep ih =>
    intro x hx
    obtain ⟨c, hc, hcall⟩ := ih x hx
    exact ⟨c, hstep.mem_log hc, hcall⟩
  | submitted a command id job c v _ _ hjob hc hrequest hv ih =>
    intro x hx
    rcases List.mem_append.1 hx with hold | hnew
    · exact ih x hold
    · rw [List.mem_singleton.1 hnew]
      exact ⟨c, hc, id, job, hjob, hrequest, hv⟩
  | _ =>
    rename_i ih
    exact ih

/-! ### Exactly once -/

/-- The endpoint reads the key that was sent. -/
theorem EnqueueNote.job_key {c : EnqueueNote} {command : EnqueueJob}
    (h : c.job received = some command) : command.idempotencyKey = c.idempotencyKey := by
  obtain ⟨payload, -, rfl⟩ := Option.map_eq_some_iff.1 h
  rfl

/-- What a command gets from the queue, however often its request arrives. -/
structure Network.ExactlyOnce (fingerprint : Fingerprint)
    (received : NotePayload → Option FinancialNotePayload) (owner : π → Uuid)
    (n : Network π ι) : Prop where
  /-- Every job is the job of a request that was sent, under the owner it was sent by. -/
  origin : ∀ j ∈ n.server.db.jobs, ∃ m ∈ n.sent, ∃ command, m.2.job received = some command ∧
    j.Of fingerprint m.1 command ∧ j.Holds command.payload
  /-- A command of a panel has at most one job, and no one else has a job under its key. -/
  single : ∀ d ∈ n.drawn, ∀ j ∈ n.server.db.jobs, ∀ k ∈ n.server.db.jobs,
    j.idempotencyKey = d.2.idempotencyKey → k.idempotencyKey = d.2.idempotencyKey →
    j = k ∧ j.userId = d.1
  /-- What a panel was told is a job of its command, which is in the table. -/
  told : ∀ x ∈ n.told, ∃ command, x.2.1.job received = some command ∧
    ∃ j ∈ n.server.db.jobs, j.id = x.2.2.id ∧ j.Of fingerprint (owner x.1) command ∧
      j.Holds command.payload
  /-- The text area shows the text of the pending command, which was sent. -/
  pending : ∀ a c, (n.panels a).pendingCommand = some c →
    (owner a, c) ∈ n.drawn ∧ c.payload.note = (n.panels a).note
  /-- The queue never refuses a command of a panel as a conflict. -/
  accepted : ∀ i m e w h, n.serving i = some m → m ∈ n.drawn →
    n.server.sessions i = some ⟨.fail e, w, h⟩ → e ≠ conflict

/-- **Exactly once.**  In every state of the system, whatever requests were lost, delayed or
    repeated, whatever answers were lost, and however the transactions interleave and fail: every
    job stems from a request; a panel's command has one job at most; a success a panel was told
    is that job; the pending command is the text on the screen; and no attempt to send it again is
    refused as a conflict.  A panel belongs to one owner for as long as it is on the screen. -/
theorem exactly_once {n : Network π ι}
    (hn : Reached settings fingerprint received owner clock n) :
    n.ExactlyOnce fingerprint received owner := by
  have hkeyed := hn.keyed
  let S : Sent := fun x => ∃ m ∈ n.sent, m.1 = x.1 ∧ m.2.job received = some x.2
  have hcovers : Covers received S n.sent := fun m hm command hcommand => ⟨m, hm, rfl, hcommand⟩
  have hserved := hn.served hcovers
  have hgood := hserved.good
  have horigin : ∀ j ∈ n.server.db.jobs, ∃ m ∈ n.sent, ∃ command,
      m.2.job received = some command ∧ j.Of fingerprint m.1 command ∧
        j.Holds command.payload := by
    intro j hj
    obtain ⟨command, ⟨m, hm, howner, hcommand⟩, hkey, hhash, hholds⟩ := hgood.inv.2 j hj
    exact ⟨m, hm, command, hcommand, ⟨howner.symm, hkey, hhash⟩, hholds⟩
  -- a job under the key of a panel's command is the job of that command
  have hmine : ∀ d ∈ n.drawn, ∀ j ∈ n.server.db.jobs,
      j.idempotencyKey = d.2.idempotencyKey → ∃ command, d.2.job received = some command ∧
        j.Of fingerprint d.1 command ∧ j.Holds command.payload := by
    intro d hd j hj hkey
    obtain ⟨m, hm, command, hcommand, hof, hholds⟩ := horigin j hj
    have hsame : m = d := hkeyed.alone d hd m hm
      ((EnqueueNote.job_key hcommand).symm.trans (hof.idempotencyKey.symm.trans hkey))
    subst hsame
    exact ⟨command, hcommand, hof, hholds⟩
  refine ⟨horigin, fun d hd j hj k hk hjkey hkkey => ?_, fun x hx => ?_,
    fun a c hc => (hkeyed.holds a).pending c hc, ?_⟩
  · obtain ⟨_, _, hj', -⟩ := hmine d hd j hj hjkey
    obtain ⟨_, _, hk', -⟩ := hmine d hd k hk hkkey
    refine ⟨List.inj_on_of_nodup_map hgood.inv.1.keys hj hk (Prod.ext ?_ ?_), hj'.userId⟩
    · exact hj'.userId.trans hk'.userId.symm
    · exact hjkey.trans hkkey.symm
  · obtain ⟨c, hc, id, command, hcommand, hrequest, hv⟩ := hn.reported x hx
    obtain ⟨v, hv', j, hj, hid, hof⟩ :=
      answers_of_reachable hserved.reachable c hc id (owner x.1) command hrequest
    obtain rfl := Outcome.view.inj (hv.symm.trans hv')
    obtain ⟨again, hagain, -, hholds⟩ := hmine _ (hkeyed.told x hx) j hj
      (hof.idempotencyKey.trans (EnqueueNote.job_key hcommand))
    obtain rfl := Option.some.inj (hcommand.symm.trans hagain)
    exact ⟨command, hcommand, j, hj, hid, hof, hholds⟩
  · intro i m e w h hserving hm hsession
    obtain ⟨command, hcommand, haccepted⟩ := hserved.accepted i m _ hserving hsession
    refine haccepted fun x hx hkey => ?_
    obtain ⟨m', hm', -, hother⟩ := hx
    have hsame : m' = m := hkeyed.alone m hm m' hm'
      ((EnqueueNote.job_key hother).symm.trans (hkey.trans (EnqueueNote.job_key hcommand)))
    rw [hsame] at hother
    exact Option.some.inj (hother.symm.trans hcommand)

/-- A request that arrives while the queue is idle runs to its answer. -/
theorem Reached.answered {n : Network π ι}
    (hn : Reached settings fingerprint received owner clock n) (i : ι) {g g' : JobDb}
    {log : List Call} (hserver : n.server = ⟨g, log, fun _ => none⟩) {m : Message}
    (hm : m ∈ n.sent) {command : EnqueueJob} (hcommand : m.2.job received = some command)
    (jobId : Uuid) {c : Call}
    (hrun : ((Request.enqueue jobId m.1 command).call settings fingerprint).run g = .ok (c, g')) :
    ∃ serving, Reached settings fingerprint received owner clock
      ({ n with serving := serving, server := ⟨g', log ++ [c], fun _ => none⟩ } : Network π ι) := by
  let P : State JobDb JobLock JobError Call ι → Prop := fun s =>
    ∃ serving, Reached settings fingerprint received owner clock
      ({ n with serving := serving, server := s } : Network π ι)
  have hclosed : ∀ s ev s', P s → Step (AdmitsOther settings fingerprint) Passes s ev s' →
      P s' := by
    rintro s ev s' ⟨serving, hs⟩ hstep
    exact ⟨_, hs.server hstep⟩
  have hopened : P ⟨g, log, Function.update (fun _ => none) i
      (some ⟨(Request.enqueue jobId m.1 command).call settings fingerprint, id, []⟩)⟩ := by
    have harrived := hn.arrive i jobId m command (by rw [hserver]) hm hcommand
    rw [Network.arrive, hserver] at harrived
    exact ⟨_, harrived⟩
  exact closed_finish hclosed i _ _ [] hrun hopened

end Safety

/-- What the endpoint reads in a payload of ASCII text, with a time of whole seconds. -/
def receivedAscii (p : NotePayload) : Option FinancialNotePayload :=
  let text (s : JsStr) : PyStr := s.map fun u => Fin.ofNat _ u.toNat
  some ⟨text p.note, text (p.sourceTimestamp.take 19) ++ py "Z", p.labels.map text⟩

/-- The SHA-256 digest of the command for a note about tea. -/
def teaFingerprint : Fingerprint := fun _ =>
  "dc906bad2fb8d5d751a275ab5e5339d3f04ae66b24dd23369c8269229e65e006"

/-- A note is sent, its answer is lost, it is sent again, and the panel is told of the one job:
    one of the runs of `exactly_once`. -/
theorem exactly_once_resent :
    ∃ n : Network Unit Unit,
      Reached .default teaFingerprint receivedAscii (fun _ => 1) 0 n ∧
      n.ExactlyOnce teaFingerprint receivedAscii (fun _ => 1) ∧
      n.sent.length = 2 ∧ n.server.log.length = 2 ∧ n.server.db.jobs.length = 1 ∧
        n.told.length = 1 := by
  let timestamp := js "2026-10-11T00:00:00.000Z"
  let command : EnqueueNote := ⟨.financialNoteExtract, 3, ⟨js "tea", timestamp, []⟩⟩
  let job : EnqueueJob := ⟨.financialNoteExtract, 3,
    ⟨py "tea", py "2026-10-11T00:00:00Z", []⟩⟩
  let view : JobView := ⟨7, .financialNoteExtract, .queued, 0, 3, 0, 0, 0, none, none, none⟩
  let first := (Request.enqueue 7 1 job).call .default teaFingerprint
  let second := (Request.enqueue 8 1 job).call .default teaFingerprint
  have hjob : command.job receivedAscii = some job := by decide +kernel
  obtain ⟨a, hrun₁, -⟩ := Tx.run_of_returns
    (show first.returns (fun _ => true) ⟨[], 0⟩ = true by decide +kernel)
  obtain ⟨b, hrun₂, hview⟩ := Tx.run_of_returns
    (show second.returns (fun c => c.outcome == .view view) (first.after ⟨[], 0⟩) = true by
      decide +kernel)
  have hrequest : b.request = .enqueue 8 1 job :=
    (Request.call_returns (Request.enqueue 8 1 job)).run_ok hrun₂
  -- the note is typed and sent, and the answer to the first request is lost
  have h₀ : Reached .default teaFingerprint receivedAscii (fun _ : Unit => 1) 0
      (⟨fun _ => .initial, [], [], [], fun _ => none, ⟨⟨[], 0⟩, [], fun _ => none⟩⟩ :
        Network Unit Unit) := .init
  have h₁ := h₀.change () (js "tea") rfl
  have h₂ := h₁.submit () 3 timestamp _ command rfl (fun _ _ hm => absurd hm List.not_mem_nil)
  obtain ⟨_, h₃⟩ := h₂.answered () rfl List.mem_cons_self hjob 7 hrun₁
  have h₄ := h₃.submitFailed () command none rfl
  -- the unchanged note is sent again, under the same key
  have h₅ := h₄.submit () 4 timestamp _ command rfl (fun hnone => by cases hnone)
  obtain ⟨_, h₆⟩ := h₅.answered () rfl List.mem_cons_self hjob 8 hrun₂
  have h₇ := h₆.submitted () command 8 job b view rfl hjob
    (List.mem_append_right _ List.mem_cons_self) hrequest (eq_of_beq hview)
  refine ⟨_, h₇, exactly_once h₇, rfl, rfl, ?_, rfl⟩
  show (second.after (first.after ⟨[], 0⟩)).jobs.length = 1
  decide +kernel

end Expensea.Web
