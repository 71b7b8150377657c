import Expensea.Ai.Writes
import Expensea.Lib.Registry

namespace Expensea.Ingestion

open Txn
open Txn.Tx (reads modify acquire)

/-!
# Sources — the registry

The rows by which a source event is known, from its connection to the proposal and the evidence
drawn from it.  They are added once: what an operation may change of a row (the status and cursor
of a connection, the transaction of evidence, the status of a case or of a proposal) is left out.

* `SourceRow`, `sourceRegistry` — the rows, with their primary and unique keys;
* `triple_ensureConnection`, `triple_storeEnvelope`, `triple_continueDelivery` — what the
  transactions of a delivery leave in the registry.
-/

/-- What stands of a row once it was added; a column that may change has a fixed value. -/
inductive SourceRow where
  | connection (id userId : Uuid) (connectorType : ConnectorType) (connectionKey : PyStr)
  | rawEvent (r : RawEvent)
  | normalizedEvent (n : NormalizedFinancialEvent)
  | evidence (e : Evidence)
  | case (c : ReconciliationCase)
  | proposal (p : FinancialEventProposal)

namespace SourceRow

def ofConnection (c : SourceConnection) : SourceRow :=
  .connection c.id c.userId c.connectorType c.connectionKey

def ofEvidence (e : Evidence) : SourceRow := .evidence { e with transactionId := 0 }

def ofCase (c : ReconciliationCase) : SourceRow :=
  .case { c with
    status := .pending
    resultingTransactionId := none }

def ofProposal (p : FinancialEventProposal) : SourceRow :=
  .proposal { p with
    status := .needsReview
    transactionId := none
    receivableId := none
    payableId := none
    recurringPaymentId := none }

def table : SourceRow → TableName
  | connection .. => .connections
  | rawEvent _ => .rawEvents
  | normalizedEvent _ => .normalizedEvents
  | evidence _ => .evidence
  | case _ => .cases
  | proposal _ => .proposals

def id : SourceRow → Uuid
  | connection id _ _ _ => id
  | rawEvent r => r.id
  | normalizedEvent n => n.id
  | evidence e => e.id
  | case c => c.id
  | proposal p => p.id

/-- The unique key that an insert of the row waits for. -/
def unique : SourceRow → Lock
  | connection _ userId connectorType connectionKey =>
    .key .connections [userId] [py connectorType.value, connectionKey]
  | rawEvent r => .key .rawEvents [r.sourceConnectionId] [r.identityKey]
  | normalizedEvent n =>
    .key .normalizedEvents [n.rawEventId] [py n.normalizerKey, py n.normalizerVersion]
  | evidence e => .key .evidence [e.normalizedEventId] []
  | case c => .key .cases [c.normalizedEventId] []
  | proposal p =>
    .key .proposals [p.rawEventId] [py p.promptName, py p.promptVersion, py p.schemaVersion]

end SourceRow

open SourceRow

/-- The rows of a table; normalized events by the current schema. -/
def sourceRows : TableName → Db → List SourceRow
  | .connections, g => g.connections.map ofConnection
  | .rawEvents, g => g.rawEvents.map .rawEvent
  | .normalizedEvents, g => (g.normalizedEvents.filter fun n =>
      n.schemaVersion == NORMALIZED_EVENT_SCHEMA_VERSION).map .normalizedEvent
  | .evidence, g => g.evidence.map ofEvidence
  | .cases, g => g.cases.map ofCase
  | .proposals, g => g.proposals.map ofProposal
  | _, _ => []

/-- The registry of sources. -/
def sourceRegistry : Registry Db Lock SourceRow TableName where
  rows := sourceRows
  table := table
  primary i := .row i.table i.id
  unique := unique

/-- Transactions over the registry of sources, where results tell of its rows. -/
abbrev sourceDiscipline {α : Type} (tells : α → Db → Prop) : Discipline Db Lock AppError α :=
  sourceRegistry.discipline tells

/-- An update that leaves the registry as it was. -/
def KeepsSources (u : Db → Db) : Prop := ∀ g, sourceRegistry.Same g (u g)

theorem mem_connections {c : SourceConnection} {g : Db} (hc : c ∈ g.connections) :
    ofConnection c ∈ sourceRegistry.rows .connections g := List.mem_map_of_mem hc

theorem mem_rawEvents {r : RawEvent} {g : Db} :
    .rawEvent r ∈ sourceRegistry.rows .rawEvents g ↔ r ∈ g.rawEvents := by
  show SourceRow.rawEvent r ∈ g.rawEvents.map SourceRow.rawEvent ↔ _
  simp

theorem mem_proposals {p : FinancialEventProposal} {g : Db} (hp : p ∈ g.proposals) :
    ofProposal p ∈ sourceRegistry.rows .proposals g := List.mem_map_of_mem hp

theorem mem_cases {c : ReconciliationCase} {g : Db} (hc : c ∈ g.cases) :
    ofCase c ∈ sourceRegistry.rows .cases g := List.mem_map_of_mem hc

theorem mem_evidence {e : Evidence} {g : Db} (he : e ∈ g.evidence) :
    ofEvidence e ∈ sourceRegistry.rows .evidence g := List.mem_map_of_mem he

/-- Rows of one table with the identifier of one of them are that row. -/
theorem eq_of_id {g : Db} (hg : sourceRegistry.Ok g) {t : TableName} {i j : SourceRow}
    (hi : i ∈ sourceRegistry.rows t g) (hj : j ∈ sourceRegistry.rows t g)
    (htable : i.table = j.table)
    (hid : i.id = j.id) : i = j := by
  refine hg.eq_of_primary hi hj ?_
  show Lock.row i.table i.id = Lock.row j.table j.id
  rw [htable, hid]

/-! ### Text keys -/

theorem py_injective {s t : String} (h : py s = py t) : s = t := by
  refine String.toList_inj.1 (List.map_injective_iff.2 (fun a b hab => ?_) h)
  have hval : a.toNat % 0x110000 = b.toNat % 0x110000 := congrArg Fin.val hab
  have hlt : ∀ c : Char, c.toNat < 0x110000 := fun c => by
    have hvalid : c.toNat < 55296 ∨ 57343 < c.toNat ∧ c.toNat < 1114112 := c.valid
    omega
  rw [Nat.mod_eq_of_lt (hlt a), Nat.mod_eq_of_lt (hlt b)] at hval
  exact Char.toNat_inj.1 hval

theorem value_injective {a b : ConnectorType} (h : a.value = b.value) : a = b := by
  cases a <;> cases b <;> first | rfl | exact absurd h (by decide)

/-! ### Statements over a registry -/

section Statements

variable {I T α β R : Type} [DecidableEq T] {K : Registry Db Lock I T} {P : Db → Prop}

theorem triple_require {condition : Bool} {e : AppError} :
    K.Triple P (require condition e) fun _ g => condition = true ∧ P g := by
  constructor
  intro F _ w h g hk
  exact wp_require.2 fun hc => hk.mono fun _ hFP => ⟨hFP.1, hc, hFP.2⟩

theorem triple_requireSome {value : Option β} {e : AppError} :
    K.Triple P (requireSome value e) fun a g => value = some a ∧ P g := by
  constructor
  intro F _ w h g hk
  exact wp_requireSome.2 fun a ha => hk.mono fun _ hFP => ⟨hFP.1, ha, hFP.2⟩

theorem triple_ofExcept {ε : Type} {f : ε → AppError} {x : Except ε β} :
    K.Triple P (ofExcept f x) fun a g => x = .ok a ∧ P g := by
  constructor
  intro F _ w h g hk
  exact wp_ofExcept.2 fun a ha => hk.mono fun _ hFP => ⟨hFP.1, ha, hFP.2⟩

theorem triple_require_bind {condition : Bool} {e : AppError} {p : DbTx β} {Q : β → Db → Prop}
    (hp : condition = true → K.Triple P p Q) :
    K.Triple P (require condition e >>= fun _ => p) Q :=
  triple_require.bind fun _ => Registry.triple_of_pure hp

theorem triple_requireSome_bind {value : Option α} {e : AppError} {k : α → DbTx β}
    {Q : β → Db → Prop} (hk : ∀ a, value = some a → K.Triple P (k a) Q) :
    K.Triple P (requireSome value e >>= k) Q :=
  triple_requireSome.bind fun a => Registry.triple_of_pure (hk a)

theorem triple_ofExcept_bind {ε : Type} {f : ε → AppError} {x : Except ε α} {k : α → DbTx β}
    {Q : β → Db → Prop} (hk : ∀ a, x = .ok a → K.Triple P (k a) Q) :
    K.Triple P (ofExcept f x >>= k) Q :=
  triple_ofExcept.bind fun a => Registry.triple_of_pure (hk a)

/-- A row that has to be there and to satisfy a condition. -/
theorem triple_requireChecked {value : Option β} {e e' : AppError} {condition : β → Bool} :
    K.Triple P (requireSome value e >>= fun a => require (condition a) e' >>= fun _ => pure a)
      fun a g => value = some a ∧ P g :=
  triple_requireSome.bind fun _ => triple_require_bind fun _ =>
    Registry.triple_pure fun _ _ hg => hg

/-- A locking read shows a row that satisfies its condition. -/
theorem triple_selectForUpdate {rows : Db → List R} {table : TableName} {key : R → Uuid}
    {p : R → Bool} (hP : K.Lasting P) : K.Triple P (selectForUpdate rows table key p)
      fun found g => (∀ r, found = some r → p r = true ∧ r ∈ rows g) ∧ P g := by
  constructor
  intro F hF w h g hk
  have hS := hF.and hP
  refine wp_selectForUpdate_rely (fun g' hr hi => ?_) fun r g₁ g₂ _ hr₁ hi₁ hr₂ hi₂ => ?_
  · exact (hk.stable hS hr hi).mono fun _ hFP => ⟨hFP.1, ⟨nofun, hFP.2⟩⟩
  · have hk₂ := ((hk.stable hS hr₁ hi₁).lock (.row table (key r))).stable hS hr₂ hi₂
    refine hk₂.mono fun _ hFP => ⟨hFP.1, ⟨fun r' hr' => ?_, hFP.2⟩⟩
    have hp := List.find?_some hr'
    rw [Bool.and_eq_true] at hp
    exact ⟨hp.2, List.mem_of_find?_eq_some hr'⟩

/-- A row is inserted unless there is one of its key. -/
theorem triple_insertOrIgnore (hP : K.Lasting P) (i : I) {conflict : Db → Bool}
    {violation : Db → Option AppError} {row : Db → Db}
    (hconflict : ∀ g, conflict g = false →
      ∀ j ∈ K.rows (K.table i) g, K.unique j ≠ K.unique i)
    (hviolation : ∀ g, violation g = none →
      ∀ j ∈ K.rows (K.table i) g, K.primary j ≠ K.primary i)
    (hrow : ∀ g t, K.rows t (row g) = K.rows t g ++ K.added [i] t) :
    K.Triple P (insertOrIgnore (K.unique i) (K.primary i) conflict violation row)
      fun inserted g => (inserted = true → i ∈ K.rows (K.table i) g) ∧ P g := by
  constructor
  intro F hF w h g hk
  have hS := hF.and hP
  refine wp_insertOrIgnore (fun g₁ g₂ hr₁ hi₁ hr₂ hi₂ _ => ?_)
    fun g₁ g₂ g₃ g₄ g₅ hr₁ hi₁ hr₂ hi₂ hc hr₃ hi₃ hr₄ hi₄ hv hr₅ hi₅ => ?_
  · have hk₂ := ((hk.stable hS hr₁ hi₁).lock (K.unique i)).stable hS hr₂ hi₂
    exact hk₂.mono fun _ hFP => ⟨hFP.1, nofun, hFP.2⟩
  · have hk₂ := ((hk.stable hS hr₁ hi₁).lock (K.unique i)).stable hS hr₂ hi₂
    have hk₄ := ((hk₂.stable hS hr₃ hi₃).lock (K.primary i)).stable hS hr₄ hi₄
    have hk₅ := hk₄.stable hS hr₅ hi₅
    refine (hk₅.insert hS hrow List.mem_cons_self
      (List.mem_cons_of_mem _ List.mem_cons_self) fun j hj => ⟨?_, ?_⟩).mono
        fun _ hk => ⟨hk.1.1, fun _ => hk.2, hk.1.2⟩
    · rcases hk₄.earlier hr₅ hi₅ hj with hj | ⟨hfree, -⟩
      · exact hviolation _ hv j hj
      · exact fun he => hfree (he ▸ List.mem_cons_self)
    · -- the unique key has been locked since no row was found to have it
      have hext : K.Extends (K.unique i :: h) g₂ g₅ :=
        (Registry.Extends.trans hr₃ (hr₄.weaken.trans hr₅.weaken))
      rcases hk₂.earlier hext hi₅ hj with hj | ⟨-, hfree⟩
      · exact hconflict _ hc j hj
      · exact fun he => hfree (he ▸ List.mem_cons_self)

/-- A row is inserted once its primary key is locked, or a constraint fails. -/
theorem triple_insertLocked (hP : K.Lasting P) (i : I) {violation : Db → Option AppError}
    {row : Db → Db}
    (hviolation : ∀ g, violation g = none → ∀ j ∈ K.rows (K.table i) g,
      K.primary j ≠ K.primary i ∧ K.unique j ≠ K.unique i)
    (hrow : ∀ g t, K.rows t (row g) = K.rows t g ++ K.added [i] t) :
    K.Triple P (acquire (K.primary i) >>= fun _ => insertChecked (K.unique i) violation row)
      fun _ g => i ∈ K.rows (K.table i) g ∧ P g := by
  constructor
  intro F hF w h g hk
  have hS := hF.and hP
  rw [Discipline.wp_bind, Discipline.wp_acquire]
  intro g₁ hr₁ hi₁
  refine wp_insertChecked fun g₂ g₃ g₄ hr₂ hi₂ hr₃ hi₃ hv hr₄ hi₄ => ?_
  have hk₂ := ((hk.stable hS hr₁ hi₁).lock (K.primary i)).stable hS hr₂ hi₂
  have hk₃ := (hk₂.lock (K.unique i)).stable hS hr₃ hi₃
  have hk₄ := hk₃.stable hS hr₄ hi₄
  refine (hk₄.insert hS hrow (List.mem_cons_of_mem _ List.mem_cons_self) List.mem_cons_self
    fun j hj => ?_).mono fun _ hk => ⟨hk.1.1, hk.2, hk.1.2⟩
  rcases hk₃.earlier hr₄ hi₄ hj with hj | ⟨hprimary, hunique⟩
  · exact hviolation _ hv j hj
  · exact ⟨fun he => hprimary (he ▸ List.mem_cons_of_mem _ List.mem_cons_self),
      fun he => hunique (he ▸ List.mem_cons_self)⟩

end Statements

/-! ### Updates -/

/-- A row goes to the end of its table. -/
theorem rows_insert {i : SourceRow} {u : Db → Db}
    (htable : ∀ g, sourceRows i.table (u g) = sourceRows i.table g ++ [i])
    (hother : ∀ g t, t ≠ i.table → sourceRows t (u g) = sourceRows t g) (g : Db) (t : TableName) :
    sourceRegistry.rows t (u g) = sourceRegistry.rows t g ++ sourceRegistry.added [i] t := by
  show sourceRows t (u g) = sourceRows t g ++ [i].filter fun i => i.table = t
  by_cases ht : t = i.table
  · subst ht
    rw [htable, List.filter_cons_of_pos (by simp), List.filter_nil]
  · rw [hother g t ht, List.filter_cons_of_neg (by simpa using fun he => ht he.symm),
      List.filter_nil, List.append_nil]

/-- Writing back a row that differs in what may change. -/
theorem map_set_const {R : Type} {key : R → Uuid} {f : R → SourceRow} {rows : List R} {r : R}
    (hsame : ∀ r' ∈ rows, key r' = key r → f r' = f r) :
    (Table.set key (key r) (fun _ => r) rows).map f = rows.map f := by
  rw [Table.set, List.map_map]
  refine List.map_congr_left fun r' hr' => ?_
  show f (if key r' = key r then r else r') = f r'
  by_cases hkey : key r' = key r
  · rw [if_pos hkey, hsame r' hr' hkey]
  · rw [if_neg hkey]

/-- The primary-key constraint of a new row. -/
theorem absent_of_none {R : Type} {rows : List R} {key : R → Uuid} {id : Uuid} {e : AppError}
    (h : (if rows.any fun r => key r == id then some e else none) = none) :
    ∀ r ∈ rows, key r ≠ id := by
  intro r hr hkey
  have hany : (rows.any fun r => key r == id) = true :=
    List.any_eq_true.2 ⟨r, hr, beq_iff_eq.2 hkey⟩
  rw [if_pos hany] at h
  cases h

/-! ### Connections -/

section Connections

variable {P : Db → Prop} {userId : Uuid}

theorem triple_getConnection (hP : sourceRegistry.Lasting P) (connectionId : Uuid) :
    sourceRegistry.Triple P (getConnection userId connectionId) fun c g =>
      (c.id = connectionId ∧ ofConnection c ∈ sourceRegistry.rows .connections g) ∧ P g := by
  have hfound : sourceRegistry.Triple P (reads fun g => g.connections.find? fun c =>
      c.id == connectionId && c.userId == userId : DbTx (Option SourceConnection))
      fun found g => (∀ c, found = some c → c.id = connectionId ∧
        ofConnection c ∈ sourceRegistry.rows .connections g) ∧ P g := by
    refine Registry.triple_reads hP fun g _ hg => ⟨fun c hc => ?_, hg⟩
    have hkey := List.find?_some hc
    rw [Bool.and_eq_true, beq_iff_eq] at hkey
    exact ⟨hkey.1, mem_connections (List.mem_of_find?_eq_some hc)⟩
  exact hfound.bind fun found => triple_requireSome.mono (fun _ _ hg => hg)
    fun c g _ hc => ⟨hc.2.1 c hc.1, hc.2.2⟩

theorem keyed_iff {connectorType : ConnectorType} {connectionKey : PyStr} {c : SourceConnection} :
    connectionKeyed userId connectorType connectionKey c = true ↔
      ofConnection c = .connection c.id userId connectorType connectionKey := by
  rw [connectionKeyed, ofConnection, Bool.and_eq_true, Bool.and_eq_true, beq_iff_eq, beq_iff_eq,
    beq_iff_eq, and_assoc, SourceRow.connection.injEq]
  simp

/-- The connection of a type under a key is the same for everyone who asks for it. -/
theorem triple_ensureConnectionRow (hP : sourceRegistry.Lasting P) (connectionId : Uuid)
    (connector : Connector) (connectionKey : PyStr) :
    sourceRegistry.Triple P (ensureConnectionRow connectionId userId connector connectionKey)
      fun c g => (connectionKeyed userId connector.key connectionKey c = true ∧
        ofConnection c ∈ sourceRegistry.rows .connections g) ∧ P g := by
  let row : SourceRow := .connection connectionId userId connector.key connectionKey
  let known : Uuid → Db → Prop := fun id g =>
    .connection id userId connector.key connectionKey ∈ sourceRegistry.rows .connections g
  have hlasting : ∀ id, sourceRegistry.Lasting (known id) := fun id => Registry.lasting_mem _ _
  refine triple_require_bind fun _ => ?_
  refine triple_require_bind fun _ => ?_
  refine Registry.Triple.bind (triple_insertOrIgnore hP row ?_ ?_ ?_) fun inserted => ?_
  · intro g hnone j hj he
    obtain ⟨c, hc, rfl⟩ := List.mem_map.1 hj
    -- a row with the key of the new one would have been found
    have hkeys : [c.userId] = [userId] ∧ [py c.connectorType.value, c.connectionKey] =
        [py connector.key.value, connectionKey] := by
      injection he with _ hids htexts
      exact ⟨hids, htexts⟩
    rw [List.any_eq_false] at hnone
    refine hnone c hc (keyed_iff.2 ?_)
    simp only [List.cons.injEq, and_true] at hkeys
    rw [ofConnection, hkeys.1, value_injective (py_injective hkeys.2.1), hkeys.2.2]
  · intro g hnone j hj he
    obtain ⟨c, hc, rfl⟩ := List.mem_map.1 hj
    injection he with _ hid
    exact absent_of_none hnone c hc hid
  · refine rows_insert (fun g => ?_) fun g t ht => ?_
    · exact List.map_append
    · cases t <;> first | rfl | exact absurd rfl ht
  · have hread : sourceRegistry.Triple (fun g => (inserted = true → known connectionId g) ∧ P g)
        (reads fun g => (g.connections.find? (connectionKeyed userId connector.key
          connectionKey)).map SourceConnection.id : DbTx (Option Uuid))
        fun existing g => (∀ id, (if inserted then some connectionId else existing) = some id →
          known id g) ∧ P g := by
      refine Registry.triple_reads ((hlasting _).imp.and hP) fun g _ hg => ⟨fun id hid => ?_, hg.2⟩
      cases inserted with
      | true =>
        obtain rfl := Option.some.inj hid
        exact hg.1 rfl
      | false =>
        obtain ⟨c, hc, rfl⟩ := Option.map_eq_some_iff.1 hid
        have hkeyed := keyed_iff.1 (List.find?_some hc)
        show SourceRow.connection c.id userId connector.key connectionKey ∈ _
        rw [← hkeyed]
        exact mem_connections (List.mem_of_find?_eq_some hc)
    refine hread.bind fun existing => Registry.Triple.bind triple_requireSome fun selected => ?_
    refine ((triple_getConnection ((hlasting selected).and hP) selected).mono
      (fun g _ hg => ⟨hg.2.1 selected hg.1, hg.2.2⟩) fun c g hok hc => ?_)
    obtain ⟨⟨hid, hc⟩, hknown, hPg⟩ := hc
    have hrow := eq_of_id hok hc hknown rfl hid
    refine ⟨⟨keyed_iff.2 ?_, hc⟩, hPg⟩
    rw [hrow, hid]

theorem triple_ensureConnection (hP : sourceRegistry.Lasting P) (C : Reconciliation.Config)
    (fresh : FreshIds) (connector : Connector) (connectionKey : PyStr) :
    sourceRegistry.Triple P (ensureConnection C fresh userId connector connectionKey)
      fun c g => (connectionKeyed userId connector.key
        (normalizeDisplayText C.platform.unicode connectionKey) c = true ∧
        ofConnection c ∈ sourceRegistry.rows .connections g) ∧ P g := by
  refine triple_require_bind fun _ => ?_
  refine Registry.Triple.bind (Registry.triple_readOnly (Tx.readOnly_reads _) hP) fun known => ?_
  refine triple_require_bind fun _ => ?_
  refine Registry.Triple.bind (triple_ensureConnectionRow hP _ _ _) fun connection => ?_
  refine triple_require_bind fun _ => ?_
  exact Registry.triple_pure fun _ _ hg => hg

/-- A cursor is written back. -/
theorem triple_updateConnectionCursor (hP : sourceRegistry.Lasting P) (connectionId : Uuid)
    (cursor : Fields) (syncedAt : Instant) :
    sourceRegistry.Triple P (updateConnectionCursor userId connectionId cursor syncedAt)
      fun _ => P := by
  refine Registry.triple_of_same ?_ hP
  refine Tx.writes_bind (writes_selectForUpdate _ _ _ _) fun locked => ?_
  refine writes_requireSome_bind fun connection => writes_require_bind ⟨fun g t => ?_, trivial⟩
  cases t <;> try rfl
  show (Table.set SourceConnection.id connection.id _ g.connections).map ofConnection = _
  rw [Table.set, List.map_map]
  refine List.map_congr_left fun c _ => ?_
  show ofConnection (if c.id = connection.id then _ else c) = ofConnection c
  split <;> rfl

end Connections

/-! ### Raw events -/

section RawEvents

variable {P : Db → Prop} {userId connectionId : Uuid}

/-- A raw event of an identity has this identifier. -/
def Identified (userId connectionId : Uuid) (identityKey : PyStr) (id : Uuid) (g : Db) : Prop :=
  ∃ r, r.id = id ∧ identified userId connectionId identityKey r = true ∧
    .rawEvent r ∈ sourceRegistry.rows .rawEvents g

/-- A raw event of an identity has this identifier and this content. -/
def StoredAs (userId connectionId : Uuid) (identityKey contentHash : PyStr) (id : Uuid) (g : Db) :
    Prop :=
  ∃ r, (r.id = id ∧ identified userId connectionId identityKey r = true ∧
    r.contentSha256 = contentHash) ∧ .rawEvent r ∈ sourceRegistry.rows .rawEvents g

theorem lasting_identified (userId connectionId : Uuid) (identityKey : PyStr) (id : Uuid) :
    sourceRegistry.Lasting (Identified userId connectionId identityKey id) :=
  Registry.Lasting.exists fun r => (Registry.lasting_const _).and
    ((Registry.lasting_const _).and (Registry.lasting_mem _ (SourceRow.rawEvent r)))

theorem lasting_storedAs (userId connectionId : Uuid) (identityKey contentHash : PyStr)
    (id : Uuid) :
    sourceRegistry.Lasting (StoredAs userId connectionId identityKey contentHash id) :=
  Registry.Lasting.exists fun r => (Registry.lasting_const _).and
    (Registry.lasting_mem _ (SourceRow.rawEvent r))

theorem triple_storeRawEvent (hP : sourceRegistry.Lasting P) (rawEventId : Uuid)
    (envelope : ConnectorEnvelope) (identityKey contentHash : PyStr) (payload : Fields) :
    sourceRegistry.Triple P
      (storeRawEvent rawEventId userId connectionId envelope identityKey contentHash payload)
      fun s g => StoredAs userId connectionId identityKey contentHash s.id g ∧ P g := by
  let row : RawEvent := {
    id := rawEventId
    userId := userId
    sourceConnectionId := connectionId
    identityKey := identityKey
    externalEventId := envelope.externalEventId
    contentSha256 := contentHash
    sourceEventType := envelope.eventType
    occurredAt := envelope.occurredAt
    payload := payload }
  refine triple_require_bind fun _ => ?_
  refine triple_require_bind fun _ => ?_
  refine Registry.Triple.bind (triple_insertOrIgnore hP (.rawEvent row) ?_ ?_ ?_) fun inserted => ?_
  · intro g hnone j hj he
    obtain ⟨r, hr, rfl⟩ := List.mem_map.1 hj
    have hkeys : r.sourceConnectionId = connectionId ∧ r.identityKey = identityKey := by
      injection he with _ hids htexts
      exact ⟨List.head_eq_of_cons_eq hids, List.head_eq_of_cons_eq htexts⟩
    rw [List.any_eq_false] at hnone
    refine hnone r hr ?_
    rw [hkeys.1, hkeys.2, beq_self_eq_true, beq_self_eq_true, Bool.and_self]
  · intro g hnone j hj he
    obtain ⟨r, hr, rfl⟩ := List.mem_map.1 hj
    injection he with _ hid
    exact absent_of_none hnone r hr hid
  · refine rows_insert (fun g => ?_) fun g t ht => ?_
    · exact List.map_append
    · cases t <;> first | rfl | exact absurd rfl ht
  · have hread : sourceRegistry.Triple (fun g => (inserted = true →
          SourceRow.rawEvent row ∈ sourceRegistry.rows .rawEvents g) ∧ P g)
        (reads fun g => (g.rawEvents.find? (identified userId connectionId identityKey)).map
          RawEvent.id : DbTx (Option Uuid))
        fun existing g => (∀ id, (if inserted then some rawEventId else existing) = some id →
          Identified userId connectionId identityKey id g) ∧ P g := by
      refine Registry.triple_reads ((Registry.lasting_mem _ _).imp.and hP) fun g _ hg =>
        ⟨fun id hid => ?_, hg.2⟩
      cases inserted with
      | true =>
        obtain rfl := Option.some.inj hid
        refine ⟨row, rfl, ?_, hg.1 rfl⟩
        simp [identified, row]
      | false =>
        obtain ⟨r, hr, rfl⟩ := Option.map_eq_some_iff.1 hid
        exact ⟨r, rfl, List.find?_some hr, mem_rawEvents.2 (List.mem_of_find?_eq_some hr)⟩
    refine hread.bind fun existing => Registry.Triple.bind triple_requireSome fun selected => ?_
    have hlasting := (lasting_identified userId connectionId identityKey selected).and hP
    have hhash : sourceRegistry.Triple
        (fun g => Identified userId connectionId identityKey selected g ∧ P g)
        (reads fun g => (g.rawEvents.find? fun r => r.id == selected && r.userId == userId).map
          RawEvent.contentSha256 : DbTx (Option PyStr))
        fun hash g => (∀ x, hash = some x → StoredAs userId connectionId identityKey x selected g) ∧
          P g := by
      refine Registry.triple_reads hlasting fun g hok hg => ⟨fun x hx => ?_, hg.2⟩
      obtain ⟨r', hr', rfl⟩ := Option.map_eq_some_iff.1 hx
      obtain ⟨r, hid, hidentified, hr⟩ := hg.1
      have hkey := List.find?_some hr'
      rw [Bool.and_eq_true, beq_iff_eq] at hkey
      have hsame := eq_of_id hok (mem_rawEvents.2 (List.mem_of_find?_eq_some hr')) hr rfl
        (hkey.1.trans hid.symm)
      obtain rfl := SourceRow.rawEvent.inj hsame
      exact ⟨r', ⟨hid, hidentified, rfl⟩, hr⟩
    refine Registry.Triple.bind (hhash.mono (fun g _ hg => ⟨hg.2.1 selected hg.1, hg.2.2⟩)
      fun _ _ _ hg => hg) fun hash => ?_
    refine triple_require_bind fun hmatch => ?_
    have hstored := (lasting_storedAs userId connectionId identityKey contentHash selected).and hP
    refine Registry.Triple.bind ((Registry.triple_of_same
      (writes_insertOrIgnore fun g t => ?_) hstored).mono
        (fun g _ hg => ⟨hg.1 _ (of_decide_eq_true hmatch), hg.2⟩) fun _ _ _ hg => hg) fun _ => ?_
    · cases t <;> rfl
    · exact Registry.triple_pure fun _ _ hg => hg

theorem triple_storeEnvelope (hP : sourceRegistry.Lasting P) (C : Reconciliation.Config)
    (fresh : FreshIds) (connection : SourceConnection) (envelope : ConnectorEnvelope) :
    sourceRegistry.Triple P (storeEnvelope C fresh userId connection envelope) fun s g =>
      StoredAs userId connection.id
        (eventIdentityKey envelope (contentSha256 C.platform envelope))
        (contentSha256 C.platform envelope) s.id g ∧ P g := by
  refine triple_ofExcept_bind fun payload _ => ?_
  exact triple_storeRawEvent hP _ _ _ _ _

end RawEvents

/-! ### Normalized events, evidence and cases -/

section Processing

variable {P : Db → Prop} {userId : Uuid}

theorem keepsSources_posting : Ai.OfPosting KeepsSources where
  merchants _ _ t := by cases t <;> rfl
  transactions _ _ t := by cases t <;> rfl

theorem keepsSources_processing (f : List RawEventProcessing → List RawEventProcessing) :
    KeepsSources fun g => { g with processing := f g.processing } := by
  intro g t
  cases t <;> rfl

theorem contracted_iff {rawEventId : Uuid} {normalizerKey normalizerVersion : String}
    {n : NormalizedFinancialEvent} :
    contracted rawEventId normalizerKey normalizerVersion n = true ↔
      n.rawEventId = rawEventId ∧ n.schemaVersion = NORMALIZED_EVENT_SCHEMA_VERSION ∧
        n.normalizerKey = normalizerKey ∧ n.normalizerVersion = normalizerVersion := by
  simp only [contracted, Bool.and_eq_true, beq_iff_eq, and_assoc]

theorem triple_storeNormalizedEvent (hP : sourceRegistry.Lasting P)
    (normalizedEventId rawEventId : Uuid) (event : NormalizedFinancialEventV1)
    (normalizerKey normalizerVersion : String) :
    sourceRegistry.Triple P (storeNormalizedEvent normalizedEventId userId rawEventId event
      normalizerKey normalizerVersion) fun _ => P := by
  refine triple_ofExcept_bind fun row hrow => ?_
  obtain ⟨hid, -, -, -, hcontract⟩ := Reconciliation.normalizedRow_ok hrow
  obtain ⟨hraw, hschema, hkey, hversion⟩ := contracted_iff.1 hcontract
  have hlock : Lock.key .normalizedEvents [rawEventId] [py normalizerKey, py normalizerVersion] =
      sourceRegistry.unique (.normalizedEvent row) := by
    rw [← hraw, ← hkey, ← hversion]
    rfl
  have hprimary : Lock.row .normalizedEvents normalizedEventId =
      sourceRegistry.primary (.normalizedEvent row) := by
    rw [← hid]
    rfl
  dsimp only
  rw [hlock, hprimary]
  refine Registry.Triple.bind ((triple_insertOrIgnore hP (.normalizedEvent row) ?_ ?_ ?_).mono
    (fun _ _ hg => hg) fun _ _ _ hg => hg.2) fun inserted => ?_
  · intro g hnone j hj he
    obtain ⟨n, hn, rfl⟩ := List.mem_map.1 hj
    obtain ⟨hn, hschema'⟩ := List.mem_filter.1 hn
    have hkeys : [n.rawEventId] = [row.rawEventId] ∧ [py n.normalizerKey, py n.normalizerVersion] =
        [py row.normalizerKey, py row.normalizerVersion] := by
      injection he with _ hids htexts
      exact ⟨hids, htexts⟩
    simp only [List.cons.injEq, and_true] at hkeys
    rw [List.any_eq_false] at hnone
    refine hnone n hn (contracted_iff.2 ⟨hkeys.1.trans hraw, beq_iff_eq.1 hschema', ?_, ?_⟩)
    · exact (py_injective hkeys.2.1).trans hkey
    · exact (py_injective hkeys.2.2).trans hversion
  · intro g hnone j hj he
    obtain ⟨n, hn, rfl⟩ := List.mem_map.1 hj
    injection he with _ hid'
    exact absent_of_none hnone n (List.mem_filter.1 hn).1 (hid'.trans hid)
  · refine rows_insert (fun g => ?_) fun g t ht => ?_
    · have hone : ([row].filter fun n => n.schemaVersion == NORMALIZED_EVENT_SCHEMA_VERSION) =
          [row] := by simp [hschema]
      show ((g.normalizedEvents ++ [row]).filter _).map _ = (g.normalizedEvents.filter _).map _ ++ _
      rw [List.filter_append, hone, List.map_append]
      rfl
    · cases t <;> first | rfl | exact absurd rfl ht
  · refine Registry.triple_readOnly ?_ hP
    refine Tx.readOnly_bind (Tx.readOnly_reads _) fun existing => ?_
    refine Tx.readOnly_bind (readOnly_requireSome _ _) fun selected => ?_
    exact Tx.readOnly_bind (Tx.readOnly_reads _) fun _ => readOnly_requireSome _ _

theorem triple_addEvidence (hP : sourceRegistry.Lasting P)
    (evidenceId rawEventId normalizedEventId transactionId : Uuid) (locator : Fields)
    (excerpt : Option PyStr) :
    sourceRegistry.Triple P (addEvidence evidenceId userId rawEventId normalizedEventId
      transactionId locator excerpt) fun _ => P := by
  refine triple_require_bind fun _ => ?_
  let row : Evidence :=
    ⟨evidenceId, userId, rawEventId, normalizedEventId, transactionId, locator, excerpt⟩
  refine (triple_insertLocked hP (ofEvidence row) ?_ ?_).mono (fun _ _ hg => hg)
    fun _ _ _ hg => hg.2
  · intro g hnone j hj
    obtain ⟨e, he, rfl⟩ := List.mem_map.1 hj
    split at hnone
    · cases hnone
    · rename_i hid
      refine ⟨fun hkey => ?_, fun hkey => ?_⟩
      · injection hkey with _ hkey
        exact Table.fresh_of_any hid e he hkey
      · injection hkey with _ hkeys _
        exact absent_of_none hnone e he (List.head_eq_of_cons_eq hkeys)
  · refine rows_insert (fun g => ?_) fun g t ht => ?_
    · exact List.map_append
    · cases t <;> first | rfl | exact absurd rfl ht

theorem triple_insertCase (hP : sourceRegistry.Lasting P) (c : ReconciliationCase) :
    sourceRegistry.Triple P (Reconciliation.insertCase c) fun _ => P := by
  refine (triple_insertLocked hP (ofCase c) ?_ ?_).mono (fun _ _ hg => hg) fun _ _ _ hg => hg.2
  · intro g hnone j hj
    obtain ⟨c', hc', rfl⟩ := List.mem_map.1 hj
    rw [Option.or_eq_none_iff] at hnone
    obtain ⟨-, hnone⟩ := hnone
    split at hnone
    · cases hnone
    · rename_i hid
      refine ⟨fun hkey => ?_, fun hkey => ?_⟩
      · injection hkey with _ hkey
        exact Table.fresh_of_any hid c' hc' hkey
      · injection hkey with _ hkeys _
        exact absent_of_none hnone c' hc' (List.head_eq_of_cons_eq hkeys)
  · refine rows_insert (fun g => ?_) fun g t ht => ?_
    · exact List.map_append
    · cases t <;> first | rfl | exact absurd rfl ht

theorem triple_appendAction (hP : sourceRegistry.Lasting P) (actionId : Uuid)
    (case : ReconciliationCase) (actionType : ReconciliationActionType)
    (fromTransactionId toTransactionId : Option Uuid) :
    sourceRegistry.Triple P (Reconciliation.appendAction actionId userId case actionType
      fromTransactionId toTransactionId) fun _ => P :=
  Registry.triple_of_same (writes_insertChecked fun g t => by cases t <;> rfl) hP

theorem triple_createCase (hP : sourceRegistry.Lasting P) (caseId actionId : Uuid)
    (event : NormalizedFinancialEvent) (result : Reconciliation.ReconciliationResult)
    (status : ReconciliationStatus) (resulting : Option Uuid)
    (actionType : ReconciliationActionType) (locator : Fields) (excerpt : Option PyStr) :
    sourceRegistry.Triple P (Reconciliation.createCase caseId actionId userId event result status
      resulting actionType locator excerpt) fun _ => P := by
  refine Registry.Triple.bind (triple_insertCase hP _) fun _ => ?_
  refine Registry.Triple.bind (triple_appendAction hP _ _ _ _ _) fun _ => ?_
  exact Registry.triple_pure fun _ _ hg => hg

theorem triple_createTransaction (hP : sourceRegistry.Lasting P) (merchantId transactionId : Uuid)
    (command : Ledger.CreateTransactionCommand) :
    sourceRegistry.Triple P (Ledger.createTransaction merchantId transactionId userId command)
      fun _ => P :=
  Registry.triple_of_same (Ai.writes_createTransaction keepsSources_posting) hP

/-- Reconciliation registers a case, and evidence for what it posts or merges. -/
theorem triple_reconcileTransaction (hP : sourceRegistry.Lasting P) (C : Reconciliation.Config)
    (fresh : FreshIds) (event : NormalizedFinancialEvent)
    (command : Ledger.CreateTransactionCommand) (source : Reconciliation.EvidenceSource) :
    sourceRegistry.Triple P
      (Reconciliation.reconcileTransaction C fresh userId event command source)
      fun _ => P := by
  refine Registry.Triple.bind (Registry.triple_of_same (p := acquire _) trivial hP) fun _ => ?_
  refine Registry.Triple.bind (Registry.triple_readOnly
    (Reconciliation.readOnly_findCandidates _ _ _ _ _) hP) fun candidates => ?_
  dsimp only
  split
  · refine triple_requireSome_bind fun candidateId _ => ?_
    refine Registry.Triple.bind (Registry.triple_of_same ?_ hP) fun candidate => ?_
    · exact Tx.writes_bind (writes_selectForUpdate _ _ _ _) fun _ =>
        Tx.writes_of_readOnly (readOnly_requireSome _ _)
    · refine triple_require_bind fun _ => ?_
      refine Registry.Triple.bind (triple_addEvidence hP _ _ _ _ _ _) fun _ => ?_
      refine Registry.Triple.bind (triple_createCase hP _ _ _ _ _ _ _ _ _) fun _ => ?_
      exact Registry.triple_pure fun _ _ hg => hg
  · refine Registry.Triple.bind (triple_createCase hP _ _ _ _ _ _ _ _ _) fun _ => ?_
    exact Registry.triple_pure fun _ _ hg => hg
  · refine Registry.Triple.bind (triple_createTransaction hP _ _ _) fun transaction => ?_
    refine Registry.Triple.bind (triple_addEvidence hP _ _ _ _ _ _) fun _ => ?_
    refine Registry.Triple.bind (triple_createCase hP _ _ _ _ _ _ _ _ _) fun _ => ?_
    exact Registry.triple_pure fun _ _ hg => hg

theorem triple_lockProcessing (hP : sourceRegistry.Lasting P) (rawEventId : Uuid) :
    sourceRegistry.Triple P (lockProcessing userId rawEventId) fun _ => P :=
  Registry.triple_of_same (Tx.writes_bind (writes_selectForUpdate _ _ _ _) fun _ =>
    Tx.writes_of_readOnly (readOnly_requireSome _ _)) hP

theorem triple_setProcessing (hP : sourceRegistry.Lasting P) (processing : RawEventProcessing) :
    sourceRegistry.Triple P (setProcessing processing) fun _ => P :=
  Registry.triple_of_same ⟨keepsSources_processing _, trivial⟩ hP

theorem writes_moveTo (processing : RawEventProcessing) (target : RawEventState)
    (errorCode : Option String) : (moveTo processing target errorCode).Writes KeepsSources :=
  writes_require_bind ⟨keepsSources_processing _, trivial⟩

theorem writes_queueReview (processing : RawEventProcessing) (errorCode : String) :
    (queueReview processing errorCode).Writes KeepsSources :=
  Tx.writes_bind (writes_moveTo _ _ _) fun _ => trivial

theorem writes_settleOutcome (processing : RawEventProcessing)
    (outcome : Reconciliation.ReconciliationProcessingOutcome) :
    (settleOutcome processing outcome).Writes KeepsSources := by
  unfold settleOutcome
  split
  · exact writes_queueReview _ _
  · exact writes_requireSome_bind fun _ => Tx.writes_bind (writes_moveTo _ _ _) fun _ => trivial

theorem triple_postOrQueueReview (hP : sourceRegistry.Lasting P) (C : Reconciliation.Config)
    (fresh : FreshIds) (envelope : ConnectorEnvelope) (processing : RawEventProcessing)
    (event : NormalizedFinancialEvent) :
    sourceRegistry.Triple P (postOrQueueReview C fresh userId envelope processing event)
      fun _ => P := by
  unfold postOrQueueReview
  split
  · refine Registry.Triple.bind (Registry.triple_readOnly Categorization.classify_readOnly hP)
      fun assignment => ?_
    refine Registry.Triple.bind (Registry.triple_readOnly
      (Reconciliation.readOnly_resolveCategory _ _ _ _) hP) fun categoryId => ?_
    unfold postCommand
    split
    · refine Registry.Triple.bind (triple_reconcileTransaction hP _ _ _ _ _) fun outcome => ?_
      exact Registry.triple_of_same (writes_settleOutcome _ _) hP
    · exact Registry.triple_of_same (writes_queueReview _ _) hP
    · exact Registry.triple_throw _
  · exact Registry.triple_of_same (writes_queueReview _ _) hP

theorem readOnly_finishedResult (stored : StoredRawEvent) (processing : RawEventProcessing) :
    (finishedResult userId stored processing).ReadOnly :=
  Tx.readOnly_bind (Tx.readOnly_reads _) fun _ =>
    Tx.readOnly_bind (Tx.readOnly_reads _) fun _ => Tx.readOnly_pure _

theorem returns_finishedResult (stored : StoredRawEvent) (processing : RawEventProcessing) :
    (finishedResult userId stored processing).Returns fun r => r.rawEventId = stored.id :=
  Tx.returns_bind fun _ => Tx.returns_bind fun _ => Tx.returns_pure rfl

theorem triple_processNormalized (hP : sourceRegistry.Lasting P) (C : Reconciliation.Config)
    (fresh : FreshIds) (connection : SourceConnection) (envelope : ConnectorEnvelope)
    (stored : StoredRawEvent) (normalized : NormalizedFinancialEventV1) :
    sourceRegistry.Triple P
      (processNormalized C fresh userId connection envelope stored normalized) fun _ => P := by
  refine Registry.Triple.bind (triple_lockProcessing hP _) fun processing => ?_
  split
  · exact Registry.triple_readOnly (readOnly_finishedResult _ _) hP
  · refine Registry.Triple.bind (triple_storeNormalizedEvent hP _ _ _ _ _) fun persisted => ?_
    refine Registry.Triple.bind (Registry.triple_of_same (p := moveToNormalized _) ?_ hP)
      fun moved => ?_
    · exact writes_require_bind ⟨keepsSources_processing _, trivial⟩
    · refine Registry.Triple.bind (triple_postOrQueueReview hP _ _ _ _ _) fun posted => ?_
      exact Registry.triple_pure fun _ _ hg => hg

theorem returns_processNormalized {C : Reconciliation.Config} {fresh : FreshIds}
    {connection : SourceConnection} {envelope : ConnectorEnvelope} {stored : StoredRawEvent}
    {normalized : NormalizedFinancialEventV1} :
    (processNormalized C fresh userId connection envelope stored normalized).Returns
      fun r => r.rawEventId = stored.id := by
  refine Tx.returns_bind fun processing => ?_
  split
  · exact returns_finishedResult _ _
  · exact Tx.returns_bind fun _ => Tx.returns_bind fun _ => Tx.returns_bind fun _ =>
      Tx.returns_pure rfl

theorem writes_markFailed (stored : StoredRawEvent) (errorCode : String) :
    (markFailed userId stored errorCode).Writes KeepsSources := by
  refine Tx.writes_bind (x := lockProcessing userId stored.id) ?_ fun processing => ?_
  · exact Tx.writes_bind (writes_selectForUpdate _ _ _ _) fun _ =>
      Tx.writes_of_readOnly (readOnly_requireSome _ _)
  · split
    · exact Tx.writes_of_readOnly (readOnly_finishedResult _ _)
    · exact Tx.writes_bind (writes_moveTo _ _ _) fun _ => trivial

theorem returns_markFailed {stored : StoredRawEvent} {errorCode : String} :
    (markFailed userId stored errorCode).Returns fun r => r.rawEventId = stored.id := by
  refine Tx.returns_bind fun processing => ?_
  split
  · exact returns_finishedResult _ _
  · exact Tx.returns_bind fun _ => Tx.returns_pure rfl

/-- A look at an event that was stored before. -/
theorem triple_terminalResult (hP : sourceRegistry.Lasting P) (stored : StoredRawEvent) :
    sourceRegistry.Triple P (terminalResult userId stored) fun terminal g =>
      (∀ r, terminal = some r → r.rawEventId = stored.id) ∧ P g := by
  refine Registry.Triple.returning (Registry.triple_readOnly ?_ hP) ?_
  · refine Tx.readOnly_bind ?_ fun processing => ?_
    · exact Tx.readOnly_bind (Tx.readOnly_reads _) fun _ => readOnly_requireSome _ _
    · split
      · exact Tx.readOnly_bind (readOnly_finishedResult _ _) fun _ => Tx.readOnly_pure _
      · exact Tx.readOnly_pure _
  · refine Tx.returns_bind fun processing => ?_
    split
    · refine (returns_finishedResult _ _).bind fun result hresult => Tx.returns_pure fun r hr => ?_
      obtain rfl := Option.some.inj hr
      exact hresult
    · exact Tx.returns_pure nofun

/-- The end of a delivery is about the event that was stored, if the look before it was. -/
theorem triple_continueDelivery (hP : sourceRegistry.Lasting P) (C : Reconciliation.Config)
    (fresh : FreshIds) (connector : Connector) (connection : SourceConnection)
    (envelope : ConnectorEnvelope) (stored : StoredRawEvent) (terminal : Option IngestionResult) :
    sourceRegistry.Triple P
      (continueDelivery C fresh userId connector connection envelope stored terminal)
      fun r g => ((∀ r', terminal = some r' → r'.rawEventId = stored.id) →
        r.rawEventId = stored.id) ∧ P g := by
  cases terminal with
  | some result => exact Registry.triple_pure fun _ _ hg => ⟨fun h => h result rfl, hg⟩
  | none =>
    have hfinish : sourceRegistry.Triple P (finishDelivery C fresh userId connection envelope stored
        (connector.normalize envelope)) fun r g => r.rawEventId = stored.id ∧ P g := by
      cases connector.normalize envelope with
      | event normalized =>
        exact (triple_processNormalized hP _ _ _ _ _ _).returning returns_processNormalized
      | contentError code =>
        exact (Registry.triple_of_same (writes_markFailed _ _) hP).returning returns_markFailed
      | uncaught e => exact Registry.triple_throw _
    exact hfinish.mono (fun _ _ hg => hg) fun _ _ _ hg => ⟨fun _ => hg.1, hg.2⟩

end Processing

end Expensea.Ingestion
