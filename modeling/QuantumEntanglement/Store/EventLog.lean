import QuantumEntanglement.Events
import QuantumEntanglement.Store.Json
import QuantumEntanglement.Store.Timestamps

/-
  The event log — append, batch append and the readers

  Every write of an event goes through `snapshotEvent`, which copies the
  caller's object, and `insertEvent`, which is the INSERT with the constraints
  of the `events` table. Every read goes through `rowToEvent`, a validator of
  its own.

  `appendInTransaction` looks for the idempotency key before it looks at the
  expected version: a retry under a key the stream already has returns the
  stored event and compares nothing. `appendMany` has no such branch, so a
  repeated key in a batch fails the UNIQUE constraint.

  What is proved here are the specs the invariants are built from:
  `appendInTransaction_ok`, `append_ok`, `appendMany_ok` say what a call that
  returned did, and `rowToEvent_ok` what a readable row is.

  The process and quarantine checks, locks and fault branches around a
  transaction are not modelled here: BEGIN, COMMIT and ROLLBACK do what SQLite
  documents.
-/

namespace QuantumEntanglement

open Transaction PyJson PyText

/-! ## Writing -/

/-- A copied event and the text of its payload. -/
structure EventWriteSnapshot where
  event : DomainEvent
  payloadJson : String
  deriving DecidableEq

/-- `_snapshot_event`. The event identifier and the timestamp only have to be
strings; the payload is checked and copied. -/
def snapshotEvent (cfg : StoreConfig) (e : DomainEvent) : Except StoreError EventWriteSnapshot := do
  let streamId ← callerText e.streamId "event stream_id" true
  let eventType ← callerText e.eventType "event event_type" true
  let actorId ← callerText e.actorId "event actor_id" true
  let eventId ← callerText e.eventId "event event_id" false
  let timestamp ← callerText e.timestamp "event timestamp" false
  let payload ← snapshotJsonObject cfg.maxJsonBytes e.payload "event payload"
  let event ← DomainEvent.make streamId eventType payload.value actorId eventId timestamp
    e.correlationId e.causationId e.idempotencyKey
  .ok ⟨event, payload.encoded⟩

/-- `SELECT COALESCE(MAX(sequence), 0) FROM events WHERE stream_id = ?`. -/
def currentVersion (rows : List EventRow) (streamId : String) : Nat :=
  maxOf (·.sequence) (rows.filter (fun r => r.streamId = streamId))

/-- The row a snapshot becomes. -/
def EventWriteSnapshot.row (snap : EventWriteSnapshot) (sequence position : Nat) : EventRow :=
  { globalPosition := position
    streamId := snap.event.streamId
    sequence := sequence
    eventId := snap.event.eventId
    eventType := snap.event.eventType
    actorId := snap.event.actorId
    timestamp := snap.event.timestamp
    payloadJson := snap.payloadJson
    correlationId := snap.event.correlationId
    causationId := snap.event.causationId
    idempotencyKey := snap.event.idempotencyKey }

/-- The row of the stream that holds an idempotency key. -/
def findKey (rows : List EventRow) (streamId key : String) : Option EventRow :=
  rows.find? (fun r => r.streamId = streamId && r.idempotencyKey = some key)

/-- The UNIQUE constraints of the `events` table, for one more row. -/
def EventFresh (rows : List EventRow) (row : EventRow) : Prop :=
  ∀ r ∈ rows, r.eventId ≠ row.eventId ∧
    ¬(r.streamId = row.streamId ∧ r.sequence = row.sequence) ∧
    ¬(r.streamId = row.streamId ∧ r.idempotencyKey.isSome ∧ r.idempotencyKey = row.idempotencyKey)

instance (rows : List EventRow) (row : EventRow) : Decidable (EventFresh rows row) :=
  inferInstanceAs (Decidable (∀ r ∈ rows, _))

/-- `INSERT INTO events`, returning the row number. -/
def insertEvent (snap : EventWriteSnapshot) (sequence : Nat) : DbTxn Nat := do
  let rows ← Txn.query (·.events)
  let position := maxOf (·.globalPosition) rows + 1
  Txn.ensure (position ≤ maxSqliteInteger)
    ⟨.sqliteOperational, "database or disk is full"⟩
  Txn.ensure (EventFresh rows (snap.row sequence position))
    ⟨.sqliteIntegrity, "UNIQUE constraint failed: events"⟩
  Txn.update (fun db => { db with events := db.events ++ [snap.row sequence position] })
  pure position

/-! ## Reading -/

/-- An exception of a row reader: an integrity error as it is, a value or type
error as the reader's own text, anything else as it is. -/
def asMalformed {α : Type} (message : String) : Except StoreError α → Except StoreError α
  | .ok a => .ok a
  | .error e =>
    match e.kind with
    | .valueError | .typeError | .keyError | .jsonValueError | .jsonTypeError | .jsonTooLarge =>
      .error ⟨.integrity, message⟩
    | _ => .error e

/-- `_row_to_event`. -/
def rowToEvent (cfg : StoreConfig) (row : EventRow) : Except StoreError StoredEvent :=
  asMalformed "persisted event row is malformed" do
    let timestamp ← persistedText row.timestamp "event timestamp" true
    let _ ← normalizeTimestamp cfg.py timestamp "persisted event timestamp"
    let streamId ← persistedText row.streamId "stream_id" true
    let eventType ← persistedText row.eventType "event_type" true
    let payload ← decodeJsonObject cfg.maxJsonBytes row.payloadJson "event payload"
    let actorId ← persistedText row.actorId "actor_id" true
    let eventId ← persistedText row.eventId "event_id" true
    let event ← DomainEvent.make streamId eventType payload actorId eventId timestamp
      row.correlationId row.causationId row.idempotencyKey
    let _ ← persistedInteger row.sequence "event sequence" 1
    let _ ← persistedInteger row.globalPosition "event global_position" 1
    .ok ⟨event, row.sequence, row.globalPosition⟩

/-- Read rows in order, stopping at the first that does not read. -/
def readRows (cfg : StoreConfig) : List EventRow → Except StoreError (List StoredEvent)
  | [] => .ok []
  | row :: rest => do
    let e ← rowToEvent cfg row
    let es ← readRows cfg rest
    .ok (e :: es)

/-- `ORDER BY column`. -/
def orderBy {α : Type} (column : α → Nat) (rows : List α) : List α :=
  rows.insertionSort (fun a b => column a ≤ column b)

/-- `_validate_page_limit`. -/
def validatePageLimit (limit : Int) : Except StoreError Nat :=
  if 1 ≤ limit ∧ limit ≤ 1000 then .ok limit.toNat
  else .error ⟨.valueError, "limit must be between 1 and 1000"⟩

/-- `_validate_page_cursor`. -/
def validatePageCursor (value : Int) (field : String) : Except StoreError Int :=
  callerSqliteIntegerFrom 0 value field

def streamRows (rows : List EventRow) (streamId : String) (after : Int) : List EventRow :=
  orderBy (·.sequence) (rows.filter (fun r => r.streamId = streamId && after < r.sequence))

def streamVersion (streamId : String) : DbTxn Nat :=
  Txn.query (fun db => currentVersion db.events streamId)

def readStream (cfg : StoreConfig) (streamId : String) (afterSequence : Int) :
    DbTxn (List StoredEvent) := do
  let after ← Txn.lift (callerSqliteInteger afterSequence "after_sequence")
  let rows ← Txn.query (fun db => streamRows db.events streamId after)
  Txn.lift (readRows cfg rows)

def readStreamPage (cfg : StoreConfig) (streamId : String) (afterSequence limit : Int) :
    DbTxn (List StoredEvent) := do
  let streamId ← Txn.lift (callerText streamId "stream_id" true)
  let cursor ← Txn.lift (validatePageCursor afterSequence "after_sequence")
  let page ← Txn.lift (validatePageLimit limit)
  let rows ← Txn.query (fun db => (streamRows db.events streamId cursor).take page)
  Txn.lift (readRows cfg rows)

def readAll (cfg : StoreConfig) (afterPosition limit : Int) : DbTxn (List StoredEvent) := do
  let cursor ← Txn.lift (validatePageCursor afterPosition "after_position")
  let page ← Txn.lift (validatePageLimit limit)
  let rows ← Txn.query (fun db =>
    (orderBy (·.globalPosition) (db.events.filter (fun r => cursor < r.globalPosition))).take page)
  Txn.lift (readRows cfg rows)

def getIdempotentEvent (cfg : StoreConfig) (streamId idempotencyKey : String) :
    DbTxn (Option StoredEvent) := do
  let streamId ← Txn.lift (callerText streamId "stream_id" true)
  let key ← Txn.lift (callerText idempotencyKey "idempotency_key" true)
  match ← Txn.query (fun db => findKey db.events streamId key) with
  | none => pure none
  | some row =>
    let e ← Txn.lift (rowToEvent cfg row)
    pure (some e)

/-! ## Appending -/

/-- The stored event an idempotency key already names in its stream. -/
def idempotentRow (rows : List EventRow) (e : DomainEvent) : Option EventRow :=
  match e.idempotencyKey with
  | none => none
  | some key => findKey rows e.streamId key

/-- `_append_in_transaction`: the stored event and whether a row was inserted. -/
def appendInTransaction (cfg : StoreConfig) (snap : EventWriteSnapshot)
    (expectedVersion expectedGlobalPosition : Option Int) : DbTxn (StoredEvent × Bool) := do
  match ← Txn.query (fun db => idempotentRow db.events snap.event) with
  | some row =>
    let stored ← Txn.lift (rowToEvent cfg row)
    pure (stored, false)
  | none =>
    let last ← Txn.query (fun db => maxOf (·.globalPosition) db.events)
    Txn.ensure (∀ p ∈ expectedGlobalPosition, p = last)
      ⟨.concurrency, "global event position changed during admission"⟩
    let version ← streamVersion snap.event.streamId
    Txn.ensure (∀ v ∈ expectedVersion, v = version)
      ⟨.concurrency, "stream " ++ snap.event.streamId ++ " expected version " ++
        toString (expectedVersion.getD 0) ++ " but is " ++ toString version⟩
    let position ← insertEvent snap (version + 1)
    pure (⟨snap.event, version + 1, position⟩, true)

/-- An optional version, checked to be one SQLite can bind. -/
def callerExpectedVersion (expectedVersion : Option Int) : Except StoreError (Option Int) :=
  match expectedVersion with
  | none => .ok none
  | some v => (callerSqliteInteger v "expected_version").map some

def append (cfg : StoreConfig) (event : DomainEvent)
    (expectedVersion expectedGlobalPosition : Option Int) : DbTxn StoredEvent := do
  let snap ← Txn.lift (snapshotEvent cfg event)
  let version ← Txn.lift (callerExpectedVersion expectedVersion)
  let position ← Txn.lift (match expectedGlobalPosition with
    | none => .ok none
    | some p => (validatePageCursor p "expected_global_position").map some)
  Txn.atomically do
    let (stored, _) ← appendInTransaction cfg snap version position
    pure stored

/-- Copy a whole batch before anything is written. -/
def snapshotBatch (cfg : StoreConfig) : List DomainEvent → Except StoreError (List EventWriteSnapshot)
  | [] => .ok []
  | e :: rest => do
    let s ← snapshotEvent cfg e
    let ss ← snapshotBatch cfg rest
    .ok (s :: ss)

/-- Insert a batch under consecutive sequences, the first one given. -/
def insertBatch (sequence : Nat) : List EventWriteSnapshot → DbTxn (List StoredEvent)
  | [] => pure []
  | snap :: rest => do
    let position ← insertEvent snap sequence
    let stored ← insertBatch (sequence + 1) rest
    pure (⟨snap.event, sequence, position⟩ :: stored)

def appendMany (cfg : StoreConfig) (streamId : String) (events : List DomainEvent)
    (expectedVersion : Option Int) : DbTxn (List StoredEvent) := do
  let batch ← Txn.lift (snapshotBatch cfg events)
  Txn.ensure (∀ s ∈ batch, s.event.streamId = streamId)
    ⟨.valueError, "all batch events must use the declared stream_id"⟩
  if batch = [] then pure []
  else
    let expected ← Txn.lift (callerExpectedVersion expectedVersion)
    Txn.atomically do
      let version ← streamVersion streamId
      Txn.ensure (∀ v ∈ expected, v = version)
        ⟨.concurrency, "stream " ++ streamId ++ " expected version " ++
          toString (expected.getD 0) ++ " but is " ++ toString version⟩
      insertBatch (version + 1) batch

/-! ## Calls that only read -/

theorem getIdempotentEvent_reads (cfg : StoreConfig) (streamId key : String) :
    Txn.Reads (getIdempotentEvent cfg streamId key) := by
  refine Txn.Reads.bind (by simp) fun _ => Txn.Reads.bind (by simp) fun _ =>
    Txn.Reads.bind (by simp) fun row => ?_
  cases row with
  | none => exact Txn.reads_pure _
  | some row => exact Txn.Reads.bind (by simp) fun _ => Txn.reads_pure _

/-- An append that raises changed nothing. -/
theorem append_restores (cfg : StoreConfig) (event : DomainEvent) (ev egp : Option Int) :
    Txn.Restores (append cfg event ev egp) :=
  .bind (by simp) fun _ => .bind (by simp) fun _ => .bind (by simp) fun _ => .atomically _

/-! ## What a call that returned did -/

/-- The snapshot of an accepted event: its fields, the payload in normal form,
and the text that decodes to it. -/
theorem snapshotEvent_ok {cfg : StoreConfig} {e : DomainEvent} {snap : EventWriteSnapshot}
    (h : snapshotEvent cfg e = .ok snap) :
    snap.event = { e with payload := PyJson.normalize e.payload } ∧
      ∀ field, decodeJsonObject cfg.maxJsonBytes snap.payloadJson field =
        .ok (PyJson.normalize e.payload) := by
  simp only [snapshotEvent, except_bind_ok, callerText_ok, Except.ok.injEq] at h
  obtain ⟨_, ⟨-, rfl⟩, _, ⟨-, rfl⟩, _, ⟨-, rfl⟩, _, ⟨-, rfl⟩, _, ⟨-, rfl⟩, payload, hpayload, event,
    hevent, rfl⟩ := h
  rw [DomainEvent.make_eq e payload.value, Except.ok.injEq] at hevent
  have hval := (snapshotJsonObject_ok hpayload).2
  subst hevent
  refine ⟨by rw [hval], fun field => ?_⟩
  rw [← hval]
  exact decode_snapshot hpayload field

/-- An event whose payload the encoder accepts has a snapshot. -/
theorem snapshotEvent_of {cfg : StoreConfig} {e : DomainEvent} {text : String}
    (h : encodeJsonObject cfg.maxJsonBytes e.payload "event payload" = .ok text) :
    ∃ snap, snapshotEvent cfg e = .ok snap := by
  obtain ⟨hs, ht, ha⟩ := e.nonBlank
  refine ⟨⟨{ e with payload := PyJson.normalize e.payload }, text⟩, ?_⟩
  simp only [snapshotEvent, callerText, hs, ht, ha, Bool.and_false, Bool.false_and,
    Bool.false_eq_true, if_false, snapshotJsonObject_of h, bind, Except.bind, DomainEvent.make_eq]

/-- An error of a caller's event. -/
def IsCallerError (e : StoreError) : Prop := e.kind = .valueError ∨ IsJsonError e

theorem callerText_error {value field : String} {required : Bool} {e : StoreError}
    (h : callerText value field required = .error e) : e.kind = .valueError := by
  unfold callerText at h
  split at h
  · rw [← Except.error.inj h]
  · simp at h

/-- A snapshot that fails raises a value error or a JSON error. -/
theorem snapshotEvent_error {cfg : StoreConfig} {event : DomainEvent} {e : StoreError}
    (h : snapshotEvent cfg event = .error e) : IsCallerError e := by
  simp only [snapshotEvent, except_bind_error] at h
  rcases h with h | ⟨a, ha, h⟩
  · exact .inl (callerText_error h)
  rcases h with h | ⟨b, hb, h⟩
  · exact .inl (callerText_error h)
  rcases h with h | ⟨c, hc, h⟩
  · exact .inl (callerText_error h)
  rcases h with h | ⟨d, hd, h⟩
  · exact .inl (callerText_error h)
  rcases h with h | ⟨t, ht, h⟩
  · exact .inl (callerText_error h)
  rcases h with h | ⟨payload, hpayload, h⟩
  · exact .inr (snapshotJsonObject_error h)
  rcases h with h | ⟨made, -, h⟩
  · unfold DomainEvent.make at h
    split at h
    · simp at h
    · rw [← Except.error.inj h]
      exact .inl rfl
  · simp at h

/-- The read-back of an idempotency key finds the row that holds it. -/
theorem getIdempotentEvent_ok {cfg : StoreConfig} {streamId key : String}
    {found : Option StoredEvent} {db db' : Db}
    (h : getIdempotentEvent cfg streamId key db = (.ok found, db')) :
    db' = db ∧ (isBlank streamId = false ∧ isBlank key = false) ∧
      match found with
      | none => findKey db.events streamId key = none
      | some stored => ∃ row, findKey db.events streamId key = some row ∧
          rowToEvent cfg row = .ok stored := by
  simp only [getIdempotentEvent, Txn.bind_ok, Txn.lift_ok, Txn.query_ok, callerText_ok,
    true_implies] at h
  obtain ⟨_, _, ⟨⟨hs, rfl⟩, rfl⟩, _, _, ⟨⟨hk, rfl⟩, rfl⟩, row, _, ⟨hrow, rfl⟩, h⟩ := h
  cases row with
  | none =>
    obtain ⟨rfl, rfl⟩ := Txn.pure_ok.mp h
    exact ⟨rfl, ⟨hs, hk⟩, hrow⟩
  | some row =>
    simp only [Txn.bind_ok, Txn.lift_ok, Txn.pure_ok] at h
    obtain ⟨stored, _, ⟨hread, rfl⟩, rfl, rfl⟩ := h
    exact ⟨rfl, ⟨hs, hk⟩, row, hrow, hread⟩

/-- The read-back, of texts that are not blank. -/
theorem getIdempotentEvent_eq (cfg : StoreConfig) {streamId key : String} (db : Db)
    (hs : isBlank streamId = false) (hk : isBlank key = false) :
    getIdempotentEvent cfg streamId key db =
      ((findKey db.events streamId key).elim (.ok none) (fun row => (rowToEvent cfg row).map some),
        db) := by
  simp only [getIdempotentEvent, callerText, hs, hk, Bool.and_false, Bool.false_eq_true, if_false,
    Bind.bind, Txn.lift, Txn.query]
  cases findKey db.events streamId key with
  | none => rfl
  | some row =>
    simp only [Option.elim_some]
    cases rowToEvent cfg row <;> rfl

theorem insertEvent_ok {snap : EventWriteSnapshot} {sequence position : Nat} {db db' : Db} :
    insertEvent snap sequence db = (.ok position, db') ↔
      position = maxOf (·.globalPosition) db.events + 1 ∧ position ≤ maxSqliteInteger ∧
        EventFresh db.events (snap.row sequence position) ∧
        db' = { db with events := db.events ++ [snap.row sequence position] } := by
  simp only [insertEvent, Txn.bind_ok, Txn.query_ok, Txn.ensure_ok, Txn.update_ok, Txn.pure_ok]
  constructor
  · rintro ⟨_, _, ⟨rfl, rfl⟩, _, _, ⟨hmax, rfl⟩, _, _, ⟨hfresh, rfl⟩, _, _, rfl, rfl, rfl⟩
    exact ⟨rfl, hmax, hfresh, rfl⟩
  · rintro ⟨rfl, hmax, hfresh, rfl⟩
    exact ⟨_, _, ⟨rfl, rfl⟩, (), _, ⟨hmax, rfl⟩, (), _, ⟨hfresh, rfl⟩, (), _, rfl, rfl, rfl⟩

/-- An append inserted a row under the version it found, or found the row of
its idempotency key and changed nothing. -/
theorem appendInTransaction_ok {cfg : StoreConfig} {snap : EventWriteSnapshot}
    {ev egp : Option Int} {stored : StoredEvent} {inserted : Bool} {db db' : Db}
    (h : appendInTransaction cfg snap ev egp db = (.ok (stored, inserted), db')) :
    (inserted = true ∧ idempotentRow db.events snap.event = none ∧
        (∀ p ∈ egp, p = maxOf (·.globalPosition) db.events) ∧
        (∀ v ∈ ev, v = currentVersion db.events snap.event.streamId) ∧
        stored = ⟨snap.event, currentVersion db.events snap.event.streamId + 1,
          stored.globalPosition⟩ ∧
        insertEvent snap stored.sequence db = (.ok stored.globalPosition, db')) ∨
      (inserted = false ∧ db' = db ∧
        ∃ row, idempotentRow db.events snap.event = some row ∧ rowToEvent cfg row = .ok stored) := by
  simp only [appendInTransaction, Txn.bind_ok, Txn.query_ok] at h
  obtain ⟨found, s₁, ⟨hfound, rfl⟩, h⟩ := h
  cases hk : idempotentRow db.events snap.event with
  | some row =>
    rw [hk] at hfound
    subst hfound
    simp only [Txn.bind_ok, Txn.lift_ok, Txn.pure_ok, Prod.mk.injEq] at h
    obtain ⟨e, s₂, ⟨hrow, rfl⟩, ⟨rfl, rfl⟩, rfl⟩ := h
    exact .inr ⟨rfl, rfl, row, rfl, hrow⟩
  | none =>
    rw [hk] at hfound
    subst hfound
    simp only [streamVersion, Txn.bind_ok, Txn.query_ok, Txn.ensure_ok, Txn.pure_ok,
      Prod.mk.injEq] at h
    obtain ⟨last, _, ⟨rfl, rfl⟩, _, _, ⟨hp, rfl⟩, version, _, ⟨rfl, rfl⟩, _, _, ⟨hv, rfl⟩, position,
      _, hins, ⟨rfl, rfl⟩, rfl⟩ := h
    exact .inl ⟨rfl, rfl, hp, hv, rfl, hins⟩

theorem callerExpectedVersion_ok {ev v : Option Int} (h : callerExpectedVersion ev = .ok v) :
    v = ev := by
  unfold callerExpectedVersion at h
  cases ev with
  | none => simp only [Except.ok.injEq] at h; exact h.symm
  | some x =>
    simp only at h
    cases hx : callerSqliteInteger x "expected_version" with
    | error e => rw [hx] at h; simp [Except.map] at h
    | ok y =>
      rw [hx] at h
      simp only [Except.map, Except.ok.injEq] at h
      rw [← h, (callerSqliteInteger_ok.mp hx).2]

theorem append_ok {cfg : StoreConfig} {e : DomainEvent} {ev egp : Option Int}
    {stored : StoredEvent} {db db' : Db} (h : append cfg e ev egp db = (.ok stored, db')) :
    ∃ snap inserted, snapshotEvent cfg e = .ok snap ∧
      appendInTransaction cfg snap ev egp db = (.ok (stored, inserted), db') := by
  simp only [append, Txn.bind_ok, Txn.lift_ok, Txn.atomically_ok, Txn.pure_ok] at h
  obtain ⟨snap, _, ⟨hsnap, rfl⟩, v, _, ⟨hv, rfl⟩, p, _, ⟨hp, rfl⟩, ⟨st, ins⟩, _, happ, rfl, rfl⟩ := h
  obtain rfl := callerExpectedVersion_ok hv
  have hegp : p = egp := by
    cases egp with
    | none => simp only [Except.ok.injEq] at hp; exact hp.symm
    | some x =>
      simp only at hp
      cases hx : validatePageCursor x "expected_global_position" with
      | error err => rw [hx] at hp; simp [Except.map] at hp
      | ok y =>
        rw [hx] at hp
        simp only [Except.map, Except.ok.injEq] at hp
        rw [← hp, (callerSqliteIntegerFrom_ok.mp hx).2]
  subst hegp
  exact ⟨snap, ins, hsnap, happ⟩

theorem appendMany_ok {cfg : StoreConfig} {streamId : String} {es : List DomainEvent}
    {ev : Option Int} {stored : List StoredEvent} {db db' : Db}
    (h : appendMany cfg streamId es ev db = (.ok stored, db')) :
    ∃ batch, snapshotBatch cfg es = .ok batch ∧ (∀ s ∈ batch, s.event.streamId = streamId) ∧
      ((batch = [] ∧ stored = [] ∧ db' = db) ∨
        (batch ≠ [] ∧ (∀ v ∈ ev, v = currentVersion db.events streamId) ∧
          insertBatch (currentVersion db.events streamId + 1) batch db = (.ok stored, db'))) := by
  simp only [appendMany, Txn.bind_ok, Txn.lift_ok, Txn.ensure_ok] at h
  obtain ⟨batch, _, ⟨hbatch, rfl⟩, _, _, ⟨hstream, rfl⟩, h⟩ := h
  refine ⟨batch, hbatch, hstream, ?_⟩
  split at h
  next hnil =>
    obtain ⟨rfl, rfl⟩ := Txn.pure_ok.mp h
    exact .inl ⟨hnil, rfl, rfl⟩
  next hne =>
    simp only [streamVersion, Txn.bind_ok, Txn.lift_ok, Txn.atomically_ok, Txn.query_ok,
      Txn.ensure_ok] at h
    obtain ⟨v, _, ⟨hv, rfl⟩, version, _, ⟨rfl, rfl⟩, _, _, ⟨hver, rfl⟩, hins⟩ := h
    obtain rfl := callerExpectedVersion_ok hv
    exact .inr ⟨hne, hver, hins⟩

/-! ## What a readable row is -/

theorem asMalformed_ok {α : Type} {message : String} {x : Except StoreError α} {a : α} :
    asMalformed message x = .ok a ↔ x = .ok a := by
  unfold asMalformed
  split
  · simp
  · split <;> simp

/-- **A row reads back exactly when its texts are not blank, its timestamp is
one `_normalize_timestamp` accepts, its payload decodes and its numbers are in
range.** -/
theorem rowToEvent_ok {cfg : StoreConfig} {row : EventRow} {stored : StoredEvent} :
    rowToEvent cfg row = .ok stored ↔
      (isBlank row.timestamp = false ∧ TimestampOk cfg.py row.timestamp) ∧
      isBlank row.eventId = false ∧
      (∃ payload e, decodeJsonObject cfg.maxJsonBytes row.payloadJson "event payload" = .ok payload ∧
        DomainEvent.make row.streamId row.eventType payload row.actorId row.eventId row.timestamp
          row.correlationId row.causationId row.idempotencyKey = .ok e ∧
        stored = ⟨e, row.sequence, row.globalPosition⟩) ∧
      (1 ≤ row.sequence ∧ row.sequence ≤ maxSqliteInteger) ∧
      1 ≤ row.globalPosition ∧ row.globalPosition ≤ maxSqliteInteger := by
  simp only [rowToEvent, asMalformed_ok, except_bind_ok, persistedText_ok, persistedInteger_ok,
    Except.ok.injEq, true_implies]
  constructor
  · rintro ⟨_, ⟨ht, rfl⟩, _, hts, _, ⟨hs, rfl⟩, _, ⟨hy, rfl⟩, payload, hp, _, ⟨ha, rfl⟩, _,
      ⟨hid, rfl⟩, e, he, _, ⟨hseq, -⟩, _, ⟨hpos, -⟩, rfl⟩
    exact ⟨⟨ht, normalizeTimestamp_accepts.mp ⟨_, hts⟩⟩, hid, ⟨payload, e, hp, he, rfl⟩,
      hseq, hpos⟩
  · rintro ⟨⟨ht, hts⟩, hid, ⟨payload, e, hp, he, rfl⟩, hseq, hpos⟩
    obtain ⟨text, htext⟩ := normalizeTimestamp_accepts.mpr hts
    have hreq : (isBlank row.streamId || isBlank row.eventType || isBlank row.actorId) = false := by
      unfold DomainEvent.make at he
      split at he
      · assumption
      · simp at he
    simp only [Bool.or_eq_false_iff] at hreq
    exact ⟨_, ⟨ht, rfl⟩, text, htext, _, ⟨hreq.1.1, rfl⟩, _, ⟨hreq.1.2, rfl⟩, payload, hp, _,
      ⟨hreq.2, rfl⟩, _, ⟨hid, rfl⟩, e, he, _, ⟨hseq, rfl⟩, _, ⟨hpos, rfl⟩, rfl⟩

end QuantumEntanglement
