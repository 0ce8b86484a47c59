import QuantumEntanglement.Delivery
import QuantumEntanglement.Lib.Sha256
import QuantumEntanglement.Store.LogInvariant

/-
  The outbox — enqueue with an event, lease, acknowledge, reject, quarantine

  A message is inserted by the transaction that appends its event. A worker
  leases due messages under a fresh token; an acknowledgement or a rejection
  must carry that token, before the lease expires. A worker that cannot tell
  whether its external write happened marks the message ambiguous: it then
  stays leased, and nobody may claim, acknowledge or reject it, until an
  operator resolves the ambiguity.

  Times are compared by SQLite's `julianday`, which is NULL for a text it does
  not know, and a comparison with NULL selects no row.

  The clock a store samples is a text argument here, and the part of
  `new_id("lease")` after its prefix a supply, one for each row of a claim. A
  lease is a number of microseconds, as the `timedelta` it becomes. The `now`
  arguments the code ignores are left out.
-/

namespace QuantumEntanglement

open Transaction PyJson PyText IsoTime Sha256

/-! ## Rows -/

/-- A copied message and the texts of its two mappings. -/
structure OutboxWriteSnapshot (py : PyVersion) where
  message : OutboxMessage py
  payloadJson : String
  headersJson : String

/-- `_snapshot_outbox_message`. -/
def snapshotOutboxMessage (cfg : StoreConfig) (m : OutboxMessage cfg.py) :
    Except StoreError (OutboxWriteSnapshot cfg.py) := do
  let destination ← callerText m.destination "outbox destination" true
  let messageId ← callerText m.messageId "outbox message_id" true
  let key ← callerText m.idempotencyKey "outbox idempotency_key" true
  let availableAt ← callerText m.availableAt "outbox available_at" false
  let createdAt ← callerText m.createdAt "outbox created_at" false
  let payload ← snapshotJsonObject cfg.maxJsonBytes m.payload "outbox payload"
  let headers ← snapshotJsonObject cfg.maxJsonBytes m.headers "outbox headers"
  let message ← OutboxMessage.make cfg.py destination payload.value headers.value messageId
    (some key) availableAt createdAt
  .ok ⟨message, payload.encoded, headers.encoded⟩

/-- A timestamp column that may be NULL. -/
def checkOptionalTimestamp (py : PyVersion) (value : Option String) (field : String) :
    Except StoreError Unit :=
  match value with
  | none => .ok ()
  | some text => do
    let _ ← normalizeTimestamp py text field
    .ok ()

/-- `_row_to_outbox`. -/
def rowToOutbox (cfg : StoreConfig) (row : OutboxRow) :
    Except StoreError (StoredOutboxMessage cfg.py) :=
  asMalformed "persisted outbox row is malformed" do
    let availableAt ← persistedText row.availableAt "outbox available_at" true
    let createdAt ← persistedText row.createdAt "outbox created_at" true
    let _ ← normalizeTimestamp cfg.py availableAt "persisted outbox available_at"
    let _ ← normalizeTimestamp cfg.py createdAt "persisted outbox created_at"
    checkOptionalTimestamp cfg.py row.leaseExpiresAt "persisted outbox lease_expires_at"
    checkOptionalTimestamp cfg.py row.publishedAt "persisted outbox published_at"
    let destination ← persistedText row.destination "outbox destination" true
    let payload ← decodeJsonObject cfg.maxJsonBytes row.payloadJson "outbox payload"
    let headers ← decodeJsonObject cfg.maxJsonBytes row.headersJson "outbox headers"
    let messageId ← persistedText row.messageId "outbox message_id" true
    let key ← persistedText row.idempotencyKey "outbox idempotency_key" true
    let message ← OutboxMessage.make cfg.py destination payload headers messageId (some key)
      availableAt createdAt
    let eventId ← persistedText row.triggeringEventId "outbox triggering_event_id" true
    let position ← persistedInteger row.triggeringGlobalPosition "outbox triggering_global_position" 1
    let attempts ← persistedInteger row.attemptCount "outbox attempt_count" 0
    .ok ⟨message, eventId, position, row.status, attempts, row.leaseToken, row.leaseExpiresAt,
      row.lastError, row.publishedAt⟩

/-- Read rows in order, stopping at the first that does not read. -/
def readOutboxRows (cfg : StoreConfig) :
    List OutboxRow → Except StoreError (List (StoredOutboxMessage cfg.py))
  | [] => .ok []
  | row :: rest => do
    let m ← rowToOutbox cfg row
    let ms ← readOutboxRows cfg rest
    .ok (m :: ms)

/-- The row of a message: `message_id` is unique. -/
def findOutbox (rows : List OutboxRow) (messageId : String) : Option OutboxRow :=
  rows.find? (fun r => r.messageId = messageId)

/-! ## Enqueueing -/

/-- Copy every message before anything is written. -/
def snapshotMessages (cfg : StoreConfig) :
    List (OutboxMessage cfg.py) → Except StoreError (List (OutboxWriteSnapshot cfg.py))
  | [] => .ok []
  | m :: rest => do
    let s ← snapshotOutboxMessage cfg m
    let ss ← snapshotMessages cfg rest
    .ok (s :: ss)

/-- The row a message becomes. -/
def OutboxWriteSnapshot.row {py : PyVersion} (snap : OutboxWriteSnapshot py) (stored : StoredEvent)
    (position : Nat) : OutboxRow :=
  { outboxPosition := position
    messageId := snap.message.messageId
    destination := snap.message.destination
    payloadJson := snap.payloadJson
    headersJson := snap.headersJson
    idempotencyKey := snap.message.idempotencyKey
    triggeringEventId := stored.event.eventId
    triggeringGlobalPosition := stored.globalPosition
    status := .pending
    attemptCount := 0
    availableAt := snap.message.availableAt
    createdAt := snap.message.createdAt
    leaseToken := none
    leaseExpiresAt := none
    lastError := none
    publishedAt := none }

/-- The UNIQUE constraints of the `outbox` table, for one more row. -/
def OutboxFresh (rows : List OutboxRow) (row : OutboxRow) : Prop :=
  ∀ r ∈ rows, r.messageId ≠ row.messageId ∧
    ¬(r.destination = row.destination ∧ r.idempotencyKey = row.idempotencyKey)

instance (rows : List OutboxRow) (row : OutboxRow) : Decidable (OutboxFresh rows row) :=
  inferInstanceAs (Decidable (∀ r ∈ rows, _))

/-- `INSERT INTO outbox`. -/
def insertOutbox {py : PyVersion} (stored : StoredEvent) (snap : OutboxWriteSnapshot py) :
    DbTxn Unit := do
  let rows ← Txn.query (·.outbox)
  let position := maxOf (·.outboxPosition) rows + 1
  Txn.ensure (position ≤ maxSqliteInteger) ⟨.sqliteOperational, "database or disk is full"⟩
  Txn.ensure (OutboxFresh rows (snap.row stored position))
    ⟨.sqliteIntegrity, "UNIQUE constraint failed: outbox"⟩
  Txn.update (fun db => { db with outbox := db.outbox ++ [snap.row stored position] })

/-- `SELECT * FROM outbox WHERE triggering_global_position = ? ORDER BY outbox_position`. -/
def triggeredRows (rows : List OutboxRow) (position : Nat) : List OutboxRow :=
  orderBy (·.outboxPosition) (rows.filter (fun r => r.triggeringGlobalPosition = position))

/-- What a retry is compared by; two mappings by Python's `==`. -/
def sameRequest {py : PyVersion} (a b : OutboxMessage py) : Bool :=
  a.messageId = b.messageId && a.destination = b.destination &&
    a.idempotencyKey = b.idempotencyKey && pyEq a.payload b.payload && pyEq a.headers b.headers

/-- `requested == persisted`. -/
def sameRequests {py : PyVersion} :
    List (OutboxWriteSnapshot py) → List (StoredOutboxMessage py) → Bool
  | [], [] => true
  | a :: as, b :: bs => sameRequest a.message b.message && sameRequests as bs
  | _, _ => false

/-- `append_with_outbox`. -/
def appendWithOutbox (cfg : StoreConfig) (event : DomainEvent)
    (messages : List (OutboxMessage cfg.py)) (expectedVersion : Option Int) :
    DbTxn (StoredEvent × List (StoredOutboxMessage cfg.py)) := do
  let snap ← Txn.lift (snapshotEvent cfg event)
  let batch ← Txn.lift (snapshotMessages cfg messages)
  let version ← Txn.lift (callerExpectedVersion expectedVersion)
  Txn.atomically do
    let (stored, inserted) ← appendInTransaction cfg snap version none
    if inserted then
      let _ ← Txn.forEach (insertOutbox stored) batch
      let rows ← Txn.query (fun db => triggeredRows db.outbox stored.globalPosition)
      let linked ← Txn.lift (readOutboxRows cfg rows)
      pure (stored, linked)
    else
      let rows ← Txn.query (fun db => triggeredRows db.outbox stored.globalPosition)
      let existing ← Txn.lift (readOutboxRows cfg rows)
      Txn.ensure (sameRequests batch existing = true)
        ⟨.valueError, "idempotent event retry changed its transactional outbox messages"⟩
      pure (stored, existing)

/-! ## Time -/

variable [SqliteTime]

/-- `julianday(a) <= julianday(b)`; a NULL compares as false. -/
def atOrBefore (a b : String) : Bool :=
  match julianday a, julianday b with
  | some x, some y => x ≤ y
  | _, _ => false

/-- `julianday(a) > julianday(b)`. -/
def strictlyAfter (a b : String) : Bool :=
  match julianday a, julianday b with
  | some x, some y => y < x
  | _, _ => false

/-- `_lease_deadline`. -/
def leaseDeadline (py : PyVersion) (now : String) (leaseMicros : Nat) : Except StoreError String := do
  let m ← timestampMoment py now "now"
  if InRange (m + leaseMicros) then .ok (momentText (m + leaseMicros))
  else .error ⟨.overflowError, "date value out of range"⟩

/-! ## Delivery -/

/-- An ambiguity of the message that no operator resolved. -/
def isOpenFor (messageId : String) (a : AmbiguityRow) : Bool :=
  a.messageId = messageId && a.resolvedAt.isNone

def hasOpenAmbiguity (rows : List AmbiguityRow) (messageId : String) : Bool :=
  rows.any (isOpenFor messageId)

/-- A lease column that is set and no later than `now`. -/
def leaseExpired (row : OutboxRow) (now : String) : Bool :=
  match row.leaseExpiresAt with
  | none => false
  | some expiry => atOrBefore expiry now

/-- The WHERE of the claim: due, or leased and expired; and not quarantined. -/
def isClaimable (ambiguities : List AmbiguityRow) (now : String) (row : OutboxRow) : Bool :=
  ((row.status = .pending && atOrBefore row.availableAt now) ||
      (row.status = .inFlight && leaseExpired row now)) &&
    !hasOpenAmbiguity ambiguities row.messageId

/-- What a claim writes into a row. -/
def OutboxRow.leased (row : OutboxRow) (token expiry : String) : OutboxRow :=
  { row with
    status := .inFlight
    attemptCount := row.attemptCount + 1
    leaseToken := some token
    leaseExpiresAt := some expiry }

/-- `new_id("lease")`, and the token made from it. -/
def leaseTokenOf (workerId leaseSuffix : String) : String := workerId ++ ":" ++ "lease_" ++ leaseSuffix

/-- One turn of the claim's loop. -/
def claimRow (cfg : StoreConfig) (workerId expiry leaseSuffix : String) (row : OutboxRow) :
    DbTxn (StoredOutboxMessage cfg.py) := do
  let messageId ← Txn.lift (persistedText row.messageId "outbox message_id" true)
  Txn.ensure (isBlank ("lease_" ++ leaseSuffix) = false) ⟨.valueError, "lease id is required"⟩
  Txn.update (fun db => { db with
    outbox := updateWhere (fun r => r.messageId = messageId)
      (·.leased (leaseTokenOf workerId leaseSuffix) expiry) db.outbox })
  match ← Txn.query (fun db => findOutbox db.outbox messageId) with
  | none => Txn.raise ⟨.integrity, "persisted outbox row is malformed"⟩
  | some updated => Txn.lift (rowToOutbox cfg updated)

/-- The claim's loop; the supply gives the `i`-th row its lease. -/
def claimRows (cfg : StoreConfig) (workerId expiry : String) (supply : Nat → String) (i : Nat) :
    List OutboxRow → DbTxn (List (StoredOutboxMessage cfg.py))
  | [] => pure []
  | row :: rest => do
    let m ← claimRow cfg workerId expiry (supply i) row
    let ms ← claimRows cfg workerId expiry supply (i + 1) rest
    pure (m :: ms)

/-- The rows a claim selects. -/
def claimableRows (db : Db) (now : String) (limit : Int) : List OutboxRow :=
  (orderBy (·.outboxPosition) (db.outbox.filter (isClaimable db.ambiguities now))).take limit.toNat

/-- `claim_outbox`. -/
def claimOutbox (cfg : StoreConfig) (workerId : String) (limit : Int) (leaseMicros : Nat)
    (clock : String) (supply : Nat → String) : DbTxn (List (StoredOutboxMessage cfg.py)) := do
  let workerId ← Txn.lift (callerText workerId "worker_id" true)
  let limit ← Txn.lift (callerSqliteIntegerFrom 1 limit "limit")
  Txn.atomically do
    let claimedAt ← Txn.lift (normalizeTimestamp cfg.py clock "clock")
    let expiry ← Txn.lift (leaseDeadline cfg.py claimedAt leaseMicros)
    let rows ← Txn.query (fun db => claimableRows db claimedAt limit)
    claimRows cfg workerId expiry supply 0 rows

/-- The fence of ACK and NACK: leased under this token, not expired, not
quarantined. -/
def holdsLease (ambiguities : List AmbiguityRow) (messageId token now : String)
    (row : OutboxRow) : Bool :=
  row.messageId = messageId && row.status = .inFlight && row.leaseToken = some token &&
    (match row.leaseExpiresAt with
      | none => false
      | some expiry => strictlyAfter expiry now) &&
    !hasOpenAmbiguity ambiguities row.messageId

/-- An UPDATE of the outbox that returns its row count. -/
def updateOutbox (p : Db → OutboxRow → Bool) (f : OutboxRow → OutboxRow) : DbTxn Nat := do
  let count ← Txn.query (fun db => db.outbox.countP (p db))
  Txn.update (fun db => { db with outbox := updateWhere (p db) f db.outbox })
  pure count

def OutboxRow.published (row : OutboxRow) (at_ : String) : OutboxRow :=
  { row with
    status := .published
    leaseToken := none
    leaseExpiresAt := none
    publishedAt := some at_
    lastError := none }

/-- A row given up by its worker: to be delivered again, or dead. -/
def OutboxRow.released (row : OutboxRow) (dead : Bool) (availableAt error : String) : OutboxRow :=
  { row with
    status := if dead then .deadLetter else .pending
    availableAt := availableAt
    leaseToken := none
    leaseExpiresAt := none
    lastError := some error }

/-- `acknowledge_outbox`, also named `ack_outbox`. -/
def acknowledgeOutbox (cfg : StoreConfig) (messageId leaseToken : String)
    (publishedAt : Option String) (clock : String) : DbTxn Bool :=
  Txn.atomically do
    let checkedAt ← Txn.lift (normalizeTimestamp cfg.py clock "clock")
    let acknowledgedAt ← Txn.lift (normalizeTimestamp cfg.py (publishedAt.getD checkedAt)
      "published_at")
    let count ← updateOutbox (fun db => holdsLease db.ambiguities messageId leaseToken checkedAt)
      (·.published acknowledgedAt)
    pure (count == 1)

/-- `reject_outbox`, also named `nack_outbox`. -/
def rejectOutbox (cfg : StoreConfig) (messageId leaseToken error : String) (retryAt : Option String)
    (deadLetter : Bool) (clock : String) : DbTxn Bool :=
  Txn.atomically do
    let rejectedAt ← Txn.lift (normalizeTimestamp cfg.py clock "clock")
    let availableAt ← Txn.lift (normalizeTimestamp cfg.py (retryAt.getD rejectedAt) "retry_at")
    let count ← updateOutbox (fun db => holdsLease db.ambiguities messageId leaseToken rejectedAt)
      (·.released deadLetter availableAt error)
    pure (count == 1)

/-- `_lease_token_digest`. -/
def leaseTokenDigest (token : String) : Except StoreError String :=
  if token = "" then .error ⟨.valueError, "lease_token is required"⟩ else .ok (hexDigest token)

/-- `INSERT INTO outbox_ambiguities ... ON CONFLICT(message_id, lease_token_digest) DO NOTHING`,
with the index that allows one open ambiguity for a message. -/
def insertAmbiguity (row : AmbiguityRow) : DbTxn Unit := do
  let rows ← Txn.query (·.ambiguities)
  if rows.any (fun a => a.messageId = row.messageId &&
      a.leaseTokenDigest = row.leaseTokenDigest) then pure ()
  else
    Txn.ensure (hasOpenAmbiguity rows row.messageId = false)
      ⟨.sqliteIntegrity, "UNIQUE constraint failed: outbox_ambiguities.message_id"⟩
    Txn.ensure (0 < row.attemptCount) ⟨.sqliteIntegrity, "CHECK constraint failed: attempt_count > 0"⟩
    Txn.update (fun db => { db with ambiguities := db.ambiguities ++ [row] })

/-- `mark_outbox_ambiguous`. A time that is left out is what `utc_now` returns
at `now`. -/
def markOutboxAmbiguous (cfg : StoreConfig) (messageId leaseToken : String) (reason : AmbiguityReason)
    (markedAt : Option String) (now : UtcMoment) : DbTxn Bool := do
  let digest ← Txn.lift (leaseTokenDigest leaseToken)
  let recordedAt ← Txn.lift (normalizeTimestamp cfg.py (markedAt.getD (utcNow now)) "marked_at")
  Txn.atomically do
    match ← Txn.query (fun db => findOutbox db.outbox messageId) with
    | none => pure false
    | some row =>
      if row.status = .inFlight ∧ row.leaseToken = some leaseToken then
        let attempts ← Txn.lift (persistedInteger row.attemptCount "outbox attempt_count" 0)
        insertAmbiguity ⟨messageId, digest, reason, attempts, recordedAt, none, none⟩
        pure true
      else pure false

/-- The digest of the token a row holds. -/
def rowTokenDigest (row : OutboxRow) : Except StoreError String :=
  match row.leaseToken with
  | none => .error ⟨.valueError, "lease_token is required"⟩
  | some token => leaseTokenDigest token

/-- The row under a lease, as the resolution's UPDATE selects it. -/
def isLeasedAs (messageId token : String) (row : OutboxRow) : Bool :=
  row.messageId = messageId && row.status = .inFlight && row.leaseToken = some token

/-- `_persisted_text` of the token a row holds. -/
def persistedToken (row : OutboxRow) : Except StoreError String :=
  match row.leaseToken with
  | none => .error ⟨.typeError, "persisted outbox lease_token must be text"⟩
  | some token => persistedText token "outbox lease_token" true

/-- The text of a resolution. -/
def AmbiguityResolution.value : AmbiguityResolution → String
  | .published => "published"
  | .retry => "retry"
  | .deadLetter => "dead_letter"

/-- What a resolution does to the message it frees. -/
def resolveRow (resolution : AmbiguityResolution) (decidedAt availableAt : String)
    (row : OutboxRow) : OutboxRow :=
  match resolution with
  | .published => row.published decidedAt
  | .retry => row.released false availableAt ("operator_reconciled:" ++ resolution.value)
  | .deadLetter => row.released true availableAt ("operator_reconciled:" ++ resolution.value)

/-- The ambiguity a resolution is about. -/
def isAmbiguityOf (messageId digest : String) (a : AmbiguityRow) : Bool :=
  isOpenFor messageId a && a.leaseTokenDigest = digest

/-- The transaction of `resolve_outbox_ambiguity`. -/
def resolveInTransaction (messageId digest : String) (resolution : AmbiguityResolution)
    (decidedAt availableAt : String) : DbTxn Bool := do
  let ambiguity ← Txn.query (fun db => db.ambiguities.find? (isAmbiguityOf messageId digest))
  let outbox ← Txn.query (fun db => findOutbox db.outbox messageId)
  match ambiguity, outbox with
  | some _, some row =>
    if row.status = .inFlight then
      let held ← Txn.lift (rowTokenDigest row)
      if held = digest then
        let token ← Txn.lift (persistedToken row)
        let _ ← updateOutbox (fun _ => isLeasedAs messageId token)
          (resolveRow resolution decidedAt availableAt)
        Txn.update (fun db => { db with
          ambiguities := updateWhere (isAmbiguityOf messageId digest)
            (fun a => { a with resolution := some resolution, resolvedAt := some decidedAt })
            db.ambiguities })
        pure true
      else pure false
    else pure false
  | _, _ => pure false

/-- `resolve_outbox_ambiguity`. -/
def resolveOutboxAmbiguity (cfg : StoreConfig) (messageId digest : String)
    (resolution : AmbiguityResolution) (resolvedAt retryAt : Option String) (now : UtcMoment) :
    DbTxn Bool := do
  Txn.ensure (IsHexDigest digest)
    ⟨.valueError, "lease_token_digest must be a lowercase SHA-256 digest"⟩
  let decidedAt ← Txn.lift (normalizeTimestamp cfg.py (resolvedAt.getD (utcNow now)) "resolved_at")
  let availableAt ← Txn.lift (normalizeTimestamp cfg.py (retryAt.getD decidedAt) "retry_at")
  Txn.atomically (resolveInTransaction messageId digest resolution decidedAt availableAt)

end QuantumEntanglement
