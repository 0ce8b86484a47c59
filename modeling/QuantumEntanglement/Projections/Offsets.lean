import QuantumEntanglement.Publisher.Records

/-
  Projection offsets — leases, checkpoints and receipts in one SQLite file

  A projection has one row of `projection_offsets`: how far it has come, and
  who owns it under which epoch until when. `claim` takes the row over,
  `renew` and `release` move its expiry, `advance` and `apply_event` move its
  checkpoint. Every operation reads the clock after BEGIN IMMEDIATE, so inside
  the write lock, and one operation follows another.

  A handler writes the read-model tables through the transaction of the
  `apply_event` that called it. Its statements cannot name a framework table
  (see `Projections.Authorizer`), so a statement is a function on the read
  model alone, of whatever type that is. It ends in one of three ways, and one
  of them is SQLite's conflict clause ROLLBACK: the statement fails and the
  transaction is over. What the connection executes after that is committed
  statement by statement, and the COMMIT at the end fails.

  A `ProjectionOffset` that was read from a row is that row. Failures of the
  file itself (a busy lock, a full disk) are left out.
-/

namespace QuantumEntanglement.ProjectionOffsets

open PyText IsoTime Transaction

/-! ## Errors and values -/

/-- The exceptions of the offset store, each with its text. -/
inductive OffsetError where
  | valueError (message : String)
  | overflowError (message : String)
  /-- `ProjectionOffsetError` itself. -/
  | offset (message : String)
  | integrity (message : String)
  | leaseConflict (message : String)
  | leaseLost (message : String)
  | offsetConflict (message : String)
  | receiptConflict (message : String)
  /-- `sqlite3.OperationalError`. -/
  | sqlite (message : String)
  /-- Whatever the handler raised. -/
  | handler (exception : String)
  deriving DecidableEq

def maxProjectionIdentifierLength : Nat := 255
def maxProjectionLeaseSeconds : Nat := 86400
def maxTimestampLength : Nat := 32
def maxSqliteInteger : Int := 9223372036854775807

/-- `_validate_name`. -/
def validateName (value field : String) : Except OffsetError String :=
  if value = "" ∨ value ≠ strip value then
    .error (.valueError (field ++ " must be non-empty text without edge whitespace"))
  else if maxProjectionIdentifierLength < value.length then
    .error (.valueError (field ++ " exceeds " ++ toString maxProjectionIdentifierLength ++
      " characters"))
  else .ok value

/-- `_validate_position`. -/
def validatePosition (value : Int) (field : String) : Except OffsetError Int :=
  if 0 ≤ value ∧ value ≤ maxSqliteInteger then .ok value
  else .error (.valueError (field ++ " must be a non-negative 64-bit SQLite integer"))

/-- A duration as a caller may pass it. -/
inductive LeaseSeconds where
  | int (n : Int)
  | float (x : Rat)
  /-- A float that is not finite. -/
  | nonFinite
  /-- An object of another type. -/
  | other

/-- `_validate_lease_seconds`. -/
def validateLeaseSeconds : LeaseSeconds → Except OffsetError Rat
  | .int n => if 0 < n ∧ n ≤ maxProjectionLeaseSeconds then .ok n else .error refused
  | .float x => if 0 < x ∧ x ≤ maxProjectionLeaseSeconds then .ok x else .error refused
  | .nonFinite => .error refused
  | .other => .error refused
where
  refused : OffsetError := .valueError
    ("lease_seconds must be an exact finite int or float greater than zero and at most " ++
      toString maxProjectionLeaseSeconds)

/-! ## Time -/

/-- An exception of a timestamp check. -/
def ofTimestampError (e : StoreError) : OffsetError :=
  match e.kind with
  | .overflowError => .overflowError e.message
  | _ => .valueError e.message

/-- `_normalize_timestamp`. -/
def normalizeAs (py : PyVersion) (value field : String) : Except OffsetError String :=
  (normalizeTimestamp py value field).mapError ofTimestampError

/-- `_now`. -/
def readClock (py : PyVersion) (clock : String) : Except OffsetError String :=
  normalizeAs py clock "clock"

/-- `_is_after`, on texts `_normalize_timestamp` returned. -/
def isAfter (py : PyVersion) (left right : String) : Bool :=
  match timestampMoment py left "left", timestampMoment py right "right" with
  | .ok l, .ok r => r < l
  | _, _ => false

/-- The length of a lease in microseconds: a duration that rounds to nothing
lasts for one. -/
def leaseMicros (seconds : Rat) : Nat := max 1 (Publisher.timedeltaMicros seconds)

/-- `_lease_deadline`. -/
def leaseDeadline (py : PyVersion) (now : String) (leaseSeconds : LeaseSeconds) :
    Except OffsetError String := do
  let seconds ← validateLeaseSeconds leaseSeconds
  let parsed ← (timestampMoment py now "now").mapError ofTimestampError
  if InRange (parsed + leaseMicros seconds) then .ok (momentText (parsed + leaseMicros seconds))
  else .error (.valueError "lease deadline exceeds the supported datetime range")

/-! ## Leases, rows and events -/

/-- `ProjectionLease`: what a caller presents. -/
structure ProjectionLease where
  projectionName : String
  ownerId : String
  ownerEpoch : Int
  leaseExpiresAt : String
  deriving DecidableEq

/-- A row of `projection_offsets`, and the `ProjectionOffset` read from it. -/
structure OffsetRow where
  projectionName : String
  lastGlobalPosition : Int
  ownerId : String
  ownerEpoch : Int
  leaseExpiresAt : String
  updatedAt : String
  deriving DecidableEq

/-- A row of `projection_receipts`. -/
structure ReceiptRow where
  projectionName : String
  eventId : String
  globalPosition : Int
  appliedAt : String
  deriving DecidableEq

/-- What `apply_event` reads of an `UpcastedEvent`. -/
structure EventRef where
  globalPosition : Int
  eventId : String
  deriving DecidableEq

/-- `ProjectionApplyResult`. -/
structure ApplyResult where
  applied : Bool
  offset : OffsetRow
  deriving DecidableEq

/-- `_validate_lease`. -/
def validateLease (py : PyVersion) (lease : ProjectionLease) : Except OffsetError ProjectionLease := do
  let _ ← validateName lease.projectionName "lease projection_name"
  let _ ← validateName lease.ownerId "lease owner_id"
  if ¬(1 ≤ lease.ownerEpoch ∧ lease.ownerEpoch ≤ maxSqliteInteger) then
    .error (.valueError "lease owner_epoch must be a positive 64-bit SQLite integer")
  else do
    let deadline ← normalizeAs py lease.leaseExpiresAt "lease lease_expires_at"
    if deadline ≠ lease.leaseExpiresAt then
      .error (.valueError "lease lease_expires_at must be canonical UTC")
    else .ok lease

/-- `_persisted_text`. -/
def persistedText (value field : String) (maximum : Nat) : Except OffsetError String :=
  if value = "" ∨ value ≠ strip value then
    .error (.integrity ("persisted " ++ field ++ " must be non-empty without edge whitespace"))
  else if maximum < value.length then
    .error (.integrity ("persisted " ++ field ++ " exceeds " ++ toString maximum ++ " characters"))
  else .ok value

/-- `_persisted_identifier`. -/
def persistedIdentifier (value field : String) : Except OffsetError String :=
  persistedText value field maxProjectionIdentifierLength

/-- `_persisted_integer`. -/
def persistedInteger (value : Int) (field : String) (minimum : Int) : Except OffsetError Int :=
  if minimum ≤ value ∧ value ≤ maxSqliteInteger then .ok value
  else .error (.integrity ("persisted " ++ field ++ " must be between " ++ toString minimum ++
    " and " ++ toString maxSqliteInteger))

/-- `_persisted_timestamp`. -/
def persistedTimestamp (py : PyVersion) (value field : String) : Except OffsetError String := do
  let timestamp ← persistedText value field maxTimestampLength
  match normalizeAs py timestamp field with
  | .error (.valueError _) =>
    .error (.integrity ("persisted " ++ field ++ " must be a valid canonical UTC timestamp"))
  | .error e => .error e
  | .ok normalized =>
    if timestamp ≠ normalized then
      .error (.integrity ("persisted " ++ field ++ " must be a canonical UTC timestamp"))
    else .ok timestamp

/-- `_row_to_offset`. -/
def rowToOffset (py : PyVersion) (row : OffsetRow) : Except OffsetError OffsetRow := do
  let projectionName ← persistedIdentifier row.projectionName "projection_name"
  let lastGlobalPosition ← persistedInteger row.lastGlobalPosition "last_global_position" 0
  let ownerId ← persistedIdentifier row.ownerId "owner_id"
  let ownerEpoch ← persistedInteger row.ownerEpoch "owner_epoch" 1
  let leaseExpiresAt ← persistedTimestamp py row.leaseExpiresAt "lease_expires_at"
  let updatedAt ← persistedTimestamp py row.updatedAt "updated_at"
  .ok { projectionName, lastGlobalPosition, ownerId, ownerEpoch, leaseExpiresAt, updatedAt }

/-- `_row_to_receipt`. -/
def rowToReceipt (py : PyVersion) (row : ReceiptRow) : Except OffsetError ReceiptRow := do
  let projectionName ← persistedIdentifier row.projectionName "receipt projection_name"
  let eventId ← persistedIdentifier row.eventId "receipt event_id"
  let globalPosition ← persistedInteger row.globalPosition "receipt global_position" 1
  let appliedAt ← persistedTimestamp py row.appliedAt "receipt applied_at"
  .ok { projectionName, eventId, globalPosition, appliedAt }

/-- `_offset_for_projection`. -/
def offsetForProjection (py : PyVersion) (row : OffsetRow) (projectionName : String) :
    Except OffsetError OffsetRow := do
  let offset ← rowToOffset py row
  if offset.projectionName ≠ projectionName then
    .error (.integrity "persisted projection offset identity contradicts its lookup")
  else .ok offset

/-- The fence `renew`, `advance`, `apply_event` and `release` share: the row of
the lease's projection, under its owner and epoch, with an expiry to come. -/
def liveOffset (py : PyVersion) (lease : ProjectionLease) (now : String) :
    Option OffsetRow → Except OffsetError OffsetRow
  | none => .error (.leaseLost "projection lease does not exist")
  | some row => do
    let offset ← offsetForProjection py row lease.projectionName
    if offset.ownerId ≠ lease.ownerId ∨ offset.ownerEpoch ≠ lease.ownerEpoch ∨
        isAfter py offset.leaseExpiresAt now = false then
      .error (.leaseLost "projection lease is stale or expired")
    else .ok offset

/-! ## The database -/

/-- The two projection tables, and the read model of type `R`. -/
structure ProjectionDb (R : Type) where
  offsets : List OffsetRow
  receipts : List ReceiptRow
  tables : R

variable {R : Type}

/-- The row of a projection, by its primary key. -/
def findOffset (projectionName : String) (db : ProjectionDb R) : Option OffsetRow :=
  db.offsets.find? (fun row => row.projectionName == projectionName)

/-- The receipt of an event, by the primary key of `projection_receipts`. -/
def findReceipt (projectionName eventId : String) (db : ProjectionDb R) : Option ReceiptRow :=
  db.receipts.find? (fun row => row.projectionName == projectionName && row.eventId == eventId)

/-- The row a compare-and-swap names: the projection under an owner and epoch. -/
def ownedBy (lease : ProjectionLease) (row : OffsetRow) : Bool :=
  row.projectionName == lease.projectionName && row.ownerId == lease.ownerId &&
    row.ownerEpoch == lease.ownerEpoch

abbrev OffsetTxn (R α : Type) := Txn (ProjectionDb R) OffsetError α

/-- An UPDATE of `projection_offsets` that returns its row count. -/
def updateOffsets (p : OffsetRow → Bool) (f : OffsetRow → OffsetRow) (db : ProjectionDb R) :
    ProjectionDb R :=
  { db with offsets := updateWhere p f db.offsets }

/-- `claim`. -/
def claim (py : PyVersion) (projectionName ownerId : String) (leaseSeconds : LeaseSeconds)
    (clock : String) : OffsetTxn R ProjectionLease := do
  let projectionName ← Txn.lift (validateName projectionName "projection_name")
  let ownerId ← Txn.lift (validateName ownerId "owner_id")
  let seconds ← Txn.lift (validateLeaseSeconds leaseSeconds)
  Txn.atomically do
    let now ← Txn.lift (readClock py clock)
    let deadline ← Txn.lift (leaseDeadline py now (.float seconds))
    match ← Txn.query (findOffset projectionName) with
    | none =>
      Txn.update (fun db => { db with
        offsets := db.offsets ++ [⟨projectionName, 0, ownerId, 1, deadline, now⟩] })
      pure ⟨projectionName, ownerId, 1, deadline⟩
    | some row =>
      let offset ← Txn.lift (offsetForProjection py row projectionName)
      Txn.ensure (¬(isAfter py offset.leaseExpiresAt now = true ∧ offset.ownerId ≠ ownerId))
        (.leaseConflict ("projection " ++ projectionName ++ " is leased by another owner"))
      Txn.ensure (offset.ownerEpoch < maxSqliteInteger)
        (.offset "projection owner epoch is exhausted")
      Txn.update (updateOffsets (fun row => row.projectionName == projectionName) (fun row =>
        { row with
          ownerId := ownerId
          ownerEpoch := offset.ownerEpoch + 1
          leaseExpiresAt := deadline
          updatedAt := now }))
      pure ⟨projectionName, ownerId, offset.ownerEpoch + 1, deadline⟩

/-- The UPDATE of `renew` and `release`, with its row count. -/
def moveExpiry (lease : ProjectionLease) (persisted expiry now : String) : OffsetTxn R Unit := do
  let rows ← Txn.query (fun db =>
    db.offsets.countP (fun row => ownedBy lease row && row.leaseExpiresAt == persisted))
  Txn.update (updateOffsets (fun row => ownedBy lease row && row.leaseExpiresAt == persisted)
    (fun row => { row with leaseExpiresAt := expiry, updatedAt := now }))
  Txn.ensure (rows = 1) (.leaseLost "projection lease is stale or expired")

/-- `renew`. -/
def renew (py : PyVersion) (lease : ProjectionLease) (leaseSeconds : LeaseSeconds)
    (clock : String) : OffsetTxn R ProjectionLease := do
  let seconds ← Txn.lift (validateLeaseSeconds leaseSeconds)
  let lease ← Txn.lift (validateLease py lease)
  Txn.atomically do
    let now ← Txn.lift (readClock py clock)
    let deadline ← Txn.lift (leaseDeadline py now (.float seconds))
    let row ← Txn.query (findOffset lease.projectionName)
    let offset ← Txn.lift (liveOffset py lease now row)
    moveExpiry lease offset.leaseExpiresAt deadline now
    pure { lease with leaseExpiresAt := deadline }

/-- `release`. -/
def release (py : PyVersion) (lease : ProjectionLease) (clock : String) : OffsetTxn R Unit := do
  let lease ← Txn.lift (validateLease py lease)
  Txn.atomically do
    let now ← Txn.lift (readClock py clock)
    let row ← Txn.query (findOffset lease.projectionName)
    let offset ← Txn.lift (liveOffset py lease now row)
    moveExpiry lease offset.leaseExpiresAt now now

/-- The row the checkpoint's compare-and-swap names. -/
def checkpointAt (lease : ProjectionLease) (expected : Int) (row : OffsetRow) : Bool :=
  ownedBy lease row && row.lastGlobalPosition == expected

/-- What moving a checkpoint writes into the row. -/
def OffsetRow.movedTo (row : OffsetRow) (position : Int) (now : String) : OffsetRow :=
  { row with lastGlobalPosition := position, updatedAt := now }

/-- `advance`. -/
def advance (py : PyVersion) (lease : ProjectionLease) (expectedPosition newPosition : Int)
    (clock : String) : OffsetTxn R OffsetRow := do
  let lease ← Txn.lift (validateLease py lease)
  let expected ← Txn.lift (validatePosition expectedPosition "expected_position")
  let position ← Txn.lift (validatePosition newPosition "new_position")
  Txn.ensure (expected < position) (.valueError "new_position must be greater than expected_position")
  Txn.atomically do
    let now ← Txn.lift (readClock py clock)
    let row ← Txn.query (findOffset lease.projectionName)
    let offset ← Txn.lift (liveOffset py lease now row)
    Txn.ensure (offset.lastGlobalPosition = expected)
      (.offsetConflict "projection offset compare-and-swap conflict")
    Txn.update (updateOffsets (checkpointAt lease expected) (·.movedTo position now))
    match ← Txn.query (findOffset lease.projectionName) with
    | none => Txn.raise (.offset "projection offset disappeared")
    | some updated => Txn.lift (offsetForProjection py updated lease.projectionName)

/-! ## A handler inside a transaction -/

/-- How one SQL statement of a handler ends. -/
inductive Outcome (R : Type) where
  /-- It ran. -/
  | done (tables : R)
  /-- It failed, leaving these tables: the ones it found, or under the conflict
  clause FAIL what it had changed by then. -/
  | failed (tables : R)
  /-- It failed under the conflict clause ROLLBACK. -/
  | rolledBack

/-- A handler: the statements it executes one after another, each chosen from
whether the last one failed and from the tables it then sees, up to its return
or to an exception. -/
inductive Handler (R : Type) where
  | returns
  | raises (exception : String)
  | executes (statement : R → Outcome R) (next : Bool → R → Handler R)

/-- A connection while an operation runs: the committed database, the database
it sees, and whether its transaction is open. -/
structure Session (R : Type) where
  committed : ProjectionDb R
  current : ProjectionDb R
  isOpen : Bool

/-- A write of one statement: it is part of the open transaction, or committed
by itself when there is none. -/
def Session.write (s : Session R) (db : ProjectionDb R) : Session R :=
  { s with current := db, committed := if s.isOpen then s.committed else db }

/-- The end of an open transaction without its writes. -/
def Session.rollback (s : Session R) : Session R :=
  { s with current := s.committed, isOpen := false }

/-- One statement of a handler: whether it failed, and the connection after it. -/
def Session.execute (s : Session R) (statement : R → Outcome R) : Bool × Session R :=
  match statement s.current.tables with
  | .done tables => (false, s.write { s.current with tables })
  | .failed tables => (true, s.write { s.current with tables })
  | .rolledBack => (true, s.rollback)

abbrev SessionTxn (R α : Type) := Txn (Session R) OffsetError α

/-- A SELECT of the framework. -/
def look {α : Type} (f : ProjectionDb R → α) : SessionTxn R α := Txn.query (fun s => f s.current)

/-- An INSERT or UPDATE of the framework. -/
def write (f : ProjectionDb R → ProjectionDb R) : SessionTxn R Unit :=
  Txn.update (fun s => s.write (f s.current))

/-- `handler(transaction, event)`. -/
def runHandler : Handler R → SessionTxn R Unit
  | .returns => pure ()
  | .raises exception => Txn.raise (.handler exception)
  | .executes statement next => fun s =>
    let (failed, s') := s.execute statement
    runHandler (next failed s'.current.tables) s'

/-- `_transaction` around a body that may lose its transaction: COMMIT needs
one that is open, and after an exception what was committed stays. -/
def inTransaction {α : Type} (body : SessionTxn R α) : OffsetTxn R α := fun db =>
  match body ⟨db, db, true⟩ with
  | (.error e, s) => (.error e, s.committed)
  | (.ok a, s) =>
    if s.isOpen then (.ok a, s.current)
    else (.error (.sqlite "cannot commit - no transaction is active"), s.committed)

/-- A receipt the primary key or the position index refuses. -/
def receiptTaken (receipt : ReceiptRow) (db : ProjectionDb R) : Bool :=
  db.receipts.any (fun row => row.projectionName == receipt.projectionName &&
    (row.eventId == receipt.eventId || row.globalPosition == receipt.globalPosition))

/-- The part of `apply_event` that presents an event without a receipt. -/
def applyFresh (py : PyVersion) (lease : ProjectionLease) (expected : Int) (event : EventRef)
    (handler : Handler R) (now : String) (offset : OffsetRow) : SessionTxn R ApplyResult := do
  Txn.ensure (offset.lastGlobalPosition = expected)
    (.offsetConflict "projection offset compare-and-swap conflict")
  Txn.ensure (expected < event.globalPosition)
    (.offsetConflict "unreceipted event does not advance the projection offset")
  runHandler handler
  let receipt : ReceiptRow := ⟨lease.projectionName, event.eventId, event.globalPosition, now⟩
  let taken ← look (receiptTaken receipt)
  Txn.ensure (taken = false) (.receiptConflict
    "event id or global position has a conflicting projection receipt")
  write (fun db => { db with receipts := db.receipts ++ [receipt] })
  let rows ← look (fun db => db.offsets.countP (checkpointAt lease expected))
  write (updateOffsets (checkpointAt lease expected) (·.movedTo event.globalPosition now))
  Txn.ensure (rows = 1) (.offsetConflict "projection offset compare-and-swap conflict")
  match ← look (findOffset lease.projectionName) with
  | none => Txn.raise (.offset "projection offset disappeared")
  | some updated => do
    let offset ← Txn.lift (offsetForProjection py updated lease.projectionName)
    pure ⟨true, offset⟩

/-- The part of `apply_event` that finds the event's receipt. -/
def applyReceipted (py : PyVersion) (lease : ProjectionLease) (event : EventRef)
    (offset : OffsetRow) (receipt : ReceiptRow) : Except OffsetError ApplyResult := do
  let decoded ← rowToReceipt py receipt
  if decoded.projectionName ≠ lease.projectionName ∨ decoded.eventId ≠ event.eventId then
    .error (.integrity "persisted projection receipt identity contradicts its lookup")
  else if decoded.globalPosition ≠ event.globalPosition ∨
      offset.lastGlobalPosition < event.globalPosition then
    .error (.receiptConflict "projection receipt contradicts the event log or checkpoint")
  else .ok ⟨false, offset⟩

/-- The part of `apply_event` behind the fence. -/
def applyLocked (py : PyVersion) (lease : ProjectionLease) (expected : Int) (event : EventRef)
    (handler : Handler R) (now : String) (offset : OffsetRow) : SessionTxn R ApplyResult := do
  match ← look (findReceipt lease.projectionName event.eventId) with
  | some receipt => Txn.lift (applyReceipted py lease event offset receipt)
  | none => applyFresh py lease expected event handler now offset

/-- `apply_event`. -/
def applyEvent (py : PyVersion) (lease : ProjectionLease) (expectedPosition : Int)
    (event : EventRef) (handler : Handler R) (clock : String) : OffsetTxn R ApplyResult := do
  let lease ← Txn.lift (validateLease py lease)
  let expected ← Txn.lift (validatePosition expectedPosition "expected_position")
  Txn.ensure (1 ≤ event.globalPosition ∧ event.globalPosition ≤ maxSqliteInteger)
    (.valueError "event global_position must be a positive 64-bit SQLite integer")
  let _ ← Txn.lift (validateName event.eventId "event_id")
  inTransaction do
    let now ← Txn.lift (readClock py clock)
    let row ← look (findOffset lease.projectionName)
    let offset ← Txn.lift (liveOffset py lease now row)
    applyLocked py lease expected event handler now offset

end QuantumEntanglement.ProjectionOffsets
