import QuantumEntanglement.Artifacts.Codec
import QuantumEntanglement.Lib.PositionedLog
import QuantumEntanglement.Store.LogInvariant

/-
  The artifact ledger — versions kept live beside an append-only log

  A ledger instance holds the versions of every (session, name), what they
  cost, and the position of the log up to which it has read. `rebuild` reads
  the log from the beginning, one row at a time; `record` appends one event
  under the condition that nothing was added beyond the position it has read,
  and on a conflict rebuilds and tries again.

  An instance shares its store with other writers and its connection may
  fail. Both are a `World`: before each access to the store the log may grow
  by what others append, and the access may raise before or after it took
  effect. The identifiers and clock readings `new_id` and `utc_now` return
  are drawn from the world too.

  Correspondence (Python ↔ Lean):
    `_ArtifactLedgerState`                             ↔ `LedgerState`
    `ArtifactLedger.__init__`                          ↔ `newLedger`
  The pages of 1000 rows a rebuild reads in are left out: a page reads its
  rows one SELECT at a time and the next page goes on where it ended.
-/

namespace QuantumEntanglement.Artifacts

open Transaction PyJson PyText IsoTime

/-- The limits a replay keeps to, module constants of the source. -/
structure ReplayLimits where
  maxReplayEvents : Nat
  maxReplayArtifactVersions : Nat
  maxReplayContentBytes : Nat
  maxReplayMetadataBytes : Nat
  maxReplayMetadataNodes : Nat
  maxReplayStateDataBytes : Nat

/-- Their values in the source. -/
def defaultLimits : ReplayLimits :=
  { maxReplayEvents := 1000000
    maxReplayArtifactVersions := 100000
    maxReplayContentBytes := 256 * 1024 * 1024
    maxReplayMetadataBytes := 64 * 1024 * 1024
    maxReplayMetadataNodes := 1000000
    maxReplayStateDataBytes := 384 * 1024 * 1024 }

def maxRecordAdmissionAttempts : Nat := 8

/-- The configuration of the store, and the limits of the ledgers over it. -/
structure LedgerConfig extends StoreConfig where
  limits : ReplayLimits

instance : Coe LedgerConfig StoreConfig := ⟨LedgerConfig.toStoreConfig⟩

/-- `EVENT_TYPE`. -/
def artifactEventType : String := "artifact.versioned"

def recordError {α : Type} (message : String) : Except StoreError α :=
  .error ⟨.artifactRecord, message⟩

/-! ## The state of a ledger -/

structure LedgerUsage where
  artifactVersions : Nat
  contentBytes : Nat
  metadataBytes : Nat
  metadataNodes : Nat
  stateDataBytes : Nat
  deriving DecidableEq

def LedgerUsage.include (u : LedgerUsage) (d : DecodedArtifactVersion) : LedgerUsage :=
  { artifactVersions := u.artifactVersions + 1
    contentBytes := u.contentBytes + d.contentBytes
    metadataBytes := u.metadataBytes + d.metadataBytes
    metadataNodes := u.metadataNodes + d.metadataNodes
    stateDataBytes := u.stateDataBytes + d.stateDataBytes }

/-- A total against its limit. -/
def withinReplayLimit (actual maximum : Nat) (label : String) : Except StoreError Unit :=
  if maximum < actual then
    replayError ("artifact replay exceeds the " ++ toString maximum ++ " " ++ label ++
      " safety limit")
  else .ok ()

def validateReplayUsage (limits : ReplayLimits) (u : LedgerUsage) : Except StoreError Unit := do
  let _ ← withinReplayLimit u.artifactVersions limits.maxReplayArtifactVersions
    "artifact-version count"
  let _ ← withinReplayLimit u.contentBytes limits.maxReplayContentBytes "content-byte count"
  let _ ← withinReplayLimit u.metadataBytes limits.maxReplayMetadataBytes "metadata-byte count"
  let _ ← withinReplayLimit u.metadataNodes limits.maxReplayMetadataNodes "metadata-node count"
  withinReplayLimit u.stateDataBytes limits.maxReplayStateDataBytes "state-data byte count"

/-- The key of a history: session and name. -/
abbrev ArtifactKey : Type := String × String

/-- The histories, in the order their keys were first seen. -/
abbrev Histories : Type := List (ArtifactKey × List ArtifactVersion)

/-- `versions.get(key, ())`. -/
def historyOf (key : ArtifactKey) : Histories → List ArtifactVersion
  | [] => []
  | (k, h) :: rest => if k = key then h else historyOf key rest

/-- `versions[key] = history`. -/
def setHistory (key : ArtifactKey) (history : List ArtifactVersion) : Histories → Histories
  | [] => [(key, history)]
  | (k, h) :: rest => if k = key then (key, history) :: rest else (k, h) :: setHistory key history rest

structure LedgerState where
  versions : Histories
  usage : LedgerUsage
  replayPosition : Nat
  deriving DecidableEq

namespace LedgerState

def empty : LedgerState := ⟨[], ⟨0, 0, 0, 0, 0⟩, 0⟩

def history (l : LedgerState) (key : ArtifactKey) : List ArtifactVersion := historyOf key l.versions

/-- The version `current` reports. -/
def current (l : LedgerState) (key : ArtifactKey) : Option ArtifactVersion :=
  (l.history key).getLast?

/-- `candidate_artifact_ids`: the identifiers of every version held. -/
def artifactIds (l : LedgerState) : List String :=
  l.versions.flatMap (fun p => p.2.map (·.ref.artifactId))

/-- The state with one more version, read at a position. -/
def extend (l : LedgerState) (d : DecodedArtifactVersion) (position : Nat) : LedgerState :=
  { versions := setHistory d.key (l.history d.key ++ [d.item]) l.versions
    usage := l.usage.include d
    replayPosition := position }

end LedgerState

/-- `_validate_replay_position`. -/
def validateReplayPosition (stored : StoredEvent) (afterPosition : Nat) : Except StoreError Nat :=
  if stored.globalPosition ≤ afterPosition then
    replayError "artifact replay global positions are not strictly increasing"
  else .ok stored.globalPosition

/-- What a replay does with one event it read. -/
def replayStep (cfg : LedgerConfig) (l : LedgerState) (stored : StoredEvent) :
    Except StoreError LedgerState := do
  let position ← validateReplayPosition stored l.replayPosition
  if stored.event.eventType ≠ artifactEventType then .ok { l with replayPosition := position }
  else do
    let decoded ← decodePersistedVersion cfg.py stored.event.payload
    if decoded.item.ref.version ≠ (l.history decoded.key).length + 1 then
      replayError "artifact replay version chain must start at version 1 and increase by one"
    else if decoded.item.ref.artifactId ∈ l.artifactIds then
      replayError "artifact replay contains a duplicate artifact id"
    else do
      let _ ← validateReplayUsage cfg.limits (l.usage.include decoded)
      .ok (l.extend decoded position)

/-! ## The world of an instance -/

/-- How an access to the store goes wrong: before it did anything, or after it
took effect, its acknowledgement lost. -/
inductive Fault where
  | none
  | before (e : StoreError)
  | after (e : StoreError)
  deriving DecidableEq

/-- What one attempt to record draws. -/
structure Draw where
  artifactHex : String
  eventHex : String
  createdAt : UtcMoment
  timestamp : UtcMoment

/-- `new_id("art")`. -/
def Draw.artifactId (d : Draw) : String := "art_" ++ d.artifactHex

/-- `new_id("evt")`. -/
def Draw.eventId (d : Draw) : String := "evt_" ++ d.eventHex

/-- The version a row holds, if it holds one. -/
def rowArtifact (cfg : LedgerConfig) (row : EventRow) : Option DecodedArtifactVersion :=
  match rowToEvent cfg row with
  | .error _ => none
  | .ok stored =>
    if stored.event.eventType ≠ artifactEventType then none
    else (decodePersistedVersion cfg.py stored.event.payload).toOption

/-- What surrounds an instance: the other writers, the failures of its
connection and the identifiers it draws. `mine` are the event identifiers it
ever draws; nobody else writes one, and a drawn identifier is not in use. -/
structure World (cfg : LedgerConfig) where
  /-- The log, grown by the others, before the access at a tick. -/
  before : Nat → Db → Db
  fault : Nat → Fault
  draw : Nat → Db → Draw
  mine : String → Prop
  grows : ∀ n db, LogGrows cfg db.events (before n db).events
  foreign : ∀ n db, ∀ row ∈ (before n db).events, row ∈ db.events ∨ ¬mine row.eventId
  drawnMine : ∀ n db, mine (draw n db).eventId
  freshEvent : ∀ n db, ∀ row ∈ db.events, row.eventId ≠ (draw n db).eventId
  freshArtifact : ∀ n db, ∀ row ∈ db.events, ∀ d, rowArtifact cfg row = some d →
    d.item.ref.artifactId ≠ (draw n db).artifactId

/-- An instance beside its store, and the accesses it has made. -/
structure Machine where
  db : Db
  ledger : LedgerState
  tick : Nat
  deriving DecidableEq

abbrev LedgerTxn (α : Type) : Type := Txn Machine StoreError α

variable {cfg : LedgerConfig}

/-- One access to the store. -/
def access {α : Type} (w : World cfg) (m : DbTxn α) : LedgerTxn α := fun s =>
  let db := w.before s.tick s.db
  match w.fault s.tick with
  | .none => ((m db).1, ⟨(m db).2, s.ledger, s.tick + 1⟩)
  | .before e => (.error e, ⟨db, s.ledger, s.tick + 1⟩)
  | .after e =>
    match m db with
    | (.ok _, db') => (.error e, ⟨db', s.ledger, s.tick + 1⟩)
    | (.error e', db') => (.error e', ⟨db', s.ledger, s.tick + 1⟩)

/-! ## Replay -/

/-- `SELECT * FROM events WHERE global_position > ? ORDER BY global_position
LIMIT 1`, read. -/
def nextEvent (cfg : LedgerConfig) (after : Nat) : DbTxn (Option StoredEvent) := do
  let rows ← Txn.query (fun db =>
    orderBy (·.globalPosition) (db.events.filter (fun r => after < r.globalPosition)))
  match rows.head? with
  | none => pure none
  | some row =>
    let stored ← Txn.lift (rowToEvent cfg row)
    pure (some stored)

/-- The error of a log longer than a replay reads. -/
def tooManyEvents (limits : ReplayLimits) : StoreError :=
  ⟨.artifactReplay, "artifact replay exceeds the " ++ toString limits.maxReplayEvents ++
    "-event safety limit"⟩

/-- Read at most `n` more events; with none left to read, look whether the log
goes on. -/
def replayFrom (w : World cfg) : Nat → LedgerState → LedgerTxn LedgerState
  | 0, l => do
    match ← access w (nextEvent cfg l.replayPosition) with
    | none => pure l
    | some stored =>
      let _ ← Txn.lift (validateReplayPosition stored l.replayPosition)
      Txn.raise (tooManyEvents cfg.limits)
  | n + 1, l => do
    match ← access w (nextEvent cfg l.replayPosition) with
    | none => pure l
    | some stored =>
      let l' ← Txn.lift (replayStep cfg l stored)
      replayFrom w n l'

/-- `_rebuild_under_lock`. -/
def rebuild (w : World cfg) : LedgerTxn Unit := do
  let ledger ← replayFrom w cfg.limits.maxReplayEvents .empty
  Txn.update (fun s => ⟨s.db, ledger, s.tick⟩)

/-- `ArtifactLedger(event_store)`. -/
def newLedger (w : World cfg) (db : Db) (tick : Nat) : Except StoreError Unit × Machine :=
  rebuild w ⟨db, .empty, tick⟩

/-! ## Recording -/

/-- `protocol.ArtifactOutput`. -/
structure ArtifactOutput where
  name : String
  content : String
  mediaType : String
  metadata : Value
  named : isBlank name = false

/-- The arguments of `record`. -/
structure RecordCall where
  sessionId : String
  taskId : String
  agentId : String
  output : ArtifactOutput
  correlationId : Option String
  causationId : Option String
  trigger : Option String

structure ArtifactRecordRequest where
  sessionId : String
  taskId : String
  agentId : String
  name : String
  content : String
  mediaType : String
  metadata : Value
  correlationId : Option String
  causationId : Option String
  trigger : Option String

/-- A text that may be left out. -/
def requireOptionalText (value : Option String) (field : String) :
    Except StoreError (Option String) :=
  match value with
  | none => .ok none
  | some text => (requireText (.str text) field maxIdentifierLength).map some

/-- The captured arguments, before their errors are made one. -/
def captureFields (call : RecordCall) : Except StoreError ArtifactRecordRequest := do
  let sessionId ← requireText (.str call.sessionId) "sessionId" maxIdentifierLength
  let taskId ← requireText (.str call.taskId) "taskId" maxIdentifierLength
  let agentId ← requireText (.str call.agentId) "agentId" maxIdentifierLength
  let correlationId ← requireOptionalText call.correlationId "correlationId"
  let causationId ← requireOptionalText call.causationId "causationId"
  let name ← requireText (.str call.output.name) "output.name" maxIdentifierLength
  let content ← requireContent (.str call.output.content)
  let mediaType ← requireText (.str call.output.mediaType) "output.mediaType" maxMediaTypeLength
  let metadata ← decodeMetadata call.output.metadata
  let trigger ← requireOptionalText call.trigger "trigger"
  .ok ⟨sessionId, taskId, agentId, name, content, mediaType, metadata.value, correlationId,
    causationId, trigger⟩

/-- An error of any class as an `ArtifactRecordError` with one text. -/
def asRecordError {α : Type} (message : String) (r : Except StoreError α) : Except StoreError α :=
  match r with
  | .ok a => .ok a
  | .error _ => recordError message

def captureRequest (call : RecordCall) : Except StoreError ArtifactRecordRequest :=
  asRecordError "artifact record input violates its contract" (captureFields call)

namespace ArtifactRecordRequest

variable (r : ArtifactRecordRequest)

def key : ArtifactKey := (r.sessionId, r.name)

def streamId : String := "session:" ++ r.sessionId

def idempotencyKey : String :=
  "artifact:" ++ r.taskId ++ ":" ++ r.name ++ ":" ++ artifactDigest r.content

/-- The trigger of a version, which the request may leave to the version. -/
def triggerAt (version : Nat) : String :=
  r.trigger.getD (if version = 1 then "create" else "revise")

/-- The version the request becomes after a history. -/
def version (history : List ArtifactVersion) (draw : Draw) : ArtifactVersion :=
  let n := history.length + 1
  { ref :=
      { artifactId := draw.artifactId
        name := r.name
        version := n
        mediaType := r.mediaType
        uri := artifactUri r.sessionId r.name n
        digest := artifactDigest r.content
        createdBy := r.agentId
        taskId := r.taskId
        parentVersion := parentOf n }
    content := r.content
    metadata := r.metadata
    createdAt := utcNow draw.createdAt
    trigger := r.triggerAt n }

/-- The validated version: checked as a replay will check it. -/
def decoded (py : PyVersion) (history : List ArtifactVersion) (draw : Draw) :
    Except StoreError DecodedArtifactVersion :=
  asRecordError "artifact record input violates its contract" do
    let _ ← requireCanonicalUtc py (.str (utcNow draw.createdAt)) "createdAt"
    let decoded ← decodePersistedVersion py (versionPayload r.sessionId (r.version history draw))
    if decoded.key ≠ r.key then
      .error ⟨.runtimeError, "artifact record key changed during validation"⟩
    else .ok decoded

/-- The event of a version. -/
def event (history : List ArtifactVersion) (draw : Draw) : Except StoreError DomainEvent :=
  DomainEvent.make r.streamId artifactEventType
    (versionPayload r.sessionId (r.version history draw)) r.agentId draw.eventId
    (utcNow draw.timestamp) r.correlationId r.causationId (some r.idempotencyKey)

/-- Whether a stored version is the one this request asked for. -/
def matchesStored (stored : DomainEvent) (existing : ArtifactVersion) : Bool :=
  stored.actorId == r.agentId && stored.correlationId == r.correlationId &&
    stored.causationId == r.causationId && existing.ref.taskId == r.taskId &&
    existing.ref.createdBy == r.agentId && existing.ref.name == r.name &&
    existing.ref.mediaType == r.mediaType && existing.content == r.content &&
    canonicalMetadata existing.metadata == canonicalMetadata r.metadata &&
    existing.trigger == r.triggerAt existing.ref.version

end ArtifactRecordRequest

/-- The version of a history with an identifier. -/
def findArtifact (history : List ArtifactVersion) (artifactId : String) : Option ArtifactVersion :=
  history.find? (fun v => v.ref.artifactId == artifactId)

/-- `_resolve_idempotent_version`. -/
def resolveIdempotentVersion (w : World cfg) (history : List ArtifactVersion) (stored : StoredEvent)
    (request : ArtifactRecordRequest) : LedgerTxn ArtifactVersion := do
  Txn.ensure (stored.event.eventType = artifactEventType)
    ⟨.artifactReplay, "idempotent artifact key belongs to another event type"⟩
  let existing ← Txn.lift (decodePersistedVersion cfg.py stored.event.payload)
  Txn.ensure (existing.key = request.key)
    ⟨.artifactReplay, "idempotent artifact event does not match the requested key"⟩
  Txn.ensure (request.matchesStored stored.event existing.item)
    ⟨.artifactRecord, "idempotent artifact retry changed its request"⟩
  match findArtifact history existing.item.ref.artifactId with
  | some found => pure found
  | none =>
    rebuild w
    let rebuilt ← Txn.query (fun s : Machine => s.ledger.history request.key)
    match findArtifact rebuilt existing.item.ref.artifactId with
    | some found => pure found
    | none => Txn.raise ⟨.artifactReplay, "idempotent artifact event is missing after replay"⟩

/-- `stored.event.to_dict() == event.to_dict()`. -/
def sameEvent (a b : DomainEvent) : Bool :=
  a.eventId == b.eventId && a.streamId == b.streamId && a.eventType == b.eventType &&
    pyEq a.payload b.payload && a.actorId == b.actorId && a.timestamp == b.timestamp &&
    a.correlationId == b.correlationId && a.causationId == b.causationId &&
    a.idempotencyKey == b.idempotencyKey

/-- `_reconcile_committed_event`. -/
def reconcileCommittedEvent (w : World cfg) (event : DomainEvent) (expectedGlobalPosition : Nat) :
    LedgerTxn (Option StoredEvent) := do
  match ← Txn.attempt (access w
      (getIdempotentEvent cfg event.streamId (event.idempotencyKey.getD ""))) with
  | .error _ => pure none
  | .ok none => pure none
  | .ok (some stored) =>
    if stored.globalPosition = expectedGlobalPosition + 1 ∧ sameEvent stored.event event = true then
      pure (some stored)
    else pure none

/-- The last steps of an attempt whose event is stored. -/
def settle (w : World cfg) (request : ArtifactRecordRequest) (history : List ArtifactVersion)
    (decoded : DecodedArtifactVersion) (event : DomainEvent) (stored : StoredEvent) :
    LedgerTxn ArtifactVersion := do
  if stored.event.eventId ≠ event.eventId then resolveIdempotentVersion w history stored request
  else do
    Txn.update (fun s => ⟨s.db, s.ledger.extend decoded stored.globalPosition, s.tick⟩)
    pure decoded.item

/-- An append that raised and is not in the log: a conflict is repeated after a
rebuild, as long as attempts are left. -/
def retry (w : World cfg) (lastAttempt : Bool) (e : StoreError) : LedgerTxn (Option StoredEvent) :=
  if e.kind = .concurrency then
    if lastAttempt then
      Txn.raise ⟨.artifactRecord, "artifact record admission did not stabilize"⟩
    else do
      rebuild w
      pure none
  else Txn.raise e

/-- The append of an attempt, and what is done where it raised: the stored
event, or nothing where the attempt is to be repeated. -/
def publish (w : World cfg) (lastAttempt : Bool) (event : DomainEvent) :
    LedgerTxn (Option StoredEvent) := do
  let expected ← Txn.query (fun s : Machine => s.ledger.replayPosition)
  match ← Txn.attempt (access w (append cfg event none (some expected))) with
  | .ok stored => pure (some stored)
  | .error e =>
    match ← reconcileCommittedEvent w event expected with
    | some stored => pure (some stored)
    | none => retry w lastAttempt e

/-- One round of the admission loop: a version, or nothing where the round is
to be repeated. -/
def admitOnce (w : World cfg) (request : ArtifactRecordRequest) (lastAttempt : Bool) :
    LedgerTxn (Option ArtifactVersion) := do
  let history ← Txn.query (fun s : Machine => s.ledger.history request.key)
  match ← access w (getIdempotentEvent cfg request.streamId request.idempotencyKey) with
  | some existing =>
    let found ← resolveIdempotentVersion w history existing request
    pure (some found)
  | none =>
    let draw ← Txn.query (fun s : Machine => w.draw s.tick s.db)
    let decoded ← Txn.lift (request.decoded cfg.py history draw)
    let usage ← Txn.query (fun s : Machine => s.ledger.usage.include decoded)
    let _ ← Txn.lift (asRecordError "artifact record would exceed ledger safety limits"
      (validateReplayUsage cfg.limits usage))
    let event ← Txn.lift (request.event history draw)
    match ← publish w lastAttempt event with
    | some stored =>
      let version ← settle w request history decoded event stored
      pure (some version)
    | none => pure none

/-- The admission loop, with the attempts left. -/
def admitRounds (w : World cfg) (request : ArtifactRecordRequest) : Nat → LedgerTxn ArtifactVersion
  | 0 => Txn.raise ⟨.assertionError, "artifact admission loop exhausted without a result"⟩
  | remaining + 1 => do
    match ← admitOnce w request (remaining = 0) with
    | some version => pure version
    | none => admitRounds w request remaining

def record (w : World cfg) (call : RecordCall) : LedgerTxn ArtifactVersion := do
  let request ← Txn.lift (captureRequest call)
  admitRounds w request maxRecordAdmissionAttempts

/-- The output constructor, with the check of `__post_init__`. -/
def ArtifactOutput.make (name content mediaType : String) (metadata : Value) :
    Except StoreError ArtifactOutput :=
  if h : isBlank name = false then .ok ⟨name, content, mediaType, metadata, h⟩
  else .error ⟨.valueError, "artifact name is required"⟩

/-- The version of a history under a number. -/
def versionAt (history : List ArtifactVersion) (targetVersion : Int) : Option ArtifactVersion :=
  if targetVersion ≤ 0 then none else history[targetVersion.toNat - 1]?

def restore (w : World cfg) (sessionId name : String) (targetVersion : Int)
    (taskId actorId : String) : LedgerTxn ArtifactVersion := do
  let history ← Txn.query (fun s : Machine => s.ledger.history (sessionId, name))
  match versionAt history targetVersion with
  | none =>
    Txn.raise ⟨.keyError, "artifact version not found: " ++ name ++ " v" ++ toString targetVersion⟩
  | some source =>
    let output ← Txn.lift (ArtifactOutput.make name source.content source.ref.mediaType
      (.dict [("restoredFrom", .int targetVersion)]))
    record w ⟨sessionId, taskId, actorId, output, none, none, some "rollback"⟩

end QuantumEntanglement.Artifacts
