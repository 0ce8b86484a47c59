import QuantumEntanglement.ArtifactStore.Records
import QuantumEntanglement.Store.EventLog

/-
  The artifact store — writes, and the reads that check what they return

  A write runs in one transaction: it finds the versions of its scope that
  carry its artifact id or its idempotency key, replays the one there is, or
  allocates the next version of its session and name and inserts blob and
  version. A read runs on one snapshot, checks sizes and lineage before it
  fetches contents, and decodes every row it returns.

  A table is the list of its rows; rows are appended and never changed. The
  CHECKs and the foreign key of the schema hold of every row a write inserts
  and are left out; its three uniqueness constraints are not.
-/

namespace QuantumEntanglement.ArtifactStore

open Transaction PyJson

/-- `artifact_blobs` and `artifact_versions`. -/
structure ArtifactDb where
  blobs : List BlobRow
  versions : List VersionRow
  deriving DecidableEq

def ArtifactDb.empty : ArtifactDb := ⟨[], []⟩

abbrev ArtifactTxn := Txn ArtifactDb StoreError

/-! ## Queries -/

/-- A tenant's workspace. -/
structure Scope where
  tenantId : String
  workspaceId : String
  deriving DecidableEq

/-- The versions of one name in one session of a scope. -/
structure Lineage where
  scope : Scope
  sessionId : String
  name : String
  deriving DecidableEq

def VersionRow.scope (r : VersionRow) : Scope := ⟨r.tenantId, r.workspaceId⟩

def VersionRow.lineage (r : VersionRow) : Lineage := ⟨r.scope, r.sessionId, r.name⟩

def ArtifactWrite.scope (spec : ArtifactWrite) : Scope := ⟨spec.tenantId, spec.workspaceId⟩

def ArtifactWrite.lineage (spec : ArtifactWrite) : Lineage := ⟨spec.scope, spec.sessionId, spec.name⟩

namespace ArtifactDb

/-- `WHERE tenant_id = ? AND workspace_id = ?`. -/
def inScope (db : ArtifactDb) (s : Scope) : List VersionRow :=
  db.versions.filter (fun r => r.scope = s)

/-- `... AND session_id = ? AND name = ?`. -/
def inLineage (db : ArtifactDb) (l : Lineage) : List VersionRow :=
  (db.inScope l.scope).filter (fun r => r.sessionId = l.sessionId && r.name = l.name)

def findBlob (db : ArtifactDb) (digest : String) : Option BlobRow :=
  db.blobs.find? (fun b => b.digest = digest)

/-- The row of `JOIN artifact_blobs AS blob ON blob.digest = version.blob_digest`. -/
def join (db : ArtifactDb) (r : VersionRow) : Option JoinedRow :=
  (db.findBlob r.blobDigest).map fun b => ⟨r, b.content, b.byteSize⟩

/-- `_select_record`. -/
def selectRecord (db : ArtifactDb) (s : Scope) (artifactId : String) : Option JoinedRow :=
  (((db.inScope s).filter (fun r => r.artifactId = artifactId)).filterMap db.join).head?

/-- The versions a write's identity or key may already have. -/
def existingRows (db : ArtifactDb) (spec : ArtifactWrite) : List VersionRow :=
  (db.inScope spec.scope).filter
    (fun r => r.artifactId = spec.artifactId || r.idempotencyKey = spec.idempotencyKey)

/-- `COALESCE(MAX(version), 0)`. -/
def headVersion (db : ArtifactDb) (l : Lineage) : Nat := maxOf (·.version) (db.inLineage l)

end ArtifactDb

/-! ## Writing -/

/-- `ON CONFLICT(digest) DO NOTHING`. -/
def insertBlob (row : BlobRow) : ArtifactTxn Unit :=
  Txn.update fun db =>
    if (db.findBlob row.digest).isSome then db else { db with blobs := db.blobs ++ [row] }

/-- The blob of a digest holds the content the digest was computed from. -/
def checkBlob (digest : String) (content : List UInt8) : ArtifactTxn Unit := do
  match ← Txn.query (·.findBlob digest) with
  | none => Txn.raise ⟨.artifactIntegrity, "existing content-addressed blob is corrupted"⟩
  | some b =>
    Txn.ensure (b.content = content ∧ b.byteSize = content.length)
      ⟨.artifactIntegrity, "existing content-addressed blob is corrupted"⟩

/-- Whether a row keeps a uniqueness constraint: no row has its columns. -/
def isFree {α : Type} [DecidableEq α] (columns : VersionRow → α) (db : ArtifactDb)
    (row : VersionRow) : Bool :=
  !db.versions.any (fun r => columns r = columns row)

/-- `INSERT INTO artifact_versions`, under its constraints. -/
def insertVersion (row : VersionRow) : ArtifactTxn Unit := do
  Txn.ensure (row.version ≤ maxSqliteInteger)
    ⟨.overflowError, "Python int too large to convert to SQLite INTEGER"⟩
  let freeId ← Txn.query fun db => isFree (·.artifactId) db row
  Txn.ensure (freeId = true)
    ⟨.sqliteIntegrity, "UNIQUE constraint failed: artifact_versions.artifact_id"⟩
  let freeVersion ← Txn.query fun db => isFree (fun r => (r.lineage, r.version)) db row
  Txn.ensure (freeVersion = true)
    ⟨.sqliteIntegrity, "UNIQUE constraint failed: artifact_versions.version"⟩
  let freeKey ← Txn.query fun db => isFree (fun r => (r.scope, r.idempotencyKey)) db row
  Txn.ensure (freeKey = true)
    ⟨.sqliteIntegrity, "UNIQUE constraint failed: artifact_versions.idempotency_key"⟩
  Txn.update fun db => { db with versions := db.versions ++ [row] }

/-- The row a write inserts. -/
def ArtifactWrite.row (spec : ArtifactWrite) (p : Prepared) (current : Nat) (now : String) :
    VersionRow where
  artifactId := spec.artifactId
  tenantId := spec.tenantId
  workspaceId := spec.workspaceId
  sessionId := spec.sessionId
  taskId := spec.taskId
  name := spec.name
  version := current + 1
  parentVersion := if 0 < current then some current else none
  mediaType := spec.mediaType
  blobDigest := p.digest
  byteSize := spec.content.length
  metadataJson := p.metadataJson
  createdBy := spec.createdBy
  createdAt := now
  idempotencyKey := spec.idempotencyKey
  requestDigest := p.requestDigest

/-- The text of a stale head. -/
def staleHead (expected : Int) (current : Nat) : StoreError :=
  ⟨.artifactConcurrency, "artifact head changed: expected " ++ toString expected ++ ", found " ++
    toString current⟩

/-- The transaction of a write. -/
def writeBody (cfg : ArtifactStoreConfig) (spec : ArtifactWrite) (p : Prepared)
    (expectedHead : Option Int) (clock : String) : ArtifactTxn StoredArtifact := do
  match ← Txn.query (·.existingRows spec) with
  | row :: rest =>
    if rest ≠ [] ∨ row.idempotencyKey ≠ spec.idempotencyKey ∨ row.requestDigest ≠ p.requestDigest then
      Txn.raise ⟨.artifactConflict,
        "artifact identity or idempotency key is bound to different content"⟩
    else
      match ← Txn.query (·.selectRecord spec.scope row.artifactId) with
      | none => Txn.raise ⟨.artifactIntegrity, "idempotent artifact record has no blob"⟩
      | some existing => Txn.lift (rowToArtifact cfg.py existing)
  | [] =>
    let current ← Txn.query (·.headVersion spec.lineage)
    Txn.ensure (∀ e, expectedHead = some e → (current : Int) = e)
      (staleHead (expectedHead.getD 0) current)
    let now ← Txn.lift (normalizeTimestamp cfg.py clock "clock")
    insertBlob ⟨p.digest, spec.content, spec.content.length, now⟩
    checkBlob p.digest spec.content
    insertVersion (spec.row p current now)
    match ← Txn.query (·.selectRecord spec.scope spec.artifactId) with
    | none => Txn.raise ⟨.runtimeError, "stored artifact disappeared"⟩
    | some stored => Txn.lift (rowToArtifact cfg.py stored)

/-- The check of `expected_head_version`. -/
def checkExpectedHead (expectedHead : Option Int) : Except StoreError Unit :=
  match expectedHead with
  | some e => if e < 0 then valueError "expected_head_version cannot be negative" else .ok ()
  | none => .ok ()

/-- `SQLiteArtifactStore.write`. -/
def write (cfg : ArtifactStoreConfig) (spec : ArtifactWrite) (expectedHead : Option Int)
    (clock : String) : ArtifactTxn StoredArtifact := do
  Txn.lift (checkExpectedHead expectedHead)
  let p ← Txn.lift (prepare cfg spec)
  Txn.atomically (writeBody cfg spec p expectedHead clock)

/-! ## Checks before reading -/

/-- `_preflight_blob_metadata`; a version without its blob reads as NULLs. -/
def preflightBlobMetadata (r : VersionRow) (blob : Option BlobRow) :
    Except StoreError (Nat × Nat) :=
  match blob with
  | none => integrityError "artifact blob metadata violates its contract"
  | some b => do
    let _ ← asIntegrity "artifact blob metadata violates its contract" (do
      let _ ← persistedIntegerFrom r.version "version" 1
      let _ ← persistedIntegerFrom r.byteSize "byte_size" 0
      let _ ← persistedIntegerFrom b.byteSize "blob_byte_size" 0
      persistedIntegerFrom b.content.length "blob_content_length" 0)
    if r.byteSize ≠ b.byteSize ∨ b.byteSize ≠ b.content.length then
      integrityError "artifact byte size metadata is inconsistent"
    else .ok (r.version, b.content.length)

/-- What a read fetches a content by. -/
structure RecordIdentity where
  artifactId : String
  version : Nat
  blobDigest : String
  contentLength : Nat

/-- `_preflight_record_identity`. -/
def preflightRecordIdentity (r : VersionRow) (blob : Option BlobRow) :
    Except StoreError RecordIdentity := do
  let (version, contentLength) ← preflightBlobMetadata r blob
  let digest := (blob.map (·.digest)).getD ""
  let _ ← asIntegrity "artifact read identity violates its contract" (do
    let _ ← requiredText r.artifactId "artifact_id" maxIdentifierLength
    let _ ← requiredText r.blobDigest "blob_digest" 71
    requiredText digest "joined_blob_digest" 71)
  if digest ≠ r.blobDigest then
    integrityError "artifact version and blob identities are inconsistent"
  else .ok ⟨r.artifactId, version, r.blobDigest, contentLength⟩

/-- `_select_materialized_record`. -/
def selectMaterialized (db : ArtifactDb) (s : Scope) (identity : RecordIdentity) :
    Except StoreError JoinedRow :=
  match (((db.inScope s).filter (fun r => r.artifactId = identity.artifactId &&
      r.version = identity.version && r.blobDigest = identity.blobDigest)).filterMap db.join).take 2 with
  | [row] => .ok row
  | _ => integrityError "artifact record changed or became ambiguous inside its read snapshot"

/-- `_materialize_preflighted_record`. -/
def materialize (cfg : ArtifactStoreConfig) (db : ArtifactDb) (s : Scope)
    (identity : RecordIdentity) : Except StoreError StoredArtifact := do
  let row ← selectMaterialized db s identity
  let item ← rowToArtifact cfg.py row
  if item.artifactId ≠ identity.artifactId ∨ item.version ≠ identity.version ∨
      item.digest ≠ identity.blobDigest ∨ item.byteSize ≠ identity.contentLength ∨
      item.content.length ≠ identity.contentLength then
    integrityError "artifact record changed while its stable snapshot was decoded"
  else .ok item

/-- The content a read returns is within the store's limit. -/
def withinContentLimit (cfg : ArtifactStoreConfig) (contentLength : Nat) : Except StoreError Unit :=
  if cfg.maxContentBytes < contentLength then
    tooLarge "persisted artifact exceeds the configured single-content limit"
  else .ok ()

/-! ## Lineage -/

/-- The order of Python tuples of two texts, and of SQLite's two text columns. -/
def groupLt (a b : String × String) : Bool := keyLt a.1 b.1 || (a.1 == b.1 && keyLt a.2 b.2)

def VersionRow.group (r : VersionRow) : String × String := (r.sessionId, r.name)

/-- `ORDER BY session_id, name, version`. -/
def rowLe (a b : VersionRow) : Bool :=
  groupLt a.group b.group || (a.group == b.group && a.version ≤ b.version)

def orderByLineage (rows : List VersionRow) : List VersionRow :=
  rows.insertionSort (fun a b => rowLe a b = true)

/-- The loop of `_validate_version_lineage`: the group and the version of the
row before, and the rows checked. -/
def checkLineage : Option (String × String) → Nat → Nat → List VersionRow → Except StoreError (Nat × Nat)
  | group, previous, checked, [] => .ok (checked, if group.isSome then previous else 0)
  | group, previous, checked, r :: rest => do
    let _ ← asIntegrity "artifact version lineage metadata violates its contract" (do
      let _ ← requiredText r.sessionId "session_id" maxIdentifierLength
      let _ ← requiredText r.name "name" maxIdentifierLength
      let _ ← persistedIntegerFrom r.version "version" 1
      persistedParent r.parentVersion)
    if group = some r.group then
      if r.version ≠ previous + 1 ∨ r.parentVersion ≠ parentOf (previous + 1) then
        integrityError "artifact version lineage is not strictly contiguous"
      else checkLineage group r.version (checked + 1) rest
    else if group.any (fun g => !groupLt g r.group) then
      integrityError "artifact version groups are not in strict storage order"
    else if r.version ≠ 1 ∨ r.parentVersion ≠ none then
      integrityError "artifact version lineage is not strictly contiguous"
    else checkLineage (some r.group) r.version (checked + 1) rest

/-- `_validate_version_lineage`: the rows checked, and the last version. -/
def validateVersionLineage (rows : List VersionRow) : Except StoreError (Nat × Nat) :=
  checkLineage none 0 0 rows

/-! ## Reading -/

/-- The scope arguments of a read. -/
def checkScope (s : Scope) : Except StoreError Unit := do
  let _ ← requiredText s.tenantId "tenant_id" maxIdentifierLength
  let _ ← requiredText s.workspaceId "workspace_id" maxIdentifierLength
  .ok ()

def checkLineageArguments (l : Lineage) : Except StoreError Unit := do
  checkScope l.scope
  let _ ← requiredText l.sessionId "session_id" maxIdentifierLength
  let _ ← requiredText l.name "name" maxIdentifierLength
  .ok ()

/-- `SQLiteArtifactStore.get`. -/
def get (cfg : ArtifactStoreConfig) (db : ArtifactDb) (s : Scope) (artifactId : String) :
    Except StoreError (Option StoredArtifact) := do
  checkScope s
  let _ ← requiredText artifactId "artifact_id" maxIdentifierLength
  match ((db.inScope s).filter (fun r => r.artifactId = artifactId)).take 2 with
  | [] => .ok none
  | [r] =>
    let identity ← preflightRecordIdentity r (db.findBlob r.blobDigest)
    withinContentLimit cfg identity.contentLength
    let item ← materialize cfg db s identity
    .ok (some item)
  | _ => integrityError "artifact lookup returned ambiguous records"

/-- `ORDER BY version DESC, artifact_id DESC`. -/
def newestFirst (rows : List VersionRow) : List VersionRow :=
  rows.insertionSort (fun a b => b.version < a.version ∨
    (a.version = b.version ∧ keyLt a.artifactId b.artifactId = false))

/-- `SQLiteArtifactStore.head`. -/
def head (cfg : ArtifactStoreConfig) (db : ArtifactDb) (l : Lineage) :
    Except StoreError (Option StoredArtifact) := do
  checkLineageArguments l
  match (newestFirst (db.inLineage l)).take 2 with
  | [] => .ok none
  | r :: more =>
    let identity ← preflightRecordIdentity r (db.findBlob r.blobDigest)
    match more with
    | next :: _ =>
      let nextVersion ← asIntegrity "artifact head ordering metadata violates its contract"
        (persistedIntegerFrom next.version "version" 1)
      if identity.version ≤ nextVersion then
        integrityError "artifact head lookup returned ambiguous records"
      else .ok ()
    | [] => .ok ()
    withinContentLimit cfg identity.contentLength
    let item ← materialize cfg db l.scope identity
    .ok (some item)

/-- The preflight of a page: its versions and its bytes. -/
def checkPage (cfg : ArtifactStoreConfig) (db : ArtifactDb) :
    Nat → Nat → List VersionRow → Except StoreError (List Nat × Nat)
  | _, pageBytes, [] => .ok ([], pageBytes)
  | cursor, pageBytes, r :: rest => do
    let (version, contentLength) ← preflightBlobMetadata r (db.findBlob r.blobDigest)
    if version ≠ cursor + 1 then
      integrityError "artifact history cursor does not continue at the next version"
    else if cfg.maxHistoryBytes < pageBytes + contentLength then
      tooLarge ("artifact history page exceeds " ++ toString cfg.maxHistoryBytes ++
        " content bytes; request a smaller limit")
    else
      let (versions, bytes) ← checkPage cfg db (cursor + 1) (pageBytes + contentLength) rest
      .ok (version :: versions, bytes)

/-- Rows decoded in order, up to the first that does not read. -/
def decodeRows (cfg : ArtifactStoreConfig) : List JoinedRow → Except StoreError (List StoredArtifact)
  | [] => .ok []
  | j :: rest => do
    let item ← rowToArtifact cfg.py j
    let items ← decodeRows cfg rest
    .ok (item :: items)

/-- `WHERE ... AND version > ? ORDER BY version ASC LIMIT ?`. -/
def pageRows (db : ArtifactDb) (l : Lineage) (after limit : Nat) : List VersionRow :=
  (orderBy (·.version) ((db.inLineage l).filter (fun r => after < r.version))).take limit

/-- The same under the join. -/
def pageRecords (db : ArtifactDb) (l : Lineage) (after limit : Nat) : List JoinedRow :=
  ((orderBy (·.version) ((db.inLineage l).filter (fun r => after < r.version))).filterMap db.join).take
    limit

/-- `SQLiteArtifactStore.history`. -/
def history (cfg : ArtifactStoreConfig) (db : ArtifactDb) (l : Lineage) (afterVersion limit : Int) :
    Except StoreError (List StoredArtifact) := do
  checkLineageArguments l
  if afterVersion < 0 then valueError "after_version cannot be negative"
  else if limit < 1 ∨ 1000 < limit then valueError "limit must be between 1 and 1000"
  else
    let after := afterVersion.toNat
    let (_, headVersion) ← validateVersionLineage (orderByLineage (db.inLineage l))
    if maxSqliteInteger < after then
      .error ⟨.overflowError, "Python int too large to convert to SQLite INTEGER"⟩
    else
      let rows := pageRows db l after limit.toNat
      let (expectedVersions, pageBytes) ← checkPage cfg db after 0 rows
      if rows = [] ∧ after < headVersion then
        integrityError "artifact history page is missing a version after its cursor"
      else
        let items ← decodeRows cfg (pageRecords db l after limit.toNat)
        if items.map (·.version) ≠ expectedVersions then
          integrityError "artifact history changed inside its read snapshot"
        else if (items.map (·.byteSize)).sum ≠ pageBytes then
          integrityError "artifact history byte total changed during decoding"
        else .ok items

/-- The loop of `verify_scope`. -/
def verifyRows (cfg : ArtifactStoreConfig) (db : ArtifactDb) (s : Scope) :
    Nat → List VersionRow → Except StoreError Nat
  | checked, [] => .ok checked
  | checked, r :: rest => do
    let (_, contentLength) ← preflightBlobMetadata r (db.findBlob r.blobDigest)
    withinContentLimit cfg contentLength
    let artifactId ← asIntegrity "artifact verification identity violates its contract"
      (requiredText r.artifactId "artifact_id" maxIdentifierLength)
    match db.selectRecord s artifactId with
    | none => integrityError "artifact disappeared inside its read snapshot"
    | some row =>
      let _ ← rowToArtifact cfg.py row
      verifyRows cfg db s (checked + 1) rest

/-- `SQLiteArtifactStore.verify_scope`. -/
def verifyScope (cfg : ArtifactStoreConfig) (db : ArtifactDb) (s : Scope) : Except StoreError Nat := do
  checkScope s
  let rows := orderByLineage (db.inScope s)
  let (lineageCount, _) ← validateVersionLineage rows
  let checked ← verifyRows cfg db s 0 rows
  if checked ≠ lineageCount then
    integrityError "artifact verification row count changed inside its read snapshot"
  else .ok checked

end QuantumEntanglement.ArtifactStore
