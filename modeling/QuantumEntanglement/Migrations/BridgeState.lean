import QuantumEntanglement.Lib.Checked
import QuantumEntanglement.Lib.Rfc3339
import QuantumEntanglement.Migrations.Schema

/-
  The migration sidecar — what a database says about its own migrations

  Beside the ledger two tables describe the applied migrations: one row of
  metadata for each, and one row for each dependency. The reader takes one
  snapshot, compares ledger, schema, sidecar tables and their rows with the
  registry of the package, and classifies the database or raises. It changes
  nothing. A `SchemaState` is that classification without the timestamps.

  A registry holds its descriptors normalised, so the digests of a descriptor
  are computed from what it holds.
-/

namespace QuantumEntanglement.Migrations

open PyJson PyText IsoTime Sha256 Checked

/-! ## Errors -/

/-- The exception classes of the module; the last four are integrity errors,
each a subclass of the one before it. -/
inductive BridgeErrorKind where
  /-- Raised by the driver or the clock. -/
  | driver
  | sidecarSchema
  | sidecarInstall
  | integrity
  | legacyBootstrap
  | planning
  | planApply
  deriving DecidableEq

structure BridgeError where
  kind : BridgeErrorKind
  message : String
  deriving DecidableEq

/-- `isinstance(error, DomainMigrationBridgeIntegrityError)`. -/
def BridgeError.isIntegrity (e : BridgeError) : Bool :=
  match e.kind with
  | .integrity | .legacyBootstrap | .planning | .planApply => true
  | _ => false

def integrity (message : String) : BridgeError := ⟨.integrity, message⟩

def planning (message : String) : BridgeError := ⟨.planning, message⟩

/-! ## The registry -/

inductive DomainMigrationKind where
  | legacyBootstrap
  | native
  deriving DecidableEq

def DomainMigrationKind.value : DomainMigrationKind → String
  | .legacyBootstrap => "legacy_bootstrap"
  | .native => "native"

structure OwnedSchemaObject where
  objectType : String
  name : String
  ddlSha256 : String
  deriving DecidableEq

structure DomainMigrationDescriptor where
  migrationId : Int
  filename : String
  sqlSha256 : String
  domain : String
  domainVersion : Int
  kind : DomainMigrationKind
  dependencies : List Int
  ownedObjects : List OwnedSchemaObject
  deriving DecidableEq

/-- `_canonical_sha256`. -/
def canonicalSha256 (value : Value) : String := hexDigest (dumps value)

/-- `_owned_object_manifest_digest`. -/
def ownedObjectManifestDigest (objects : List OwnedSchemaObject) : String :=
  canonicalSha256 (.dict [
    ("format", .str "qe.domain-migration-owned-objects/1"),
    ("objects", .list (objects.map fun item => .dict [
      ("ddlSha256", .str item.ddlSha256),
      ("name", .str item.name),
      ("objectType", .str item.objectType)]))])

namespace DomainMigrationDescriptor

variable (d : DomainMigrationDescriptor)

def ownedObjectManifestSha256 : String := ownedObjectManifestDigest d.ownedObjects

/-- `_descriptor_digest`. -/
def descriptorSha256 : String :=
  canonicalSha256 (.dict [
    ("dependencies", .list (d.dependencies.map .int)),
    ("domain", .str d.domain),
    ("domainVersion", .int d.domainVersion),
    ("filename", .str d.filename),
    ("format", .str "qe.domain-migration-descriptor/1"),
    ("kind", .str d.kind.value),
    ("migrationId", .int d.migrationId),
    ("ownedObjectManifestSha256", .str d.ownedObjectManifestSha256),
    ("sqlSha256", .str d.sqlSha256)])

end DomainMigrationDescriptor

structure DomainMigrationRegistry where
  descriptors : List DomainMigrationDescriptor
  registrySha256 : String

/-- What a binary ships: the packaged migrations and the registry made of
them, `DOMAIN_MIGRATION_REGISTRY`. -/
structure Release where
  package : Package
  registry : DomainMigrationRegistry
  py : PyVersion

def maxMigrationId : Int := 9223372036854775807

def maxDomainMigrations : Nat := 4096

/-! ## The sidecar schema -/

def metadataTableName : String := "qe_schema_migration_metadata"

def dependenciesTableName : String := "qe_schema_migration_dependencies"

/-- `DOMAIN_MIGRATION_METADATA_TABLE_SQL`. -/
def metadataTableSql : String :=
  "CREATE TABLE qe_schema_migration_metadata (\n" ++
  "    migration_version INTEGER PRIMARY KEY,\n" ++
  "    domain TEXT NOT NULL,\n" ++
  "    domain_version INTEGER NOT NULL,\n" ++
  "    metadata_kind TEXT NOT NULL,\n" ++
  "    descriptor_sha256 TEXT NOT NULL,\n" ++
  "    owned_schema_sha256 TEXT NOT NULL,\n" ++
  "    recorded_at TEXT NOT NULL,\n" ++
  "    UNIQUE(domain, domain_version),\n" ++
  "    FOREIGN KEY(migration_version)\n" ++
  "        REFERENCES qe_schema_migrations(version) ON DELETE RESTRICT,\n" ++
  "    CHECK(migration_version > 0),\n" ++
  "    CHECK(domain_version > 0),\n" ++
  "    CHECK(\n" ++
  "        length(domain) BETWEEN 1 AND 64\n" ++
  "        AND substr(domain, 1, 1) GLOB '[a-z]'\n" ++
  "        AND domain NOT GLOB '*[^a-z0-9_]*'\n" ++
  "    ),\n" ++
  "    CHECK(metadata_kind IN ('legacy_bootstrap', 'native')),\n" ++
  "    CHECK(\n" ++
  "        length(descriptor_sha256) = 64\n" ++
  "        AND descriptor_sha256 NOT GLOB '*[^0-9a-f]*'\n" ++
  "    ),\n" ++
  "    CHECK(\n" ++
  "        length(owned_schema_sha256) = 64\n" ++
  "        AND owned_schema_sha256 NOT GLOB '*[^0-9a-f]*'\n" ++
  "    )\n" ++
  ");"

/-- `DOMAIN_MIGRATION_DEPENDENCIES_TABLE_SQL`. -/
def dependenciesTableSql : String :=
  "CREATE TABLE qe_schema_migration_dependencies (\n" ++
  "    migration_version INTEGER NOT NULL,\n" ++
  "    depends_on_version INTEGER NOT NULL,\n" ++
  "    PRIMARY KEY(migration_version, depends_on_version),\n" ++
  "    FOREIGN KEY(migration_version)\n" ++
  "        REFERENCES qe_schema_migration_metadata(migration_version)\n" ++
  "        ON DELETE RESTRICT,\n" ++
  "    FOREIGN KEY(depends_on_version)\n" ++
  "        REFERENCES qe_schema_migration_metadata(migration_version)\n" ++
  "        ON DELETE RESTRICT,\n" ++
  "    CHECK(migration_version <> depends_on_version)\n" ++
  ");"

/-- `str.rstrip`, on the characters. -/
def rstrip (s : List Char) : List Char := (s.reverse.dropWhile isSpace).reverse

def singleQuote : Char := Char.ofNat 39

def doubleQuote : Char := Char.ofNat 34

def backQuote : Char := Char.ofNat 96

/-- Where the scan stands: outside quotes, inside a quoted region, or after a
character that ends one unless it is doubled. -/
inductive QuoteState where
  | outside
  | inside (closing : Char)
  | closed (quote : Char)

/-- A character outside quotes, on the output so far in reverse. -/
def scanOutside (out : List Char) (c : Char) : QuoteState × List Char :=
  if c = singleQuote ∨ c = doubleQuote ∨ c = backQuote then (.inside c, c :: out)
  else if c = '[' then (.inside ']', c :: out)
  else if isSpace c then
    (.outside, match out with
      | [] => []
      | last :: _ => if last = ' ' then out else ' ' :: out)
  else (.outside, c :: out)

def scanChar : QuoteState → List Char → Char → QuoteState × List Char
  | .outside, out, c => scanOutside out c
  | .inside closing, out, c =>
    if c = closing then (if closing = ']' then .outside else .closed closing, c :: out)
    else (.inside closing, c :: out)
  | .closed quote, out, c => if c = quote then (.inside quote, c :: out) else scanOutside out c

/-- The scan of a text. -/
def scanSchemaSql : QuoteState → List Char → List Char → List Char
  | _, out, [] => out.reverse
  | state, out, c :: rest =>
    let (state, out) := scanChar state out c
    scanSchemaSql state out rest

/-- `_canonical_sidecar_schema_sql`. -/
def canonicalSidecarSchemaSql (sql : String) : String :=
  let stripped := (strip sql).toList
  let body := if stripped.getLast? = some ';' then rstrip stripped.dropLast else stripped
  strip (String.ofList (scanSchemaSql .outside [] body))

/-- A row of `sqlite_master`. -/
structure CatalogRow where
  type : String
  name : String
  tblName : String
  sql : Option String
  deriving DecidableEq

/-- `_EXPECTED_SIDECAR_SCHEMA_OBJECTS`, in order. -/
def expectedSidecarObjects : List CatalogRow := [
  ⟨"index", "sqlite_autoindex_qe_schema_migration_dependencies_1", dependenciesTableName, none⟩,
  ⟨"index", "sqlite_autoindex_qe_schema_migration_metadata_1", metadataTableName, none⟩,
  ⟨"table", dependenciesTableName, dependenciesTableName,
    some (canonicalSidecarSchemaSql dependenciesTableSql)⟩,
  ⟨"table", metadataTableName, metadataTableName,
    some (canonicalSidecarSchemaSql metadataTableSql)⟩]

/-! ## The database -/

/-- A value as SQLite holds it. -/
inductive Cell where
  | null
  | integer (value : Int)
  | real
  | text (value : String)
  | blob
  deriving DecidableEq

/-- A row of the metadata table. -/
structure MetadataCells where
  migrationVersion : Cell
  domain : Cell
  domainVersion : Cell
  metadataKind : Cell
  descriptorSha256 : Cell
  ownedSchemaSha256 : Cell
  recordedAt : Cell
  deriving DecidableEq

/-- A row of the dependency table. -/
structure DependencyCells where
  migrationVersion : Cell
  dependsOnVersion : Cell
  deriving DecidableEq

/-- A database: its ledger, the other rows of `sqlite_master`, the rows of the
sidecar tables in the order of their keys, and everything else. -/
structure BridgeDatabase (δ : Type) where
  ledger : LedgerObject
  objects : List CatalogRow
  metadata : List MetadataCells
  dependencies : List DependencyCells
  content : δ

namespace BridgeDatabase

variable {δ : Type} (db : BridgeDatabase δ)

/-- The database as the legacy validator sees it. -/
def legacy : Database δ := ⟨db.ledger, ⟨db.objects.map fun o => ⟨o.type, o.name, o.sql⟩, db.content⟩⟩

/-- The catalogue rows of the sidecar tables, and of what is attached to them. -/
def sidecarObjects : List CatalogRow :=
  db.objects.filter fun o => o.name = metadataTableName || o.name = dependenciesTableName ||
    o.tblName = metadataTableName || o.tblName = dependenciesTableName

end BridgeDatabase

inductive SidecarSchemaState where
  | absent
  | exact
  deriving DecidableEq

/-- `_parse_sidecar_catalog_row`. -/
def parseSidecarCatalogRow (row : CatalogRow) : Except BridgeError CatalogRow :=
  if row.type.length > 7 ∨ row.name.length > 128 ∨ row.tblName.length > 128 ∨
      (row.sql.map String.length).getD 0 > 8192 then
    .error ⟨.sidecarSchema, "domain migration sidecar catalog row is malformed"⟩
  else .ok { row with sql := row.sql.map canonicalSidecarSchemaSql }

/-- The order of the objects: type, name and table name. -/
def objectKey (row : CatalogRow) : List Char ×ₗ List Char ×ₗ List Char :=
  toLex (row.type.toList, toLex (row.name.toList, row.tblName.toList))

/-- `validate_domain_migration_sidecar_schema`. -/
def validateSidecarSchema {δ : Type} (db : BridgeDatabase δ) : Except BridgeError SidecarSchemaState :=
  let rows := db.sidecarObjects
  if rows.length > 16 then
    .error ⟨.sidecarSchema, "domain migration sidecar schema exceeds the inspection limit"⟩
  else if rows = [] then .ok .absent
  else do
    let parsed ← rows.mapM parseSidecarCatalogRow
    let actual := parsed.insertionSort fun a b => objectKey a ≤ objectKey b
    let tables := (actual.filter fun o => o.type = "table").map (·.name)
    if (∀ t ∈ tables, t = metadataTableName ∨ t = dependenciesTableName) ∧
        metadataTableName ∈ tables ∧ dependenciesTableName ∈ tables then
      if actual = expectedSidecarObjects then .ok .exact
      else .error ⟨.sidecarSchema,
        "domain migration sidecar schema differs from the exact packaged definition"⟩
    else .error ⟨.sidecarSchema, "domain migration sidecar tables must be both absent or both exact"⟩

/-! ## Durable values -/

/-- `_durable_integer`. -/
def durableInteger (value : Cell) (field : String) (maximum : Int) : Except BridgeError Int :=
  match value with
  | .integer v =>
    if 0 < v ∧ v ≤ maximum then .ok v
    else .error (integrity ("durable " ++ field ++
      " is outside the supported positive integer range"))
  | _ => .error (integrity ("durable " ++ field ++ " must be an exact SQLite INTEGER"))

/-- `_durable_text`. -/
def durableText (value : Cell) (field : String) (maximum : Nat) : Except BridgeError String :=
  match value with
  | .text v =>
    if v ≠ "" ∧ v.length ≤ maximum ∧ v = strip v then .ok v
    else .error (integrity ("durable " ++ field ++ " is not bounded canonical text"))
  | _ => .error (integrity ("durable " ++ field ++ " must be an exact SQLite TEXT value"))

/-- `_SHA256_PATTERN`. -/
def isSha256 (text : String) : Bool := text.length = 64 && text.toList.all isLowerHex

/-- `_durable_sha256`. -/
def durableSha256 (value : Cell) (field : String) : Except BridgeError String := do
  let digest ← durableText value field 64
  if isSha256 digest then .ok digest
  else .error (integrity ("durable " ++ field ++ " must be a lowercase SHA-256 digest"))

/-- `(?:\.\d{1,6})?Z`. -/
def isUtcTail : List Char → Bool
  | '.' :: more =>
    let digits := more.takeWhile Char.isDigit
    1 ≤ digits.length && digits.length ≤ 6 && more.dropWhile Char.isDigit == ['Z']
  | s => s == ['Z']

/-- `_RFC3339_UTC_PATTERN`, over ASCII digits: a text with others is not what
`isoformat` writes. -/
def isRfc3339Utc (text : List Char) : Bool :=
  match scanRfc3339 text with
  | some rest => isUtcTail rest
  | none => false

/-- `timestamp[:-1] + "+00:00"`, read and written back. -/
def canonicalTimestamp (py : PyVersion) (timestamp : String) : Option String :=
  match fromisoformat py (timestamp.toList.dropLast ++ ['+', '0', '0', ':', '0', '0']) with
  | some r => r.offset.map fun offset => String.ofList (isoformat (r.moment offset))
  | none => none

/-- A text `_durable_timestamp` accepts. -/
def IsDurableTimestamp (py : PyVersion) (v : String) : Prop :=
  v ≠ "" ∧ v.length ≤ 32 ∧ v = strip v ∧ isRfc3339Utc v.toList = true ∧
    canonicalTimestamp py v = some v

instance (py : PyVersion) (v : String) : Decidable (IsDurableTimestamp py v) :=
  inferInstanceAs (Decidable (_ ∧ _))

/-- `_durable_timestamp`. -/
def durableTimestamp (py : PyVersion) (value : Cell) (field : String) : Except BridgeError String :=
  let refused := integrity ("durable " ++ field ++ " must be a canonical RFC3339 UTC timestamp")
  match value with
  | .text v => if IsDurableTimestamp py v then .ok v else .error refused
  | _ => .error refused

/-- `_DOMAIN_PATTERN`. -/
def isDomain (text : String) : Bool :=
  match text.toList with
  | [] => false
  | c :: rest => ('a' ≤ c && c ≤ 'z') && rest.length ≤ 63 &&
    rest.all fun d => ('a' ≤ d && d ≤ 'z') || d.isDigit || d = '_'

/-- `_FILENAME_PATTERN`. -/
def isMigrationFilename (text : String) : Bool :=
  match text.toList with
  | [] => false
  | c :: rest => c.isAlphanum && ".up.sql".toList.isSuffixOf rest &&
    rest.all fun d => d.isAlphanum || d = '_' || d = '.' || d = '-'

/-! ## Reading -/

structure DomainMigrationLedgerRow where
  migrationId : Int
  filename : String
  sqlSha256 : String
  appliedAt : String
  deriving DecidableEq

structure DomainMigrationMetadataRow where
  migrationId : Int
  domain : String
  domainVersion : Int
  kind : DomainMigrationKind
  descriptorSha256 : String
  ownedSchemaSha256 : String
  recordedAt : String
  deriving DecidableEq

structure DomainMigrationDependencyRow where
  migrationId : Int
  dependsOnMigrationId : Int
  deriving DecidableEq

/-- The order of dependency rows. -/
def dependencyKey (row : DomainMigrationDependencyRow) : Int ×ₗ Int :=
  toLex (row.migrationId, row.dependsOnMigrationId)

def sortDependencies (rows : List DomainMigrationDependencyRow) : List DomainMigrationDependencyRow :=
  rows.insertionSort fun a b => dependencyKey a ≤ dependencyKey b

/-- The edges a list of descriptors declares, sorted. -/
def declaredDependencies (descriptors : List DomainMigrationDescriptor) :
    List DomainMigrationDependencyRow :=
  sortDependencies (descriptors.flatMap fun d => d.dependencies.map fun t => ⟨d.migrationId, t⟩)

inductive DomainMigrationBridgeShape where
  | legacyPrefix
  | sidecarEmptyPrefix
  | bridgedPrefix
  deriving DecidableEq

structure DomainMigrationBridgeState where
  shape : DomainMigrationBridgeShape
  legacySchemaVersion : Int
  ledgerRows : List DomainMigrationLedgerRow
  metadataRows : List DomainMigrationMetadataRow
  dependencyRows : List DomainMigrationDependencyRow
  registrySha256 : String
  deriving DecidableEq

/-- The rows of a query, at most so many. -/
def boundedRows {α : Type} (rows : List α) (maximum : Nat) (label : String) :
    Except BridgeError (List α) :=
  if rows.length ≤ maximum then .ok rows
  else .error (integrity (label ++ " could not be read within its hard limit"))

section Reading

variable {δ : Type} (rel : Release) (db : BridgeDatabase δ)

/-- `_legacy_ledger_is_present`. -/
def legacyLedgerIsPresent : Except BridgeError Bool :=
  match db.legacy.ledgerEntry with
  | none => .ok false
  | some (type, _) =>
    if type = "table" then .ok true
    else .error (integrity "legacy migration ledger catalog object is not the exact table type")

/-- A row of the ledger, decoded. -/
def decodeLedgerRow (row : LedgerRow) : Except BridgeError DomainMigrationLedgerRow := do
  let migrationId ← durableInteger (.integer row.version) "legacy migration ID" maxMigrationId
  let filename ← durableText (.text row.filename) "legacy migration filename" 255
  if isMigrationFilename filename then
    let sha256 ← durableSha256 (.text row.sha256) "legacy migration SQL sha256"
    let appliedAt ← durableTimestamp rel.py (.text row.appliedAt) "legacy migration applied_at"
    .ok ⟨migrationId, filename, sha256, appliedAt⟩
  else .error (integrity "durable legacy migration filename is not canonical")

/-- `_read_legacy_ledger_rows`. -/
def readLedgerRows : Except BridgeError (List DomainMigrationLedgerRow) :=
  match db.ledger with
  | .table t => do
    let rows ← boundedRows t.rows maxDomainMigrations "legacy migration ledger rows"
    rows.mapM (decodeLedgerRow rel)
  | _ => .error (integrity "legacy migration ledger rows could not be read within its hard limit")

/-- The ledger rows, none where there is no ledger. -/
def presentLedgerRows : Except BridgeError (List DomainMigrationLedgerRow) := do
  let present ← legacyLedgerIsPresent db
  if present then readLedgerRows rel db else .ok []

/-- `_MIGRATION_KINDS`. -/
def kindOfText (text : String) : Option DomainMigrationKind :=
  if text = "legacy_bootstrap" then some .legacyBootstrap
  else if text = "native" then some .native
  else none

/-- A row of the metadata table, decoded. -/
def decodeMetadataRow (row : MetadataCells) : Except BridgeError DomainMigrationMetadataRow := do
  let domain ← durableText row.domain "domain migration domain" 64
  if isDomain domain then
    let kindText ← durableText row.metadataKind "domain migration kind" 16
    match kindOfText kindText with
    | some kind =>
      let migrationId ← durableInteger row.migrationVersion "domain metadata migration ID"
        maxMigrationId
      let domainVersion ← durableInteger row.domainVersion "domain migration version" maxMigrationId
      let descriptorSha256 ← durableSha256 row.descriptorSha256 "domain migration descriptor sha256"
      let ownedSchemaSha256 ← durableSha256 row.ownedSchemaSha256
        "domain migration owned schema sha256"
      let recordedAt ← durableTimestamp rel.py row.recordedAt "domain migration recorded_at"
      .ok ⟨migrationId, domain, domainVersion, kind, descriptorSha256, ownedSchemaSha256, recordedAt⟩
    | none => .error (integrity "durable domain migration kind is unsupported")
  else .error (integrity "durable domain migration domain is not canonical")

/-- `_read_metadata_rows`. -/
def readMetadataRows : Except BridgeError (List DomainMigrationMetadataRow) := do
  let rows ← boundedRows db.metadata maxDomainMigrations "domain migration metadata rows"
  rows.mapM (decodeMetadataRow rel)

/-- A row of the dependency table, decoded. -/
def decodeDependencyRow (row : DependencyCells) : Except BridgeError DomainMigrationDependencyRow := do
  let migrationId ← durableInteger row.migrationVersion "dependency migration ID" maxMigrationId
  let target ← durableInteger row.dependsOnVersion "dependency target migration ID" maxMigrationId
  .ok ⟨migrationId, target⟩

/-- `_read_dependency_rows`. -/
def readDependencyRows : Except BridgeError (List DomainMigrationDependencyRow) := do
  let rows ← boundedRows db.dependencies maxDomainMigrations "domain migration dependency rows"
  rows.mapM decodeDependencyRow

/-- The descriptors of the first `n` migrations. -/
def Release.applied (n : Nat) : List DomainMigrationDescriptor := rel.registry.descriptors.take n

/-- `_validate_legacy_ledger_congruence`. -/
def validateLedgerCongruence (rows : List DomainMigrationLedgerRow) :
    Except BridgeError (List DomainMigrationDescriptor) :=
  let descriptors := rel.applied rows.length
  if rows.map (·.migrationId) ≠ descriptors.map (·.migrationId) then
    .error (integrity "legacy migration ledger is not a continuous supported registry prefix")
  else if (rows.zip descriptors).all fun p =>
      p.1.filename = p.2.filename && p.1.sqlSha256 = p.2.sqlSha256 then .ok descriptors
  else .error (integrity
    "legacy migration ledger filename or SQL digest differs from the registry")

/-- The names of the objects some descriptors own. -/
def ownedNames (descriptors : List DomainMigrationDescriptor) : List String :=
  descriptors.flatMap fun d => d.ownedObjects.map (·.name)

/-- `_reject_unapplied_legacy_owned_objects`. -/
def rejectUnappliedObjects (applied : List DomainMigrationDescriptor) : Except BridgeError Unit :=
  let unapplied := (ownedNames rel.registry.descriptors).filter (· ∉ ownedNames applied)
  (unapplied.insertionSort fun a b => a.toList ≤ b.toList).forM fun name => do
    let rows ← boundedRows (db.objects.filter fun o => o.name = name &&
      (o.type = "table" || o.type = "index" || o.type = "trigger" || o.type = "view")) 1
      "unapplied legacy owned schema catalog rows"
    if rows = [] then .ok ()
    else .error (integrity "schema object exists for an unapplied legacy registry migration")

/-- `_validate_metadata_congruence`. -/
def validateMetadataCongruence (rows : List DomainMigrationMetadataRow)
    (applied : List DomainMigrationDescriptor) : Except BridgeError Unit :=
  if rows.map (·.migrationId) ≠ applied.map (·.migrationId) then
    .error (integrity "domain migration metadata does not exactly cover the applied ledger prefix")
  else if (rows.zip applied).all fun p => p.1.domain = p.2.domain &&
      p.1.domainVersion = p.2.domainVersion && p.1.kind = .legacyBootstrap &&
      p.1.descriptorSha256 = p.2.descriptorSha256 &&
      p.1.ownedSchemaSha256 = p.2.ownedObjectManifestSha256 then .ok ()
  else .error (integrity "domain migration metadata differs from the exact registry descriptor")

/-- `_validate_dependency_congruence`. -/
def validateDependencyCongruence (rows : List DomainMigrationDependencyRow)
    (applied : List DomainMigrationDescriptor) : Except BridgeError Unit :=
  let ids := applied.map (·.migrationId)
  if ∃ row ∈ rows, row.migrationId ∉ ids ∨ row.dependsOnMigrationId ∉ ids then
    .error (integrity "domain migration dependency refers to an unapplied ledger row")
  else if rows ≠ declaredDependencies applied then
    .error (integrity "domain migration dependencies differ from the exact registry edges")
  else .ok ()

/-- An error of the schema validators, as the reader raises it. -/
def asInexact {ε α : Type} (message : String) : Except ε α → Except BridgeError α
  | .ok a => .ok a
  | .error _ => .error (integrity message)

/-- `_read_domain_migration_bridge_snapshot`, in its read snapshot. -/
def readBridgeState : Except BridgeError DomainMigrationBridgeState := do
  let ledgerRows ← presentLedgerRows rel db
  let applied ← validateLedgerCongruence rel ledgerRows
  rejectUnappliedObjects rel db applied
  let version ← asInexact "legacy migration ledger or owned schema is not exact"
    (validateSqliteSchema rel.package db.legacy)
  if (version : Int) ≠ (ledgerRows.getLast?.map (·.migrationId)).getD 0 then
    .error (integrity "legacy migration schema version changed during snapshot validation")
  else
    let sidecar ← asInexact "domain migration sidecar schema is not exact" (validateSidecarSchema db)
    match sidecar with
    | .absent => .ok ⟨.legacyPrefix, version, ledgerRows, [], [], rel.registry.registrySha256⟩
    | .exact =>
      let metadataRows ← readMetadataRows rel db
      let dependencyRows ← readDependencyRows db
      if metadataRows = [] then
        if dependencyRows = [] then
          .ok ⟨.sidecarEmptyPrefix, version, ledgerRows, [], [], rel.registry.registrySha256⟩
        else .error (integrity "empty domain migration metadata cannot have dependency rows")
      else
        validateMetadataCongruence metadataRows applied
        validateDependencyCongruence dependencyRows applied
        .ok ⟨.bridgedPrefix, version, ledgerRows, metadataRows, dependencyRows,
          rel.registry.registrySha256⟩

end Reading

/-! ## Schema states -/

inductive SchemaShape where
  | sidecarAbsent
  | empty
  | legacyPrefix
  | bridgedPrefix
  deriving DecidableEq

def SchemaShape.value : SchemaShape → String
  | .sidecarAbsent => "sidecar_absent"
  | .empty => "empty"
  | .legacyPrefix => "legacy_prefix"
  | .bridgedPrefix => "bridged_prefix"

structure AppliedSchemaMigration where
  migrationId : Int
  filename : String
  sqlSha256 : String
  domain : String
  domainVersion : Int
  kind : DomainMigrationKind
  descriptorSha256 : String
  ownedSchemaSha256 : String
  metadataRecorded : Bool
  deriving DecidableEq

structure SchemaDomainHead where
  domain : String
  domainVersion : Int
  migrationId : Int
  ownedSchemaSha256 : String
  metadataRecorded : Bool
  deriving DecidableEq

structure SchemaState where
  sidecarFormat : Int
  shape : SchemaShape
  legacySchemaVersion : Int
  appliedMigrations : List AppliedSchemaMigration
  domainHeads : List SchemaDomainHead
  dependencyEdges : List DomainMigrationDependencyRow
  ownedSchemaDigests : List (String × String)
  registrySha256 : String
  stateSha256 : String
  deriving DecidableEq

/-- `_schema_state_digest`, of every field but the digest. -/
def schemaStateDigest (s : SchemaState) : String :=
  canonicalSha256 (.dict [
    ("appliedMigrations", .list (s.appliedMigrations.map fun item => .dict [
      ("descriptorSha256", .str item.descriptorSha256),
      ("domain", .str item.domain),
      ("domainVersion", .int item.domainVersion),
      ("filename", .str item.filename),
      ("kind", .str item.kind.value),
      ("metadataRecorded", .bool item.metadataRecorded),
      ("migrationId", .int item.migrationId),
      ("ownedSchemaSha256", .str item.ownedSchemaSha256),
      ("sqlSha256", .str item.sqlSha256)])),
    ("dependencyEdges", .list (s.dependencyEdges.map fun item => .dict [
      ("dependsOnMigrationId", .int item.dependsOnMigrationId),
      ("migrationId", .int item.migrationId)])),
    ("domainHeads", .list (s.domainHeads.map fun item => .dict [
      ("domain", .str item.domain),
      ("domainVersion", .int item.domainVersion),
      ("metadataRecorded", .bool item.metadataRecorded),
      ("migrationId", .int item.migrationId),
      ("ownedSchemaSha256", .str item.ownedSchemaSha256)])),
    ("format", .str "qe.domain-migration-schema-state/1"),
    ("legacySchemaVersion", .int s.legacySchemaVersion),
    ("ownedSchemaDigests", .list (s.ownedSchemaDigests.map fun item => .dict [
      ("domain", .str item.1),
      ("ownedSchemaSha256", .str item.2)])),
    ("registrySha256", .str s.registrySha256),
    ("shape", .str s.shape.value),
    ("sidecarFormat", .int s.sidecarFormat)])

/-- `latest_by_domain`: the migrations of the highest version, each in the
place of its domain's first. -/
def latestByDomain : List AppliedSchemaMigration → List AppliedSchemaMigration →
    List AppliedSchemaMigration
  | latest, [] => latest
  | latest, m :: rest =>
    match latest.find? (fun h => h.domain = m.domain) with
    | none => latestByDomain (latest ++ [m]) rest
    | some previous =>
      if m.domainVersion > previous.domainVersion then
        latestByDomain (latest.map fun h => if h.domain = m.domain then m else h) rest
      else latestByDomain latest rest

/-- The order of domain heads; UTF-8 keeps the order of the characters. -/
def headKey (h : SchemaDomainHead) : List Char ×ₗ Int ×ₗ Int :=
  toLex (h.domain.toList, toLex (h.domainVersion, h.migrationId))

section States

variable (rel : Release)

/-- `_build_schema_state`. -/
def buildSchemaState (shape : SchemaShape) (descriptors : List DomainMigrationDescriptor)
    (dependencyEdges : List DomainMigrationDependencyRow) : SchemaState :=
  let recorded : Bool := shape = .bridgedPrefix
  let applied := descriptors.map fun d => (⟨d.migrationId, d.filename, d.sqlSha256, d.domain,
    d.domainVersion, d.kind, d.descriptorSha256, d.ownedObjectManifestSha256, recorded⟩ :
      AppliedSchemaMigration)
  let heads := ((latestByDomain [] applied).map fun m => (⟨m.domain, m.domainVersion, m.migrationId,
    m.ownedSchemaSha256, m.metadataRecorded⟩ : SchemaDomainHead)).insertionSort
      fun a b => headKey a ≤ headKey b
  let state : SchemaState :=
    { sidecarFormat := if shape = .sidecarAbsent then 0 else 1
      shape := shape
      legacySchemaVersion := (descriptors.getLast?.map (·.migrationId)).getD 0
      appliedMigrations := applied
      domainHeads := heads
      dependencyEdges := sortDependencies dependencyEdges
      ownedSchemaDigests := heads.map fun h => (h.domain, h.ownedSchemaSha256)
      registrySha256 := rel.registry.registrySha256
      stateSha256 := "" }
  { state with stateSha256 := schemaStateDigest state }

/-- `_validate_schema_state_models`, of one collection after the other. -/
def validateSchemaStateModels (s : SchemaState) : Except BridgeError Unit := do
  let scalar := planning "schema state contains a non-canonical scalar"
  let positive (v : Int) : Bool := 0 < v && v ≤ maxMigrationId
  if s.sidecarFormat ≠ 0 ∧ s.sidecarFormat ≠ 1 then
    .error (planning "schema state sidecar format is unsupported")
  else if s.legacySchemaVersion < 0 ∨ s.legacySchemaVersion > maxMigrationId then
    .error (planning "schema state legacy version is unsupported")
  else if !(isSha256 s.registrySha256 && isSha256 s.stateSha256) then .error scalar
  else
    s.appliedMigrations.forM fun m =>
      if !(positive m.migrationId && isSha256 m.sqlSha256) then .error scalar
      else if !isDomain m.domain then .error (planning "schema state domain is not canonical")
      else if !positive m.domainVersion then .error scalar
      else if m.kind ≠ .legacyBootstrap then
        .error (planning "bridge-only planning refuses non-legacy applied migrations")
      else if !(isSha256 m.descriptorSha256 && isSha256 m.ownedSchemaSha256) then .error scalar
      else .ok ()
    s.domainHeads.forM fun h =>
      if !isDomain h.domain then .error (planning "schema state domain is not canonical")
      else if !(positive h.domainVersion && positive h.migrationId && isSha256 h.ownedSchemaSha256)
      then .error scalar
      else .ok ()
    s.dependencyEdges.forM fun e =>
      if !(positive e.migrationId && positive e.dependsOnMigrationId) then .error scalar else .ok ()
    s.ownedSchemaDigests.forM fun p =>
      if !isDomain p.1 then .error (planning "owned schema digest domain is not canonical")
      else if !isSha256 p.2 then .error scalar
      else .ok ()

/-- `_validate_schema_state`: the descriptors of the migrations applied. -/
def validateSchemaState (s : SchemaState) : Except BridgeError (List DomainMigrationDescriptor) := do
  validateSchemaStateModels s
  let ids := s.appliedMigrations.map (·.migrationId)
  let descriptors := rel.applied ids.length
  if s.registrySha256 ≠ rel.registry.registrySha256 then
    .error (planning "schema state registry digest differs from the trusted registry")
  else if ids ≠ descriptors.map (·.migrationId) then
    .error (planning "bridge-only schema state must be a continuous legacy registry prefix")
  else
    descriptors.forM fun d =>
      if d.kind ≠ .legacyBootstrap then
        .error (planning "bridge-only planning refuses non-legacy registry descriptors")
      else if ∃ t ∈ d.dependencies, t ∉ ids then
        .error (planning "bridge-only schema state has an unapplied dependency")
      else .ok ()
    if s.shape = .empty ∧ descriptors ≠ [] then
      .error (planning "empty schema state cannot have applied migrations")
    else if (s.shape = .legacyPrefix ∨ s.shape = .bridgedPrefix) ∧ descriptors = [] then
      .error (planning "non-empty schema state must have an applied legacy prefix")
    else
      let edges := if s.shape = .bridgedPrefix then declaredDependencies descriptors else []
      if s ≠ buildSchemaState rel s.shape descriptors edges then
        .error (planning
          "schema state differs from its canonical registry-bound representation")
      else .ok descriptors

/-- `_schema_state_from_bridge_state`. -/
def schemaStateFromBridgeState (b : DomainMigrationBridgeState) : Except BridgeError SchemaState :=
  let descriptors := rel.applied b.ledgerRows.length
  if descriptors.map (·.migrationId) ≠ b.ledgerRows.map (·.migrationId) then
    .error (integrity "bridge state cannot be represented as a registry-bound schema state")
  else
    match b.shape with
    | .legacyPrefix => .ok (buildSchemaState rel .sidecarAbsent descriptors [])
    | .sidecarEmptyPrefix =>
      .ok (buildSchemaState rel (if descriptors = [] then .empty else .legacyPrefix) descriptors [])
    | .bridgedPrefix => .ok (buildSchemaState rel .bridgedPrefix descriptors b.dependencyRows)

/-- `inspect_schema_state`, in its read snapshot. -/
def inspectSchemaState {δ : Type} (db : BridgeDatabase δ) : Except BridgeError SchemaState := do
  let bridge ← readBridgeState rel db
  let state ← schemaStateFromBridgeState rel bridge
  let _ ← validateSchemaState rel state
  .ok state

end States

/-! ## What a reading found -/

section Found

variable {δ : Type} {rel : Release}

/-- The shape of the sidecar tables behind a bridge shape. -/
def DomainMigrationBridgeShape.sidecar : DomainMigrationBridgeShape → SidecarSchemaState
  | .legacyPrefix => .absent
  | .sidecarEmptyPrefix => .exact
  | .bridgedPrefix => .exact

theorem validateLedgerCongruence_ok {rows : List DomainMigrationLedgerRow}
    {applied : List DomainMigrationDescriptor}
    (h : validateLedgerCongruence rel rows = .ok applied) :
    applied = rel.applied rows.length ∧ rows.map (·.migrationId) = applied.map (·.migrationId) := by
  unfold validateLedgerCongruence at h
  simp only at h
  split at h
  · simp at h
  next hids =>
    split at h
    · obtain rfl := Except.ok.inj h
      exact ⟨rfl, Classical.not_not.mp hids⟩
    · simp at h

/-- What a bridge state read from a database says of it. -/
structure ReadFrom (rel : Release) (db : BridgeDatabase δ) (b : DomainMigrationBridgeState) : Prop where
  ledger : presentLedgerRows rel db = .ok b.ledgerRows
  ids : b.ledgerRows.map (·.migrationId) =
    (rel.applied b.ledgerRows.length).map (·.migrationId)
  sidecar : validateSidecarSchema db = .ok b.shape.sidecar

theorem asInexact_ok {ε α : Type} {message : String} {r : Except ε α} {a : α} :
    asInexact message r = .ok a ↔ r = .ok a := by
  cases r <;> simp [asInexact]

theorem readBridgeState_ok {db : BridgeDatabase δ} {b : DomainMigrationBridgeState}
    (h : readBridgeState rel db = .ok b) : ReadFrom rel db b := by
  unfold readBridgeState at h
  simp only [except_bind_ok] at h
  obtain ⟨ledgerRows, hrows, applied, happlied, _, -, version, -, h⟩ := h
  obtain ⟨rfl, hids⟩ := validateLedgerCongruence_ok happlied
  split at h
  · simp at h
  · simp only [except_bind_ok, asInexact_ok] at h
    obtain ⟨sidecar, hsidecar, h⟩ := h
    cases sidecar with
    | absent =>
      obtain rfl := Except.ok.inj h
      exact ⟨hrows, hids, hsidecar⟩
    | exact =>
      simp only [except_bind_ok] at h
      obtain ⟨metadataRows, -, dependencyRows, -, h⟩ := h
      split at h
      · split at h
        · obtain rfl := Except.ok.inj h
          exact ⟨hrows, hids, hsidecar⟩
        · simp at h
      · simp only [except_bind_ok] at h
        obtain ⟨_, -, _, -, h⟩ := h
        obtain rfl := Except.ok.inj h
        exact ⟨hrows, hids, hsidecar⟩

/-- Two databases with one ledger are read with the same ledger rows. -/
theorem ReadFrom.ledgerRows_eq {d d' : BridgeDatabase δ} {b b' : DomainMigrationBridgeState}
    (h : ReadFrom rel d b) (h' : ReadFrom rel d' b') (hledger : d'.ledger = d.ledger) :
    b'.ledgerRows = b.ledgerRows := by
  have hread : presentLedgerRows rel d' = presentLedgerRows rel d := by
    unfold presentLedgerRows legacyLedgerIsPresent readLedgerRows BridgeDatabase.legacy
      Database.ledgerEntry
    rw [hledger]
  have hrows := h'.ledger
  rw [hread, h.ledger] at hrows
  exact (Except.ok.inj hrows).symm

/-- The bridge shape a schema state of a given shape was read with. -/
def SchemaShape.bridge : SchemaShape → DomainMigrationBridgeShape
  | .sidecarAbsent => .legacyPrefix
  | .empty | .legacyPrefix => .sidecarEmptyPrefix
  | .bridgedPrefix => .bridgedPrefix

theorem Release.applied_length_applied (rel : Release) (n : Nat) :
    rel.applied (rel.applied n).length = rel.applied n := by
  simp [Release.applied, List.take_take]

/-- An inspected state, with the bridge state it was made from. -/
theorem inspectSchemaState_ok {db : BridgeDatabase δ} {s : SchemaState}
    (h : inspectSchemaState rel db = .ok s) :
    ∃ b descriptors, ReadFrom rel db b ∧ b.shape = s.shape.bridge ∧
      s.appliedMigrations.length = (rel.applied b.ledgerRows.length).length ∧
      validateSchemaState rel s = .ok descriptors := by
  unfold inspectSchemaState at h
  simp only [except_bind_ok] at h
  obtain ⟨b, hread, state, hstate, descriptors, hvalid, h⟩ := h
  obtain rfl := Except.ok.inj h
  refine ⟨b, descriptors, readBridgeState_ok hread, ?_, ?_, hvalid⟩ <;>
  · unfold schemaStateFromBridgeState at hstate
    simp only at hstate
    split at hstate
    · simp at hstate
    · split at hstate <;> obtain rfl := Except.ok.inj hstate
      · simp [buildSchemaState, SchemaShape.bridge, *]
      · simp only [buildSchemaState, List.length_map, *]
        try (split <;> rfl)
      · simp [buildSchemaState, SchemaShape.bridge, *]

end Found

end QuantumEntanglement.Migrations
