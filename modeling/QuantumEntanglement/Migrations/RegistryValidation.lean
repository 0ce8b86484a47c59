import QuantumEntanglement.Lib.KahnSort
import QuantumEntanglement.Migrations.BridgeState

/-
  Registry validation — which migration descriptors make a registry

  A registry is made of the descriptors of the packaged migrations. Each is
  normalized on its own; the rest is checked over all of them in order of
  their ids: that no id, filename or coordinate comes twice, that the versions
  of every domain are `1..k`, that one domain owns each object, that the
  dependencies are known and without cycle, that the packaged scripts are the
  ones described, and that the legacy migrations are described as shipped.

  What is proved:
    1. `normalizeDescriptor_ok` — a descriptor is accepted exactly if it is
       well formed, and is then put in its normal form.
    2. `appendVersion_spec`, `claimObjects_ok`, `coordinateLoop_ok` — what one
       round of the loop over the descriptors does, and what the loop has seen.
    3. `validateUniqueCoordinates_ok` — the coordinates are accepted exactly
       if they are consistent and the versions of every domain are `1..k`.
-/

namespace QuantumEntanglement.Migrations

open PyJson PyText Sha256 Checked

/-! ## One descriptor -/

def maxMigrationDependencies : Nat := 256

def maxOwnedSchemaObjects : Nat := 1024

def maxMigrationDomains : Nat := 256

def maxMigrationFilenameLength : Nat := 255

def maxSchemaObjectNameLength : Nat := 128

def refused {α : Type} (message : String) : Except MigrationError α := .error (.value message)

/-- `_bounded_tuple`. -/
def boundedTuple {α : Type} (values : List α) (maximum : Nat) (label : String) :
    Except MigrationError (List α) :=
  if values.length > maximum then
    refused (label ++ " exceeds the hard limit of " ++ toString maximum)
  else .ok values

/-- `_require_positive_integer`. -/
def requirePositiveInteger (value : Int) (label : String) : Except MigrationError Unit :=
  if value ≤ 0 ∨ value > maxMigrationId then
    refused (label ++ " must be between 1 and " ++ toString maxMigrationId)
  else .ok ()

/-- `_require_sha256`. -/
def requireSha256 (value label : String) : Except MigrationError Unit :=
  if isSha256 value then .ok ()
  else refused (label ++ " must be 64 lowercase hexadecimal characters")

/-- `_SCHEMA_OBJECT_NAME_PATTERN`. -/
def isSchemaObjectName (text : String) : Bool :=
  match text.toList with
  | [] => false
  | c :: rest => (c.isAlpha || c = '_') && rest.length ≤ 127 &&
    rest.all fun d => d.isAlphanum || d = '_'

def schemaObjectTypes : List String := ["index", "table", "trigger", "view"]

/-- `repr` of a text of the patterns here, which hold no quote. -/
def quoted (text : String) : String := String.ofList (singleQuote :: text.toList ++ [singleQuote])

/-- The checks of one owned object. -/
def checkOwnedObject (item : OwnedSchemaObject) : Except MigrationError Unit :=
  if item.objectType ∉ schemaObjectTypes then
    refused "schema object type must be one of index, table, trigger, or view"
  else if item.name.length > maxSchemaObjectNameLength ∨ !isSchemaObjectName item.name then
    refused "schema object name must be a bounded ASCII SQLite identifier"
  else requireSha256 item.ddlSha256 "schema object DDL sha256"

def OwnedSchemaObject.coordinate (item : OwnedSchemaObject) : String × String :=
  (item.objectType, item.name)

/-- The loop over the owned objects, with the coordinates seen. -/
def ownedObjectLoop (migrationId : Int) : List (String × String) → List OwnedSchemaObject →
    Except MigrationError Unit
  | _, [] => .ok ()
  | seen, item :: rest => do
    checkOwnedObject item
    if item.coordinate ∈ seen then
      refused ("migration " ++ toString migrationId ++ " has duplicate owned object " ++
        item.objectType ++ " " ++ quoted item.name)
    else ownedObjectLoop migrationId (item.coordinate :: seen) rest

/-- The order of owned objects. -/
def ownedKey (item : OwnedSchemaObject) : List Char ×ₗ List Char ×ₗ List Char :=
  toLex (item.objectType.toList, toLex (item.name.toList, item.ddlSha256.toList))

def sortOwnedObjects (items : List OwnedSchemaObject) : List OwnedSchemaObject :=
  items.insertionSort fun a b => ownedKey a ≤ ownedKey b

/-- `_validate_owned_objects`. -/
def validateOwnedObjects (values : List OwnedSchemaObject) (migrationId : Int) :
    Except MigrationError (List OwnedSchemaObject) := do
  let objects ← boundedTuple values maxOwnedSchemaObjects
    ("migration " ++ toString migrationId ++ " owned schema objects")
  ownedObjectLoop migrationId [] objects
  .ok (sortOwnedObjects objects)

/-- The loop over the dependencies, with those seen. -/
def dependencyLoop (migrationId : Int) : List Int → List Int → Except MigrationError Unit
  | _, [] => .ok ()
  | seen, dependency :: rest => do
    requirePositiveInteger dependency ("migration " ++ toString migrationId ++ " dependency")
    if dependency ∈ seen then
      refused ("migration " ++ toString migrationId ++ " has duplicate dependencies")
    else dependencyLoop migrationId (dependency :: seen) rest

/-- `_normalize_descriptor`. -/
def normalizeDescriptor (d : DomainMigrationDescriptor) :
    Except MigrationError DomainMigrationDescriptor := do
  requirePositiveInteger d.migrationId "migration ID"
  if d.filename.length > maxMigrationFilenameLength ∨ !isMigrationFilename d.filename then
    refused "migration filename must be a bounded basename ending in .up.sql"
  else
    requireSha256 d.sqlSha256 "migration SQL sha256"
    if !isDomain d.domain then
      refused "migration domain must be a bounded lower-snake-case identifier"
    else
      requirePositiveInteger d.domainVersion "domain version"
      let dependencies ← boundedTuple d.dependencies maxMigrationDependencies
        ("migration " ++ toString d.migrationId ++ " dependencies")
      dependencyLoop d.migrationId [] dependencies
      let ownedObjects ← validateOwnedObjects d.ownedObjects d.migrationId
      .ok { d with
        dependencies := dependencies.insertionSort (· ≤ ·)
        ownedObjects := ownedObjects }

/-! ## All descriptors -/

/-- `domain_versions.setdefault(domain, []).append(version)`. -/
def appendVersion (versions : List (String × List Int)) (domain : String) (version : Int) :
    List (String × List Int) :=
  if domain ∈ versions.map Prod.fst then
    versions.map fun entry => if entry.1 = domain then (entry.1, entry.2 ++ [version]) else entry
  else versions ++ [(domain, [version])]

/-- `object_owners.setdefault(name, domain)` for the objects of a descriptor. -/
def claimObjects (domain : String) : (String → Option String) → List OwnedSchemaObject →
    Except MigrationError (String → Option String)
  | owners, [] => .ok owners
  | owners, item :: rest =>
    if (owners item.name).getD domain ≠ domain then
      refused ("schema object " ++ quoted item.name ++ " is claimed by multiple domains")
    else claimObjects domain (Function.update owners item.name (some domain)) rest

/-- What the loop over the descriptors has seen. -/
structure Coordinates where
  migrationIds : List Int
  filenames : List String
  domainCoordinates : List (String × Int)
  domainVersions : List (String × List Int)
  objectOwners : String → Option String

def DomainMigrationDescriptor.coordinate (d : DomainMigrationDescriptor) : String × Int :=
  (d.domain, d.domainVersion)

def noCoordinates : Coordinates := ⟨[], [], [], [], fun _ => none⟩

def coordinateLoop : Coordinates → List DomainMigrationDescriptor → Except MigrationError Coordinates
  | c, [] => .ok c
  | c, d :: rest =>
    if d.migrationId ∈ c.migrationIds then
      refused ("duplicate migration ID " ++ toString d.migrationId)
    else if d.filename ∈ c.filenames then
      refused ("duplicate migration filename " ++ quoted d.filename)
    else if d.coordinate ∈ c.domainCoordinates then
      refused ("duplicate domain migration coordinate " ++ d.domain ++ "@" ++
        toString d.domainVersion)
    else do
      let owners ← claimObjects d.domain c.objectOwners d.ownedObjects
      coordinateLoop ⟨d.migrationId :: c.migrationIds, d.filename :: c.filenames,
        d.coordinate :: c.domainCoordinates,
        appendVersion c.domainVersions d.domain d.domainVersion, owners⟩ rest

/-- `list(range(1, k + 1))`. -/
def versionsUpTo (k : Nat) : List Int := (List.range' 1 k).map Int.ofNat

/-- `_validate_unique_coordinates`. -/
def validateUniqueCoordinates (descriptors : List DomainMigrationDescriptor) :
    Except MigrationError Unit := do
  let c ← coordinateLoop noCoordinates descriptors
  if c.domainVersions.length > maxMigrationDomains then
    refused ("migration registry exceeds the hard limit of " ++ toString maxMigrationDomains ++
      " domains")
  else
    c.domainVersions.forM fun entry =>
      if entry.2.insertionSort (· ≤ ·) ≠ versionsUpTo entry.2.length then
        refused ("domain " ++ quoted entry.1 ++
          " versions must be a continuous prefix starting at one")
      else .ok ()

section Graphs

variable (descriptors : List DomainMigrationDescriptor)

/-- The dependencies of a migration; `indegree` counts them. -/
def dependenciesOf (migrationId : Int) : List Int :=
  match descriptors.find? (fun d => d.migrationId = migrationId) with
  | some d => d.dependencies
  | none => []

/-- `dependents`. -/
def dependentsOf (migrationId : Int) : List Int :=
  descriptors.flatMap fun d => (d.dependencies.filter (· = migrationId)).map fun _ => d.migrationId

/-- The migrations in the order Kahn's loop takes them. -/
def dependencyOrder : List Int :=
  KahnSort.order (dependenciesOf descriptors) (dependentsOf descriptors)
    (descriptors.map (·.migrationId))

/-- The text of a list of integers. -/
def integerList (values : List Int) : String := "[" ++ ", ".intercalate (values.map toString) ++ "]"

/-- `_validate_dependency_graph`. -/
def validateDependencyGraph : Except MigrationError Unit := do
  descriptors.forM fun d =>
    let unknown := d.dependencies.filter fun b => decide (b ∉ descriptors.map (·.migrationId))
    if d.migrationId ∈ d.dependencies then
      refused ("migration " ++ toString d.migrationId ++ " cannot depend on itself")
    else if unknown ≠ [] then
      refused ("migration " ++ toString d.migrationId ++ " has unknown dependencies " ++
        integerList (unknown.insertionSort (· ≤ ·)))
    else .ok ()
  if (dependencyOrder descriptors).length ≠ descriptors.length then
    refused "migration dependency graph must be acyclic"
  else .ok ()

end Graphs

/-! ## What is packaged -/

/-- What a binary ships: its migrations, the scripts found under their
filenames, and the descriptors of the legacy migrations. -/
structure Packaged where
  migrations : List Migration
  migrationText : String → Option String
  legacy : List DomainMigrationDescriptor

/-- `migration.version`. -/
def Migration.id (m : Migration) : Int := m.version

/-- The loop over the packaged migrations. -/
def packagedLoop : List Int → List String → List Migration → Except MigrationError Unit
  | _, _, [] => .ok ()
  | ids, filenames, m :: rest =>
    if m.id ∈ ids then refused ("packaged migrations have duplicate ID " ++ toString m.id)
    else if m.filename ∈ filenames then
      refused ("packaged migrations have duplicate filename " ++ quoted m.filename)
    else packagedLoop (m.id :: ids) (m.filename :: filenames) rest

section Packages

variable (pkg : Packaged)

/-- The checks of one descriptor against the migration of its id. -/
def checkPackaged (d : DomainMigrationDescriptor) (m : Migration) : Except MigrationError Unit :=
  if d.filename ≠ m.filename then
    refused ("migration " ++ toString d.migrationId ++ " filename differs from packaged migration")
  else
    match pkg.migrationText m.filename with
    | none => refused ("migration " ++ toString d.migrationId ++ " packaged SQL is missing")
    | some sql =>
      if d.sqlSha256 ≠ hexDigest sql then
        refused ("migration " ++ toString d.migrationId ++
          " SQL digest differs from packaged migration")
      else .ok ()

/-- The ids of `a` that `b` lacks, sorted. -/
def missingIds (a b : List Int) : List Int :=
  (a.filter fun x => decide (x ∉ b)).insertionSort (· ≤ ·)

/-- `_validate_packaged_migrations`. -/
def validatePackagedMigrations (descriptors : List DomainMigrationDescriptor) :
    Except MigrationError Unit := do
  let packaged ← boundedTuple pkg.migrations maxDomainMigrations "packaged migrations"
  packagedLoop [] [] packaged
  let described := descriptors.map (·.migrationId)
  let shipped := packaged.map (·.id)
  if missingIds shipped described ≠ [] ∨ missingIds described shipped ≠ [] then
    refused ("domain migration descriptors must exactly cover packaged migrations; missing=" ++
      integerList (missingIds shipped described) ++ ", unknown=" ++
      integerList (missingIds described shipped))
  else
    descriptors.forM fun d =>
      match packaged.find? (fun m => m.id = d.migrationId) with
      | some m => checkPackaged pkg d m
      | none => .ok ()

/-- `trusted_by_id.get(migration_id)`: the last of several. -/
def trustedById (migrationId : Int) : Option DomainMigrationDescriptor :=
  pkg.legacy.reverse.find? fun d => d.migrationId = migrationId

def validateLegacy (descriptors : List DomainMigrationDescriptor) : Except MigrationError Unit :=
  descriptors.forM fun d =>
    match trustedById pkg d.migrationId with
    | none => .ok ()
    | some trusted =>
      if d ≠ trusted then
        refused ("legacy migration " ++ toString d.migrationId ++
          " descriptor differs from the immutable bootstrap mapping")
      else .ok ()

/-! ## The registry -/

/-- `descriptor_sha256`, of a descriptor that may not be in normal form. -/
def descriptorDigest (d : DomainMigrationDescriptor) : Except MigrationError String := do
  let normal ← normalizeDescriptor d
  .ok normal.descriptorSha256

/-- `_registry_digest`. -/
def registryDigest (descriptors : List DomainMigrationDescriptor) : Except MigrationError String := do
  let items ← descriptors.mapM fun d => do
    let digest ← descriptorDigest d
    .ok (Value.dict [("descriptorSha256", .str digest), ("migrationId", .int d.migrationId)])
  .ok (canonicalSha256 (.dict [
    ("descriptors", .list items),
    ("format", .str "qe.domain-migration-registry/1")]))

/-- Sorted by migration id. -/
def sortById (descriptors : List DomainMigrationDescriptor) : List DomainMigrationDescriptor :=
  descriptors.insertionSort fun a b => a.migrationId ≤ b.migrationId

/-- What is checked and made of the normal forms, in order. -/
def buildRegistry (ordered : List DomainMigrationDescriptor) :
    Except MigrationError DomainMigrationRegistry := do
  validateUniqueCoordinates ordered
  validateDependencyGraph ordered
  validatePackagedMigrations pkg ordered
  validateLegacy pkg ordered
  let digest ← registryDigest ordered
  .ok ⟨ordered, digest⟩

/-- `validate_domain_migration_registry`. -/
def validateDomainMigrationRegistry (descriptors : List DomainMigrationDescriptor) :
    Except MigrationError DomainMigrationRegistry := do
  let raw ← boundedTuple descriptors maxDomainMigrations "domain migration descriptors"
  let normalized ← raw.mapM normalizeDescriptor
  buildRegistry pkg (sortById normalized)

end Packages

/-! ## What the checks of one descriptor say -/

section Checks

variable {α : Type}

@[simp] theorem refused_ok {message : String} {a : α} : ¬ refused message = .ok a :=
  fun h => nomatch h

/-- A check that passed, and what comes after it. -/
theorem check_ok {c : Prop} [Decidable c] {message : String} {x : Except MigrationError α} {a : α} :
    (if c then refused message else x) = .ok a ↔ ¬c ∧ x = .ok a := by
  by_cases hc : c
  · simp [hc]
  · simp [hc]

/-- A check of every element, at the end or before what comes after it. -/
theorem forEach_ok {ε : Type} {f : α → Except ε Unit} {l : List α} {u : Unit} :
    l.forM f = .ok u ↔ ∀ a ∈ l, f a = .ok () := Checked.forM_ok

theorem boundedTuple_ok {values taken : List α} {maximum : Nat} {label : String} :
    boundedTuple values maximum label = .ok taken ↔ values.length ≤ maximum ∧ taken = values := by
  rw [boundedTuple, check_ok, Except.ok.injEq, Nat.not_lt]
  exact and_congr_right fun _ => eq_comm

theorem requirePositiveInteger_ok {value : Int} {label : String} {u : Unit} :
    requirePositiveInteger value label = .ok u ↔ 0 < value ∧ value ≤ maxMigrationId := by
  rw [requirePositiveInteger, check_ok]
  constructor
  · intro h
    exact ⟨by omega, by omega⟩
  · intro h
    exact ⟨by omega, rfl⟩

theorem requireSha256_ok {value label : String} {u : Unit} :
    requireSha256 value label = .ok u ↔ isSha256 value = true := by
  rw [requireSha256]
  split
  next h => simp [h]
  next h => simp [h]

end Checks

/-- An owned object with a known type, a name and a digest. -/
def OwnedOk (item : OwnedSchemaObject) : Prop :=
  item.objectType ∈ schemaObjectTypes ∧ item.name.length ≤ maxSchemaObjectNameLength ∧
    isSchemaObjectName item.name = true ∧ isSha256 item.ddlSha256 = true

theorem checkOwnedObject_ok {item : OwnedSchemaObject} {u : Unit} :
    checkOwnedObject item = .ok u ↔ OwnedOk item := by
  rw [checkOwnedObject, check_ok, check_ok, requireSha256_ok, OwnedOk]
  simp [and_assoc]

theorem ownedObjectLoop_ok {migrationId : Int} {items : List OwnedSchemaObject} {u : Unit} :
    ∀ {seen : List (String × String)}, ownedObjectLoop migrationId seen items = .ok u ↔
      (∀ item ∈ items, OwnedOk item) ∧ (items.map (·.coordinate)).Nodup ∧
        ∀ item ∈ items, item.coordinate ∉ seen := by
  induction items with
  | nil =>
    intro seen
    simp [ownedObjectLoop]
  | cons item rest ih =>
    intro seen
    rw [ownedObjectLoop, except_bind_ok]
    simp only [checkOwnedObject_ok, check_ok, ih, List.forall_mem_cons, List.map_cons,
      List.nodup_cons, List.mem_map, not_exists, not_and]
    simp only [List.mem_cons, not_or]
    constructor
    · intro h
      obtain ⟨-, hitem, hnew, hrest, hnodup, hall⟩ := h
      exact ⟨⟨hitem, hrest⟩, ⟨fun other hmem heq => (hall other hmem).1 heq, hnodup⟩, hnew,
        fun other hmem => (hall other hmem).2⟩
    · intro h
      obtain ⟨⟨hitem, hrest⟩, ⟨hdiffer, hnodup⟩, hnew, hall⟩ := h
      exact ⟨(), hitem, hnew, hrest, hnodup, fun other hmem => ⟨hdiffer other hmem, hall other hmem⟩⟩

theorem dependencyLoop_ok {migrationId : Int} {dependencies : List Int} {u : Unit} :
    ∀ {seen : List Int}, dependencyLoop migrationId seen dependencies = .ok u ↔
      (∀ b ∈ dependencies, 0 < b ∧ b ≤ maxMigrationId) ∧ dependencies.Nodup ∧
        ∀ b ∈ dependencies, b ∉ seen := by
  induction dependencies with
  | nil =>
    intro seen
    simp [dependencyLoop]
  | cons b rest ih =>
    intro seen
    rw [dependencyLoop, except_bind_ok]
    simp only [requirePositiveInteger_ok, check_ok, ih, List.forall_mem_cons, List.nodup_cons]
    simp only [List.mem_cons, not_or]
    constructor
    · intro h
      obtain ⟨-, hb, hnew, hrest, hnodup, hall⟩ := h
      exact ⟨⟨hb, hrest⟩, ⟨fun hmem => (hall b hmem).1 rfl, hnodup⟩, hnew,
        fun c hc => (hall c hc).2⟩
    · intro h
      obtain ⟨⟨hb, hrest⟩, ⟨hdiffer, hnodup⟩, hnew, hall⟩ := h
      exact ⟨(), hb, hnew, hrest, hnodup,
        fun c hc => ⟨fun heq => hdiffer (heq ▸ hc), hall c hc⟩⟩

/-- A descriptor whose fields are of the forms and within the bounds set. -/
structure WellFormed (d : DomainMigrationDescriptor) : Prop where
  migrationId : 0 < d.migrationId ∧ d.migrationId ≤ maxMigrationId
  filename : d.filename.length ≤ maxMigrationFilenameLength ∧ isMigrationFilename d.filename = true
  sqlSha256 : isSha256 d.sqlSha256 = true
  domain : isDomain d.domain = true
  domainVersion : 0 < d.domainVersion ∧ d.domainVersion ≤ maxMigrationId
  dependencyCount : d.dependencies.length ≤ maxMigrationDependencies
  dependencyIds : ∀ b ∈ d.dependencies, 0 < b ∧ b ≤ maxMigrationId
  dependenciesNodup : d.dependencies.Nodup
  objectCount : d.ownedObjects.length ≤ maxOwnedSchemaObjects
  objects : ∀ item ∈ d.ownedObjects, OwnedOk item
  objectsNodup : (d.ownedObjects.map (·.coordinate)).Nodup

/-- The descriptor with its collections sorted. -/
def normalForm (d : DomainMigrationDescriptor) : DomainMigrationDescriptor :=
  { d with
    dependencies := d.dependencies.insertionSort (· ≤ ·)
    ownedObjects := sortOwnedObjects d.ownedObjects }

theorem validateOwnedObjects_ok {values sorted : List OwnedSchemaObject} {migrationId : Int} :
    validateOwnedObjects values migrationId = .ok sorted ↔
      values.length ≤ maxOwnedSchemaObjects ∧ (∀ item ∈ values, OwnedOk item) ∧
        (values.map (·.coordinate)).Nodup ∧ sorted = sortOwnedObjects values := by
  simp only [validateOwnedObjects, except_bind_ok, boundedTuple_ok, ownedObjectLoop_ok,
    Except.ok.injEq]
  constructor
  · intro h
    obtain ⟨_, ⟨hlen, rfl⟩, _, ⟨hall, hnodup, _⟩, rfl⟩ := h
    exact ⟨hlen, hall, hnodup, rfl⟩
  · intro h
    obtain ⟨hlen, hall, hnodup, rfl⟩ := h
    exact ⟨values, ⟨hlen, rfl⟩, (), ⟨hall, hnodup, fun _ _ => List.not_mem_nil⟩, rfl⟩

/-- **A descriptor is accepted** exactly if it is well formed. -/
theorem normalizeDescriptor_ok {d n : DomainMigrationDescriptor} :
    normalizeDescriptor d = .ok n ↔ WellFormed d ∧ n = normalForm d := by
  simp only [normalizeDescriptor, except_bind_ok, check_ok, requirePositiveInteger_ok,
    requireSha256_ok, boundedTuple_ok, dependencyLoop_ok, validateOwnedObjects_ok, Except.ok.injEq,
    not_or, Nat.not_lt, Bool.not_eq_true, Bool.not_eq_false']
  constructor
  · intro h
    obtain ⟨_, hid, hname, _, hsql, hdomain, _, hversion, _, ⟨hcount, rfl⟩, _, ⟨hids, hnodup, _⟩,
      _, ⟨hlen, hall, hobjects, rfl⟩, rfl⟩ := h
    exact ⟨⟨hid, by simpa using hname, hsql, by simpa using hdomain, hversion, hcount, hids, hnodup,
      hlen, hall, hobjects⟩, rfl⟩
  · intro h
    obtain ⟨hw, rfl⟩ := h
    exact ⟨(), hw.migrationId, by simpa using hw.filename, (), hw.sqlSha256,
      by simpa using hw.domain, (), hw.domainVersion, _, ⟨hw.dependencyCount, rfl⟩, (),
      ⟨hw.dependencyIds, hw.dependenciesNodup, fun _ _ => List.not_mem_nil⟩, _,
      ⟨hw.objectCount, hw.objects, hw.objectsNodup, rfl⟩, rfl⟩

/-! ## What the checks over all descriptors say -/

/-- The versions of a domain, in the order given. -/
def versionsIn (ds : List DomainMigrationDescriptor) (domain : String) : List Int :=
  (ds.filter fun d => d.domain = domain).map (·.domainVersion)

theorem versionsIn_concat (ds : List DomainMigrationDescriptor) (d : DomainMigrationDescriptor)
    (domain : String) : versionsIn (ds ++ [d]) domain =
      versionsIn ds domain ++ if d.domain = domain then [d.domainVersion] else [] := by
  rw [versionsIn, List.filter_append, List.map_append, versionsIn]
  by_cases h : d.domain = domain
  · simp [h]
  · simp [h]

theorem mem_versionsIn {ds : List DomainMigrationDescriptor} {domain : String} {v : Int} :
    v ∈ versionsIn ds domain ↔ ∃ d ∈ ds, d.domain = domain ∧ d.domainVersion = v := by
  simp [versionsIn, and_assoc]

/-- The dict of the versions of every domain. -/
structure VersionDict (ds : List DomainMigrationDescriptor) (dict : List (String × List Int)) :
    Prop where
  nodup : (dict.map Prod.fst).Nodup
  mem : ∀ domain vs, (domain, vs) ∈ dict ↔ vs = versionsIn ds domain ∧ vs ≠ []

theorem VersionDict.mem_keys {ds : List DomainMigrationDescriptor} {dict : List (String × List Int)}
    (h : VersionDict ds dict) (domain : String) :
    domain ∈ dict.map Prod.fst ↔ domain ∈ ds.map (·.domain) := by
  have hversions : versionsIn ds domain ≠ [] ↔ domain ∈ ds.map (·.domain) := by
    simp [versionsIn, List.filter_eq_nil_iff]
  rw [← hversions]
  constructor
  · intro hmem
    obtain ⟨⟨key, vs⟩, hentry, rfl⟩ := List.mem_map.mp hmem
    obtain ⟨heq, hne⟩ := (h.mem key vs).mp hentry
    exact heq ▸ hne
  · intro hne
    exact List.mem_map.mpr ⟨(domain, versionsIn ds domain), (h.mem _ _).mpr ⟨rfl, hne⟩, rfl⟩

/-- **Appending a version** keeps the dict. -/
theorem appendVersion_spec {ds : List DomainMigrationDescriptor} {dict : List (String × List Int)}
    (h : VersionDict ds dict) (d : DomainMigrationDescriptor) :
    VersionDict (ds ++ [d]) (appendVersion dict d.domain d.domainVersion) := by
  by_cases hkey : d.domain ∈ dict.map Prod.fst
  · rw [appendVersion, if_pos hkey]
    refine ⟨?_, ?_⟩
    · have hkeys : (dict.map fun entry => if entry.1 = d.domain then
          (entry.1, entry.2 ++ [d.domainVersion]) else entry).map Prod.fst = dict.map Prod.fst := by
        rw [List.map_map]
        apply List.map_congr_left
        intro entry _
        simp only [Function.comp_apply]
        split <;> rfl
      rw [hkeys]
      exact h.nodup
    · intro domain vs
      rw [versionsIn_concat, List.mem_map]
      by_cases hd : d.domain = domain
      · subst hd
        rw [if_pos rfl]
        constructor
        · intro hmem
          obtain ⟨⟨key, vs'⟩, hentry, heq⟩ := hmem
          by_cases hk : key = d.domain
          · rw [if_pos hk, Prod.mk.injEq] at heq
            subst hk
            rw [← ((h.mem _ vs').mp hentry).1, ← heq.2]
            exact ⟨rfl, by simp⟩
          · rw [if_neg hk, Prod.mk.injEq] at heq
            exact absurd heq.1 hk
        · intro hvs
          obtain ⟨⟨key, vs'⟩, hentry, hk⟩ := List.mem_map.mp hkey
          simp only at hk
          subst hk
          refine ⟨_, hentry, ?_⟩
          rw [if_pos rfl, hvs.1, ← ((h.mem _ vs').mp hentry).1]
      · rw [if_neg hd, List.append_nil, ← h.mem]
        constructor
        · intro hmem
          obtain ⟨⟨key, vs'⟩, hentry, heq⟩ := hmem
          by_cases hk : key = d.domain
          · rw [if_pos hk, Prod.mk.injEq] at heq
            exact absurd (hk.symm.trans heq.1) hd
          · rw [if_neg hk] at heq
            exact heq ▸ hentry
        · intro hmem
          exact ⟨_, hmem, if_neg fun hk => hd hk.symm⟩
  · rw [appendVersion, if_neg hkey]
    have hnone : versionsIn ds d.domain = [] := by
      by_contra hne
      exact hkey (List.mem_map.mpr ⟨_, (h.mem _ _).mpr ⟨rfl, hne⟩, rfl⟩)
    refine ⟨?_, ?_⟩
    · rw [List.map_append, List.nodup_append]
      refine ⟨h.nodup, List.nodup_singleton _, ?_⟩
      intro a ha b hb heq
      obtain rfl : b = d.domain := by simpa using hb
      exact hkey (heq ▸ ha)
    · intro domain vs
      rw [versionsIn_concat, List.mem_append, h.mem]
      by_cases hd : d.domain = domain
      · subst hd
        rw [hnone, if_pos rfl]
        constructor
        · intro hmem
          rcases hmem with hmem | hmem
          · exact absurd hmem.1 hmem.2
          · obtain rfl : vs = [d.domainVersion] := by simpa using hmem
            exact ⟨rfl, by simp⟩
        · intro hvs
          exact .inr (by simp [hvs.1])
      · rw [if_neg hd, List.append_nil]
        constructor
        · intro hmem
          rcases hmem with hmem | hmem
          · exact hmem
          · simp only [List.mem_singleton, Prod.mk.injEq] at hmem
            exact absurd hmem.1.symm hd
        · exact .inl

/-- **The owners of a descriptor's objects.** -/
theorem claimObjects_ok {domain : String} (items : List OwnedSchemaObject) :
    ∀ {owners owners' : String → Option String}, claimObjects domain owners items = .ok owners' ↔
      (∀ item ∈ items, ∀ owner, owners item.name = some owner → owner = domain) ∧
        owners' = fun name => if name ∈ items.map (·.name) then some domain else owners name := by
  induction items with
  | nil =>
    intro owners owners'
    simp [claimObjects, eq_comm]
  | cons item rest ih =>
    intro owners owners'
    rw [claimObjects, check_ok, ih, List.forall_mem_cons, not_not]
    have hfirst : (owners item.name).getD domain = domain ↔
        ∀ owner, owners item.name = some owner → owner = domain := by
      cases owners item.name <;> simp
    have howners : (fun name => if name ∈ rest.map (·.name) then some domain
        else Function.update owners item.name (some domain) name) =
        fun name => if name ∈ (item :: rest).map (·.name) then some domain else owners name := by
      funext name
      by_cases hname : name = item.name
      · subst hname
        simp
      · simp [hname]
    rw [hfirst, howners, and_assoc]
    refine and_congr_right fun hitem => and_congr_left fun _ => ?_
    -- The object just claimed is the domain's own.
    constructor
    · intro h other hmem owner howner
      by_cases hname : other.name = item.name
      · exact hitem owner (hname ▸ howner)
      · exact h other hmem owner (by rw [Function.update_of_ne hname]; exact howner)
    · intro h other hmem owner howner
      by_cases hname : other.name = item.name
      · rw [hname, Function.update_self] at howner
        exact (Option.some.inj howner).symm
      · rw [Function.update_of_ne hname] at howner
        exact h other hmem owner howner

/-- No id, filename or coordinate comes twice, and no object has two domains. -/
structure Consistent (ds : List DomainMigrationDescriptor) : Prop where
  ids : (ds.map (·.migrationId)).Nodup
  filenames : (ds.map (·.filename)).Nodup
  coordinates : (ds.map (·.coordinate)).Nodup
  owners : ∀ d ∈ ds, ∀ e ∈ ds, ∀ item ∈ d.ownedObjects, ∀ other ∈ e.ownedObjects,
    item.name = other.name → d.domain = e.domain

/-- What the loop knows of the descriptors it has gone over. -/
structure Seen (ds : List DomainMigrationDescriptor) (c : Coordinates) : Prop where
  ids : ∀ x, x ∈ c.migrationIds ↔ x ∈ ds.map (·.migrationId)
  filenames : ∀ x, x ∈ c.filenames ↔ x ∈ ds.map (·.filename)
  coordinates : ∀ x, x ∈ c.domainCoordinates ↔ x ∈ ds.map (·.coordinate)
  versions : VersionDict ds c.domainVersions
  owners : ∀ name owner, c.objectOwners name = some owner ↔
    ∃ d ∈ ds, d.domain = owner ∧ name ∈ d.ownedObjects.map (·.name)

theorem seen_nothing : Seen [] noCoordinates := by
  refine ⟨by simp [noCoordinates], by simp [noCoordinates], by simp [noCoordinates], ?_,
    by simp [noCoordinates]⟩
  refine ⟨List.nodup_nil, ?_⟩
  intro domain vs
  simp [noCoordinates, versionsIn]

theorem Consistent.sublist {ds es : List DomainMigrationDescriptor} (h : Consistent ds)
    (hs : es.Sublist ds) : Consistent es :=
  ⟨h.ids.sublist (hs.map _), h.filenames.sublist (hs.map _), h.coordinates.sublist (hs.map _),
    fun d hd e he => h.owners d (hs.subset hd) e (hs.subset he)⟩

theorem nodup_map_concat {α β : Type} {f : α → β} {l : List α} {a : α} (h : (l.map f).Nodup) :
    ((l ++ [a]).map f).Nodup ↔ f a ∉ l.map f := by
  rw [List.map_append, List.nodup_append]
  constructor
  · intro hall hmem
    exact hall.2.2 (f a) hmem (f a) (by simp) rfl
  · intro hnew
    refine ⟨h, List.nodup_singleton _, ?_⟩
    intro b hb c hc heq
    obtain rfl : c = f a := by simpa using hc
    exact hnew (heq ▸ hb)

theorem mem_map_concat {α β : Type} {f : α → β} {l : List α} {a : α} {b : β} :
    b ∈ (l ++ [a]).map f ↔ b = f a ∨ b ∈ l.map f := by
  rw [List.map_append, List.mem_append, List.map_singleton, List.mem_singleton, or_comm]

/-- One more descriptor is consistent with those before it. -/
theorem Consistent.concat {ds : List DomainMigrationDescriptor} (h : Consistent ds)
    {d : DomainMigrationDescriptor} : Consistent (ds ++ [d]) ↔
      d.migrationId ∉ ds.map (·.migrationId) ∧ d.filename ∉ ds.map (·.filename) ∧
      d.coordinate ∉ ds.map (·.coordinate) ∧
      ∀ item ∈ d.ownedObjects, ∀ e ∈ ds, item.name ∈ e.ownedObjects.map (·.name) →
        e.domain = d.domain := by
  constructor
  · intro hall
    refine ⟨(nodup_map_concat h.ids).mp hall.ids, (nodup_map_concat h.filenames).mp hall.filenames,
      (nodup_map_concat h.coordinates).mp hall.coordinates, ?_⟩
    intro item hitem e he hname
    obtain ⟨other, hother, heq⟩ := List.mem_map.mp hname
    exact hall.owners e (by simp [he]) d (by simp) other hother item hitem heq
  · intro hnew
    obtain ⟨hid, hfile, hcoord, howner⟩ := hnew
    refine ⟨(nodup_map_concat h.ids).mpr hid, (nodup_map_concat h.filenames).mpr hfile,
      (nodup_map_concat h.coordinates).mpr hcoord, ?_⟩
    intro a ha b hb item hitem other hother heq
    rw [List.mem_append, List.mem_singleton] at ha hb
    rcases ha with ha | rfl
    · rcases hb with hb | rfl
      · exact h.owners a ha b hb item hitem other hother heq
      · exact howner other hother a ha (heq ▸ List.mem_map_of_mem hitem)
    · rcases hb with hb | rfl
      · exact (howner item hitem b hb (heq ▸ List.mem_map_of_mem hother)).symm
      · rfl

/-- **The loop over the descriptors** ends where they are consistent, and has
then seen all of them. -/
theorem coordinateLoop_ok (rest : List DomainMigrationDescriptor) :
    ∀ {ds : List DomainMigrationDescriptor} {c : Coordinates}, Seen ds c → Consistent ds →
      (∀ c', coordinateLoop c rest = .ok c' → Consistent (ds ++ rest) ∧ Seen (ds ++ rest) c') ∧
      (Consistent (ds ++ rest) → ∃ c', coordinateLoop c rest = .ok c') := by
  induction rest with
  | nil =>
    intro ds c hs hc
    rw [List.append_nil]
    refine ⟨?_, fun _ => ⟨c, rfl⟩⟩
    intro c' h
    obtain rfl : c = c' := Except.ok.inj h
    exact ⟨hc, hs⟩
  | cons d rest ih =>
    intro ds c hs hc
    -- The checks of this descriptor say that it is consistent with those seen.
    have hchecks : Consistent (ds ++ [d]) ↔ d.migrationId ∉ c.migrationIds ∧
        d.filename ∉ c.filenames ∧ d.coordinate ∉ c.domainCoordinates ∧
        ∀ item ∈ d.ownedObjects, ∀ owner, c.objectOwners item.name = some owner →
          owner = d.domain := by
      rw [hc.concat, hs.ids, hs.filenames, hs.coordinates]
      refine and_congr_right fun _ => and_congr_right fun _ => and_congr_right fun _ => ?_
      constructor
      · intro h item hitem owner howner
        obtain ⟨e, he, rfl, hname⟩ := (hs.owners _ _).mp howner
        exact h item hitem e he hname
      · intro h item hitem e he hname
        exact h item hitem e.domain ((hs.owners _ _).mpr ⟨e, he, rfl, hname⟩)
    have hseen : Consistent (ds ++ [d]) → Seen (ds ++ [d]) ⟨d.migrationId :: c.migrationIds,
        d.filename :: c.filenames, d.coordinate :: c.domainCoordinates,
        appendVersion c.domainVersions d.domain d.domainVersion,
        fun name => if name ∈ d.ownedObjects.map (·.name) then some d.domain
          else c.objectOwners name⟩ := by
      intro hcons
      have howned := (hchecks.mp hcons).2.2.2
      refine ⟨?_, ?_, ?_, appendVersion_spec hs.versions d, ?_⟩
      · intro x
        rw [List.mem_cons, hs.ids, mem_map_concat]
      · intro x
        rw [List.mem_cons, hs.filenames, mem_map_concat]
      · intro x
        rw [List.mem_cons, hs.coordinates, mem_map_concat]
      · intro name owner
        simp only
        split
        next hname =>
          constructor
          · intro heq
            exact ⟨d, by simp, Option.some.inj heq, hname⟩
          · intro hex
            obtain ⟨e, he, rfl, hmem⟩ := hex
            rw [List.mem_append, List.mem_singleton] at he
            rcases he with he | rfl
            · obtain ⟨item, hitem, rfl⟩ := List.mem_map.mp hname
              exact congrArg some
                (howned item hitem e.domain ((hs.owners _ _).mpr ⟨e, he, rfl, hmem⟩)).symm
            · rfl
        next hname =>
          rw [hs.owners]
          constructor
          · intro hex
            obtain ⟨e, he, hrest⟩ := hex
            exact ⟨e, by simp [he], hrest⟩
          · intro hex
            obtain ⟨e, he, hdomain, hmem⟩ := hex
            rw [List.mem_append, List.mem_singleton] at he
            rcases he with he | rfl
            · exact ⟨e, he, hdomain, hmem⟩
            · exact absurd hmem hname
    have happend : ds ++ d :: rest = ds ++ [d] ++ rest := by simp
    rw [happend]
    constructor
    · intro c' h
      rw [coordinateLoop, check_ok, check_ok, check_ok, except_bind_ok] at h
      obtain ⟨hid, hfile, hcoord, owners, hclaim, hloop⟩ := h
      obtain ⟨howned, rfl⟩ := (claimObjects_ok _).mp hclaim
      have hcons : Consistent (ds ++ [d]) := hchecks.mpr ⟨hid, hfile, hcoord, howned⟩
      exact (ih (hseen hcons) hcons).1 c' hloop
    · intro hall
      have hcons : Consistent (ds ++ [d]) := hall.sublist (List.sublist_append_left _ _)
      obtain ⟨hid, hfile, hcoord, howned⟩ := hchecks.mp hcons
      obtain ⟨c', hloop⟩ := (ih (hseen hcons) hcons).2 hall
      refine ⟨c', ?_⟩
      rw [coordinateLoop, check_ok, check_ok, check_ok, except_bind_ok]
      exact ⟨hid, hfile, hcoord, _, (claimObjects_ok _).mpr ⟨howned, rfl⟩, hloop⟩

/-- The versions of every domain are `1..k`. -/
def Continuous (ds : List DomainMigrationDescriptor) : Prop :=
  ∀ domain ∈ ds.map (·.domain), ∃ k : Nat, ∀ v, v ∈ versionsIn ds domain ↔ 1 ≤ v ∧ v ≤ k

theorem mem_versionsUpTo {k : Nat} {v : Int} : v ∈ versionsUpTo k ↔ 1 ≤ v ∧ v ≤ k := by
  rw [versionsUpTo, List.mem_map]
  constructor
  · intro h
    obtain ⟨n, hn, rfl⟩ := h
    rw [List.mem_range'_1] at hn
    simp only [Int.ofNat_eq_natCast]
    omega
  · intro h
    exact ⟨v.toNat, by rw [List.mem_range'_1]; omega, by simp only [Int.ofNat_eq_natCast]; omega⟩

/-- The sorted versions are `1..k` exactly if the versions are. -/
theorem sorted_versions_iff {vs : List Int} (hnodup : vs.Nodup) :
    vs.insertionSort (· ≤ ·) = versionsUpTo vs.length ↔
      ∃ k : Nat, ∀ v, v ∈ vs ↔ 1 ≤ v ∧ v ≤ k := by
  have hperm := List.perm_insertionSort (· ≤ ·) vs
  constructor
  · intro h
    refine ⟨vs.length, fun v => ?_⟩
    rw [← hperm.mem_iff, h, mem_versionsUpTo]
  · intro h
    obtain ⟨k, hk⟩ := h
    have hrange : (versionsUpTo k).Nodup := by
      refine List.Nodup.map ?_ (List.nodup_range' ..)
      exact fun a b hab => Int.ofNat.inj hab
    have hsame : vs.Perm (versionsUpTo k) :=
      (List.perm_ext_iff_of_nodup hnodup hrange).mpr fun v => by rw [hk, mem_versionsUpTo]
    have hlength : vs.length = k := by simpa [versionsUpTo] using hsame.length_eq
    rw [hlength]
    have hsorted : (versionsUpTo k).Pairwise (· ≤ ·) := by
      rw [versionsUpTo, List.pairwise_map]
      refine (List.pairwise_lt_range' ..).imp ?_
      intro a b hab
      simp only [Int.ofNat_eq_natCast]
      omega
    exact (hperm.trans hsame).eq_of_pairwise
      (fun a b _ _ hab hba => Int.le_antisymm hab hba)
      (List.pairwise_insertionSort _ vs) hsorted

theorem versionsIn_nodup {ds : List DomainMigrationDescriptor} (h : Consistent ds)
    (domain : String) : (versionsIn ds domain).Nodup := by
  have hcoord : ((ds.filter fun d => d.domain = domain).map (·.coordinate)).Nodup :=
    h.coordinates.sublist (List.filter_sublist.map _)
  refine List.Nodup.of_map (fun v => (domain, v)) ?_
  rw [versionsIn, List.map_map]
  convert hcoord using 1
  apply List.map_congr_left
  intro d hd
  simp only [List.mem_filter, decide_eq_true_eq] at hd
  simp [DomainMigrationDescriptor.coordinate, hd.2]

/-- **The coordinates are accepted** exactly if they are consistent, the
versions of every domain are `1..k`, and there are not too many domains. -/
theorem validateUniqueCoordinates_ok {ds : List DomainMigrationDescriptor} {u : Unit} :
    validateUniqueCoordinates ds = .ok u ↔
      Consistent ds ∧ Continuous ds ∧ (ds.map (·.domain)).dedup.length ≤ maxMigrationDomains := by
  have hnone : Consistent [] := ⟨by simp, by simp, by simp, by simp⟩
  obtain ⟨hsound, hcomplete⟩ := coordinateLoop_ok ds seen_nothing hnone
  rw [List.nil_append] at hcomplete
  -- What is left to check once the loop has ended.
  have hlast : ∀ c, Consistent ds → Seen ds c →
      ((c.domainVersions.length ≤ maxMigrationDomains ∧ ∀ entry ∈ c.domainVersions,
        entry.2.insertionSort (· ≤ ·) = versionsUpTo entry.2.length) ↔
      Continuous ds ∧ (ds.map (·.domain)).dedup.length ≤ maxMigrationDomains) := by
    intro c hc hs
    have hkeys : (c.domainVersions.map Prod.fst).Perm (ds.map (·.domain)).dedup := by
      refine (List.perm_ext_iff_of_nodup hs.versions.nodup (List.nodup_dedup _)).mpr ?_
      intro domain
      rw [hs.versions.mem_keys, List.mem_dedup]
    have hlength : c.domainVersions.length = (ds.map (·.domain)).dedup.length := by
      rw [← hkeys.length_eq, List.length_map]
    rw [hlength, and_comm]
    refine and_congr_left fun _ => ?_
    constructor
    · intro h domain hdomain
      obtain ⟨⟨key, vs⟩, hentry, rfl⟩ := List.mem_map.mp ((hs.versions.mem_keys domain).mpr hdomain)
      obtain ⟨rfl, -⟩ := (hs.versions.mem key vs).mp hentry
      exact (sorted_versions_iff (versionsIn_nodup hc key)).mp (h _ hentry)
    · intro h entry hentry
      obtain ⟨key, vs⟩ := entry
      have hkey := (hs.versions.mem_keys key).mp (List.mem_map_of_mem hentry)
      obtain ⟨rfl, -⟩ := (hs.versions.mem key vs).mp hentry
      exact (sorted_versions_iff (versionsIn_nodup hc key)).mpr (h key hkey)
  simp only [validateUniqueCoordinates, except_bind_ok, check_ok, forEach_ok, Nat.not_lt, not_not,
    and_true]
  constructor
  · intro h
    obtain ⟨c, hloop, hrest⟩ := h
    obtain ⟨hc, hs⟩ := hsound c hloop
    exact ⟨hc, (hlast c hc hs).mp hrest⟩
  · intro h
    obtain ⟨c, hloop⟩ := hcomplete h.1
    obtain ⟨hc, hs⟩ := hsound c hloop
    exact ⟨c, hloop, (hlast c hc hs).mpr h.2⟩

end QuantumEntanglement.Migrations
