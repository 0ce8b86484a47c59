import QuantumEntanglement.Lib.FaultyConnection
import QuantumEntanglement.Migrations.BridgeState

/-
  Bridge plans — one write transaction, or nothing

  The planner turns an inspected state into at most two actions: install the
  sidecar tables, record the metadata of the migrations applied. The applier
  takes a plan from its caller, locks the database, derives the plan of what it
  finds there and goes on only where the two are the same. BEGIN, COMMIT,
  ROLLBACK and every statement may fail, before or after it took effect, and
  the plan may be any value at all. Other writers may move the database before
  the lock is taken and after it is released.

  What is proved:
    1. `installLocked_ok`, `bootstrapLocked_ok` — what an action that ends
       writes.
    2. `applyBody_ok` — a body that ends found the plan of the state it locked
       and left that plan's target.
    3. `plan_all_or_nothing` — the durable state is the one found or the
       target; every other plan changes nothing; a return shows the target;
       and the target has nothing left to plan.
-/

namespace QuantumEntanglement.Migrations

open PyJson PyText Sha256 Checked Transaction FaultyConnection Txn

/-! ## Plans -/

inductive BridgeMigrationActionKind where
  | installSidecar
  | bootstrapLegacyMetadata
  deriving DecidableEq

def BridgeMigrationActionKind.value : BridgeMigrationActionKind → String
  | .installSidecar => "install_sidecar"
  | .bootstrapLegacyMetadata => "bootstrap_legacy_metadata"

structure BridgeMigrationAction where
  sequence : Int
  kind : BridgeMigrationActionKind
  sourceShape : SchemaShape
  resultShape : SchemaShape
  deriving DecidableEq

structure BridgeMigrationPlan where
  releaseMode : String
  sourceStateSha256 : String
  registrySha256 : String
  sourceShape : SchemaShape
  targetShape : SchemaShape
  actions : List BridgeMigrationAction
  planSha256 : String
  deriving DecidableEq

def bridgeReleaseMode : String := "bridge_only"

/-- `_bridge_plan_digest`. -/
def bridgePlanDigest (source : SchemaState) (targetShape : SchemaShape)
    (actions : List BridgeMigrationAction) : String :=
  canonicalSha256 (.dict [
    ("actions", .list (actions.map fun action => .dict [
      ("kind", .str action.kind.value),
      ("resultShape", .str action.resultShape.value),
      ("sequence", .int action.sequence),
      ("sourceShape", .str action.sourceShape.value)])),
    ("format", .str "qe.domain-migration-bridge-plan/1"),
    ("registrySha256", .str source.registrySha256),
    ("releaseMode", .str bridgeReleaseMode),
    ("sourceShape", .str source.shape.value),
    ("sourceStateSha256", .str source.stateSha256),
    ("targetShape", .str targetShape.value)])

def installAction (result : SchemaShape) : BridgeMigrationAction :=
  ⟨1, .installSidecar, .sidecarAbsent, result⟩

def bootstrapAction (sequence : Int) : BridgeMigrationAction :=
  ⟨sequence, .bootstrapLegacyMetadata, .legacyPrefix, .bridgedPrefix⟩

/-- The actions a state needs, and the shape they lead to. -/
def plannedActions (state : SchemaState) : List BridgeMigrationAction × SchemaShape :=
  match state.shape with
  | .sidecarAbsent =>
    if state.appliedMigrations = [] then ([installAction .empty], .empty)
    else ([installAction .legacyPrefix, bootstrapAction 2], .bridgedPrefix)
  | .legacyPrefix => ([bootstrapAction 1], .bridgedPrefix)
  | .empty => ([], .empty)
  | .bridgedPrefix => ([], .bridgedPrefix)

/-- `plan_bridge_migrations`. -/
def planBridgeMigrations (rel : Release) (state : SchemaState) :
    Except BridgeError BridgeMigrationPlan := do
  let _ ← validateSchemaState rel state
  let (actions, targetShape) := plannedActions state
  .ok ⟨bridgeReleaseMode, state.stateSha256, state.registrySha256, state.shape, targetShape, actions,
    bridgePlanDigest state targetShape actions⟩

/-- What a caller may hand in as a plan; `foreign` is an object of another
type, or one with a field of another type. -/
inductive PlanArgument where
  | plan (p : BridgeMigrationPlan)
  | foreign

def planApply (message : String) : BridgeError := ⟨.planApply, message⟩

/-- The transitions `_validate_bridge_migration_plan` knows. -/
def validTransition (p : BridgeMigrationPlan) : Bool :=
  match p.sourceShape with
  | .sidecarAbsent =>
    (p.targetShape = .empty && p.actions = [installAction .empty]) ||
      (p.targetShape = .bridgedPrefix &&
        p.actions = [installAction .legacyPrefix, bootstrapAction 2])
  | .legacyPrefix => p.targetShape = .bridgedPrefix && p.actions = [bootstrapAction 1]
  | .empty | .bridgedPrefix => p.targetShape = p.sourceShape && p.actions = []

/-- `_validate_bridge_migration_plan`. -/
def validateBridgeMigrationPlan (rel : Release) : PlanArgument →
    Except BridgeError BridgeMigrationPlan
  | .foreign =>
    .error (planApply "bridge migration applier requires an exact BridgeMigrationPlan")
  | .plan p =>
    if p.releaseMode ≠ bridgeReleaseMode then
      .error (planApply "bridge migration plan release mode is unsupported")
    else if !(isSha256 p.sourceStateSha256 && isSha256 p.registrySha256 && isSha256 p.planSha256) then
      .error (planApply "bridge migration plan contains a non-canonical digest")
    else if p.registrySha256 ≠ rel.registry.registrySha256 then
      .error (planApply
        "bridge migration plan registry digest differs from the trusted registry")
    else if !validTransition p then
      .error (planApply
        "bridge migration plan action sequence or shape transition is unsupported")
    else .ok p

/-! ## The writing programs -/

abbrev BridgeTxn (δ α : Type) : Type := Txn (BridgeDatabase δ) BridgeError α

/-- The accesses of an application, each of which may raise. -/
inductive Site where
  | locked
  | sidecarBefore
  | createMetadata
  | createDependencies
  | sidecarAfter
  | bootstrapBefore
  | insertMetadata (migrationId : Int)
  | insertDependency (row : DomainMigrationDependencyRow)
  | bootstrapAfter
  | postWrite
  | committed

/-- What each access raises, if anything. -/
abbrev Strikes : Type := Site → Option BridgeError

section Programs

variable {δ : Type} (rel : Release) (strikes : Strikes)

/-- An access that may fail. -/
def access (site : Site) : BridgeTxn δ Unit :=
  match strikes site with
  | none => pure ()
  | some e => Txn.raise e

/-- A read of the database, as an access. -/
def readAt {α : Type} (site : Site) (read : BridgeDatabase δ → Except BridgeError α) :
    BridgeTxn δ α := do
  access strikes site
  let answer ← Txn.query read
  Txn.lift answer

/-- The text of a statement as `sqlite_master` keeps it. -/
def storedSql (statement : String) : String :=
  String.ofList (if statement.toList.getLast? = some ';' then statement.toList.dropLast
    else statement.toList)

/-- The catalogue rows of a sidecar table: the table and the index of its key. -/
def tableObjects (name statement : String) : List CatalogRow :=
  [⟨"table", name, name, some (storedSql statement)⟩,
    ⟨"index", "sqlite_autoindex_" ++ name ++ "_1", name, none⟩]

/-- `CREATE TABLE` of a sidecar table. -/
def createTable (name statement : String) (db : BridgeDatabase δ) :
    Except BridgeError (BridgeDatabase δ) :=
  if db.objects.any (fun o => o.name = name) then .error ⟨.driver, "table " ++ name ++ " already exists"⟩
  else .ok { db with objects := db.objects ++ tableObjects name statement }

/-- A statement that writes. -/
def write (site : Site) (f : BridgeDatabase δ → Except BridgeError (BridgeDatabase δ)) :
    BridgeTxn δ Unit := do
  access strikes site
  let after ← Txn.query f
  let after ← Txn.lift after
  Txn.update fun _ => after

/-- `_install_domain_migration_sidecar_locked`. -/
def installLocked : BridgeTxn δ Unit := do
  let locked ← readAt strikes .sidecarBefore validateSidecarSchema
  if locked = .absent then
    write strikes .createMetadata (createTable metadataTableName metadataTableSql)
    write strikes .createDependencies (createTable dependenciesTableName dependenciesTableSql)
  let installed ← readAt strikes .sidecarAfter validateSidecarSchema
  Txn.ensure (installed = .exact) ⟨.sidecarInstall,
    "domain migration sidecar installation did not produce the exact schema"⟩

/-- The row of the metadata table for a migration. -/
def metadataCells (recordedAt : String) (d : DomainMigrationDescriptor) : MetadataCells :=
  ⟨.integer d.migrationId, .text d.domain, .integer d.domainVersion, .text "legacy_bootstrap",
    .text d.descriptorSha256, .text d.ownedObjectManifestSha256, .text recordedAt⟩

def dependencyCells (row : DomainMigrationDependencyRow) : DependencyCells :=
  ⟨.integer row.migrationId, .integer row.dependsOnMigrationId⟩

/-- The constraints of the metadata table on a new row: its keys are free, its
migration is in the ledger, and its checks hold. -/
def metadataAdmits (db : BridgeDatabase δ) (d : DomainMigrationDescriptor) : Bool :=
  db.metadata.all (fun r => r.migrationVersion ≠ .integer d.migrationId &&
    !(r.domain = .text d.domain && r.domainVersion = .integer d.domainVersion)) &&
  (match db.ledger with
    | .table t => t.rows.any fun r => r.version = d.migrationId
    | _ => false) &&
  0 < d.migrationId && 0 < d.domainVersion && isDomain d.domain && isSha256 d.descriptorSha256 &&
    isSha256 d.ownedObjectManifestSha256

/-- `_LEGACY_METADATA_INSERT_SQL`. -/
def insertMetadata (recordedAt : String) (d : DomainMigrationDescriptor) (db : BridgeDatabase δ) :
    Except BridgeError (BridgeDatabase δ) :=
  if metadataAdmits db d then .ok { db with metadata := db.metadata ++ [metadataCells recordedAt d] }
  else .error ⟨.driver, "constraint failed"⟩

/-- The constraints of the dependency table on a new row. -/
def dependencyAdmits (db : BridgeDatabase δ) (row : DomainMigrationDependencyRow) : Bool :=
  db.dependencies.all (· ≠ dependencyCells row) &&
  db.metadata.any (·.migrationVersion = .integer row.migrationId) &&
  db.metadata.any (·.migrationVersion = .integer row.dependsOnMigrationId) &&
  row.migrationId ≠ row.dependsOnMigrationId

/-- `_LEGACY_DEPENDENCY_INSERT_SQL`. -/
def insertDependency (row : DomainMigrationDependencyRow) (db : BridgeDatabase δ) :
    Except BridgeError (BridgeDatabase δ) :=
  if dependencyAdmits db row then
    .ok { db with dependencies := db.dependencies ++ [dependencyCells row] }
  else .error ⟨.driver, "constraint failed"⟩

/-- An integrity error, raised again as another class. -/
def reraised {α : Type} (error : BridgeError) : Except BridgeError α → Except BridgeError α
  | .error e => .error (if e.isIntegrity then error else e)
  | .ok a => .ok a

/-- A program whose integrity errors are raised again as another class. -/
def reraising {α : Type} (error : BridgeError) (m : BridgeTxn δ α) : BridgeTxn δ α := fun s =>
  (reraised error (m s).1, (m s).2)

/-- `_read_legacy_bootstrap_state`. -/
def readBootstrapState (site : Site) (phase : String) : BridgeTxn δ DomainMigrationBridgeState :=
  reraising ⟨.legacyBootstrap, "legacy domain migration bootstrap " ++ phase ++ " state is not exact"⟩
    (readAt strikes site (readBridgeState rel))

/-- `_legacy_bootstrap_descriptors`. -/
def bootstrapDescriptors (state : DomainMigrationBridgeState) :
    Except BridgeError (List DomainMigrationDescriptor) := do
  let refused (message : String) : BridgeError := ⟨.legacyBootstrap, message⟩
  let descriptors := rel.applied state.ledgerRows.length
  let ids := descriptors.map (·.migrationId)
  if ids ≠ state.ledgerRows.map (·.migrationId) then
    .error (refused "legacy domain migration bootstrap state is not a registry prefix")
  else
    descriptors.forM fun d =>
      if d.kind ≠ .legacyBootstrap then
        .error (refused "legacy domain migration bootstrap refuses non-legacy descriptors")
      else if ∃ t ∈ d.dependencies, t ∉ ids then
        .error (refused "legacy domain migration bootstrap dependency is not already applied")
      else .ok ()
    .ok descriptors

/-- `_expected_legacy_bootstrap_state`. -/
def expectedBootstrapState (source : DomainMigrationBridgeState)
    (descriptors : List DomainMigrationDescriptor) (recordedAt : String) :
    DomainMigrationBridgeState :=
  { source with
    shape := .bridgedPrefix
    metadataRows := descriptors.map fun d => ⟨d.migrationId, d.domain, d.domainVersion,
      .legacyBootstrap, d.descriptorSha256, d.ownedObjectManifestSha256, recordedAt⟩
    dependencyRows := declaredDependencies descriptors }

/-- The clock's reading, checked. -/
def bootstrapTimestamp (clock : Except BridgeError String) : Except BridgeError String := do
  let raw ← clock
  reraised ⟨.legacyBootstrap,
    "legacy domain migration bootstrap clock returned a non-canonical timestamp"⟩
    (durableTimestamp rel.py (.text raw) "legacy domain migration bootstrap clock")

/-- `_bootstrap_legacy_domain_migration_metadata_locked`: whether anything was
written. -/
def bootstrapLocked (clock : Except BridgeError String) : BridgeTxn δ Bool := do
  let locked ← readBootstrapState rel strikes .bootstrapBefore "locked"
  match locked.shape with
  | .legacyPrefix => Txn.raise ⟨.legacyBootstrap,
      "legacy domain migration bootstrap sidecar disappeared under lock"⟩
  | .bridgedPrefix => pure false
  | .sidecarEmptyPrefix =>
    let descriptors ← Txn.lift (bootstrapDescriptors rel locked)
    if descriptors = [] then pure false
    else
      let recordedAt ← Txn.lift (bootstrapTimestamp rel clock)
      let expected := expectedBootstrapState locked descriptors recordedAt
      let _ ← Txn.forEach (fun d => write strikes (.insertMetadata d.migrationId)
        (insertMetadata recordedAt d)) descriptors
      let _ ← Txn.forEach (fun row => write strikes (.insertDependency row) (insertDependency row))
        expected.dependencyRows
      let after ← readBootstrapState rel strikes .bootstrapAfter "post-write"
      Txn.ensure (after = expected) ⟨.legacyBootstrap,
        "legacy domain migration bootstrap post-write state differs from expectation"⟩
      pure true

/-- `_inspect_bridge_migration_plan_state`. -/
def inspectAt (site : Site) (phase : String) : BridgeTxn δ SchemaState :=
  reraising (planApply ("bridge migration plan " ++ phase ++ " schema state is not exact"))
    (readAt strikes site (inspectSchemaState rel))

/-- `_expected_bridge_migration_plan_target_state`. -/
def expectedTargetState (source : SchemaState) (targetShape : SchemaShape) :
    Except BridgeError SchemaState := do
  let descriptors ← validateSchemaState rel source
  match targetShape with
  | .bridgedPrefix =>
    .ok (buildSchemaState rel .bridgedPrefix descriptors (declaredDependencies descriptors))
  | .empty => .ok (buildSchemaState rel .empty descriptors [])
  | _ => .error (planApply "bridge migration plan target shape cannot be materialized")

/-- One action of a plan. -/
def runAction (clock : Except BridgeError String) (action : BridgeMigrationAction) :
    BridgeTxn δ Unit :=
  match action.kind with
  | .installSidecar => installLocked strikes
  | .bootstrapLegacyMetadata => do
    let changed ← bootstrapLocked rel strikes clock
    Txn.ensure (changed = true) (planApply
      "bridge migration plan bootstrap action made no state transition")

/-- The body of the transaction: the state expected to be committed. -/
def applyBody (clock : Except BridgeError String) (plan : BridgeMigrationPlan) :
    BridgeTxn δ SchemaState := do
  let locked ← inspectAt rel strikes .locked "locked"
  Txn.ensure (locked.stateSha256 = plan.sourceStateSha256) (planApply
    "bridge migration plan source state is stale under the write lock")
  let canonical ← Txn.lift (planBridgeMigrations rel locked)
  Txn.ensure (plan.planSha256 = canonical.planSha256) (planApply
    "bridge migration plan digest differs from the canonical locked plan")
  Txn.ensure (plan = canonical) (planApply
    "bridge migration plan differs from the canonical locked plan")
  let expected ← Txn.lift (expectedTargetState rel locked plan.targetShape)
  let _ ← Txn.forEach (runAction rel strikes clock) plan.actions
  let postWrite ← inspectAt rel strikes .postWrite "post-write"
  Txn.ensure (postWrite = expected) (planApply
    "bridge migration plan post-write state differs from expectation")
  pure expected

end Programs

/-! ## The transaction -/

/-- What happens around one application: what fails, what the clock reads, and
what the database is when it is inspected after the COMMIT. -/
structure Circumstances (δ : Type) where
  faults : Faults
  strikes : Strikes
  clock : Except BridgeError String
  others : BridgeDatabase δ → BridgeDatabase δ

/-- `_rollback_bridge_migration_plan_apply`. -/
def rollbackPlanApply {δ : Type} (faults : Faults) (c : Connection (BridgeDatabase δ)) :
    Except BridgeError Unit × Connection (BridgeDatabase δ) :=
  match c.inTransaction faults.probe with
  | none => (.error (planApply "bridge migration plan rollback state could not be inspected"), c)
  | some false => (.error (planApply "bridge migration plan transaction ended unexpectedly"), c)
  | some true =>
    match c.rollback faults.rollback with
    | (false, c) => (.error (planApply "bridge migration plan rollback failed"), c)
    | (true, c) =>
      match c.inTransaction faults.confirm with
      | none => (.error (planApply "bridge migration plan rollback state could not be verified"), c)
      | some true => (.error (planApply
          "bridge migration plan rollback did not release its transaction"), c)
      | some false => (.ok (), c)

/-- The handler of the transaction. -/
def abandonPlan {δ : Type} (faults : Faults) (owns : Bool) (e : BridgeError)
    (c : Connection (BridgeDatabase δ)) : Except BridgeError SchemaState × Connection (BridgeDatabase δ) :=
  if owns then
    match rollbackPlanApply faults c with
    | (.ok _, c) => (.error e, c)
    | (.error e', c) => (.error e', c)
  else (.error e, c)

/-- BEGIN IMMEDIATE, the body, COMMIT: the state expected to be committed. -/
def planTransaction {δ : Type} (rel : Release) (x : Circumstances δ) (plan : BridgeMigrationPlan)
    (c : Connection (BridgeDatabase δ)) : Except BridgeError SchemaState × Connection (BridgeDatabase δ) :=
  match c.begin x.faults.begin with
  | (false, c) => abandonPlan x.faults c.work.isSome ⟨.driver, "BEGIN IMMEDIATE"⟩ c
  | (true, c) =>
    match c.body (applyBody rel x.strikes x.clock plan) x.faults.drops with
    | (.error e, c) => abandonPlan x.faults true e c
    | (.ok expected, c) =>
      match c.commit x.faults.commit with
      | (false, c) => abandonPlan x.faults true ⟨.driver, "COMMIT"⟩ c
      | (true, c) => (.ok expected, c)

/-- `apply_bridge_migration_plan`: the reply, and the connection as the call
leaves it. -/
def applyBridgeMigrationPlan {δ : Type} (rel : Release) (x : Circumstances δ) (plan : PlanArgument)
    (c : Connection (BridgeDatabase δ)) : Except BridgeError SchemaState × Connection (BridgeDatabase δ) :=
  match validateBridgeMigrationPlan rel plan with
  | .error e => (.error e, c)
  | .ok exact =>
    if c.work.isSome then
      (.error (planApply "bridge migration plan requires no active caller transaction"), c)
    else
      match planTransaction rel x exact c with
      | (.error e, c) => (.error e, c)
      | (.ok expected, c) =>
        match (inspectAt rel x.strikes .committed "committed" (x.others c.durable)).1 with
        | .error e => (.error e, c)
        | .ok committed =>
          if committed = expected then (.ok committed, c)
          else (.error (planApply
            "committed bridge migration plan state differs from expectation"), c)

/-! ## What a plan leads to -/

section Targets

variable {δ : Type}

/-- The database with the sidecar tables, empty. -/
def withSidecar (db : BridgeDatabase δ) : BridgeDatabase δ :=
  { db with objects := db.objects ++ tableObjects metadataTableName metadataTableSql ++
      tableObjects dependenciesTableName dependenciesTableSql }

/-- The database with the metadata of some migrations recorded. -/
def withMetadata (descriptors : List DomainMigrationDescriptor) (recordedAt : String)
    (db : BridgeDatabase δ) : BridgeDatabase δ :=
  { db with
    metadata := db.metadata ++ descriptors.map (metadataCells recordedAt)
    dependencies := db.dependencies ++ (declaredDependencies descriptors).map dependencyCells }

/-- What an action makes of a database with so many migrations applied. -/
def actionTarget (rel : Release) (clock : Except BridgeError String) (applied : Nat)
    (db : BridgeDatabase δ) (action : BridgeMigrationAction) : Except BridgeError (BridgeDatabase δ) :=
  match action.kind with
  | .installSidecar => .ok (withSidecar db)
  | .bootstrapLegacyMetadata => do
    let recordedAt ← bootstrapTimestamp rel clock
    .ok (withMetadata (rel.applied applied) recordedAt db)

/-- The target of the canonical plan of a state: its actions, one after the
other. -/
def planTarget (rel : Release) (clock : Except BridgeError String) (s : SchemaState)
    (db : BridgeDatabase δ) : Except BridgeError (BridgeDatabase δ) :=
  (plannedActions s).1.foldlM (actionTarget rel clock s.appliedMigrations.length) db

end Targets

/-! ## What the programs write -/

section Writes

variable {δ : Type} {rel : Release} {strikes : Strikes}

theorem access_ok {site : Site} {u : Unit} {d d' : BridgeDatabase δ}
    (h : access strikes site d = (.ok u, d')) : d' = d := by
  unfold access at h
  cases hs : strikes site with
  | none =>
    rw [hs] at h
    exact (pure_ok.mp h).2.symm
  | some e =>
    rw [hs] at h
    exact (raise_ok.mp h).elim

theorem readAt_ok {α : Type} {site : Site} {read : BridgeDatabase δ → Except BridgeError α} {a : α}
    {d d' : BridgeDatabase δ} (h : readAt strikes site read d = (.ok a, d')) :
    read d = .ok a ∧ d' = d := by
  simp only [readAt, bind_ok, query_ok, lift_ok] at h
  obtain ⟨_, d₁, haccess, _, _, ⟨rfl, rfl⟩, hread, rfl⟩ := h
  obtain rfl := access_ok haccess
  exact ⟨hread, rfl⟩

theorem write_ok {site : Site} {f : BridgeDatabase δ → Except BridgeError (BridgeDatabase δ)} {u : Unit}
    {d d' : BridgeDatabase δ} (h : write strikes site f d = (.ok u, d')) : f d = .ok d' := by
  simp only [write, bind_ok, query_ok, lift_ok, update_ok] at h
  obtain ⟨_, d₁, haccess, _, _, ⟨rfl, rfl⟩, _, _, ⟨hf, rfl⟩, rfl⟩ := h
  obtain rfl := access_ok haccess
  exact hf

theorem reraising_ok {α : Type} {error : BridgeError} {m : BridgeTxn δ α} {a : α}
    {d d' : BridgeDatabase δ} (h : reraising error m d = (.ok a, d')) : m d = (.ok a, d') := by
  unfold reraising reraised at h
  rcases hm : m d with ⟨r, d₁⟩
  rw [hm] at h
  cases r with
  | error e => simp at h
  | ok b => exact h

theorem inspectAt_ok {site : Site} {phase : String} {s : SchemaState} {d d' : BridgeDatabase δ}
    (h : inspectAt rel strikes site phase d = (.ok s, d')) : inspectSchemaState rel d = .ok s ∧ d' = d :=
  readAt_ok (reraising_ok h)

theorem createTable_ok {name statement : String} {d d' : BridgeDatabase δ}
    (h : createTable name statement d = .ok d') :
    d' = { d with objects := d.objects ++ tableObjects name statement } := by
  unfold createTable at h
  split at h
  · simp at h
  · exact (Except.ok.inj h).symm

/-- **An installation that ends where there was no sidecar made one.** -/
theorem installLocked_ok {u : Unit} {d d' : BridgeDatabase δ}
    (habsent : validateSidecarSchema d = .ok .absent)
    (h : installLocked strikes d = (.ok u, d')) : d' = withSidecar d := by
  simp only [installLocked, bind_ok] at h
  obtain ⟨locked, d₁, hlocked, h⟩ := h
  obtain ⟨hlocked, rfl⟩ := readAt_ok hlocked
  rw [habsent] at hlocked
  obtain rfl := Except.ok.inj hlocked
  simp only [if_true, bind_ok, ensure_ok] at h
  obtain ⟨_, d₂, hmetadata, _, d₃, hdependencies, _, d₄, hinstalled, -, rfl⟩ := h
  obtain ⟨-, rfl⟩ := readAt_ok hinstalled
  rw [createTable_ok (write_ok hdependencies), createTable_ok (write_ok hmetadata)]
  rfl

theorem insertMetadata_ok {recordedAt : String} {x : DomainMigrationDescriptor}
    {d d' : BridgeDatabase δ} (h : insertMetadata recordedAt x d = .ok d') :
    d' = { d with metadata := d.metadata ++ [metadataCells recordedAt x] } := by
  unfold insertMetadata at h
  split at h
  · exact (Except.ok.inj h).symm
  · simp at h

theorem insertDependency_ok {row : DomainMigrationDependencyRow} {d d' : BridgeDatabase δ}
    (h : insertDependency row d = .ok d') :
    d' = { d with dependencies := d.dependencies ++ [dependencyCells row] } := by
  unfold insertDependency at h
  split at h
  · exact (Except.ok.inj h).symm
  · simp at h

/-- Writes of one statement for each element, where `after` says what the
statements of a list lead to. -/
theorem forEach_writes {α : Type} {site : α → Site}
    {f : α → BridgeDatabase δ → Except BridgeError (BridgeDatabase δ)}
    (after : List α → BridgeDatabase δ → BridgeDatabase δ) (hnil : ∀ d, after [] d = d)
    (hcons : ∀ a rest d d₁, f a d = .ok d₁ → after rest d₁ = after (a :: rest) d) :
    ∀ {l : List α} {bs : List Unit} {d d' : BridgeDatabase δ},
      Txn.forEach (fun a => write strikes (site a) (f a)) l d = (.ok bs, d') → d' = after l d
  | [], _, d, _, h => by rw [hnil, (forEach_nil_ok.mp h).2]
  | a :: rest, _, d, _, h => by
    obtain ⟨_, d₁, _, hwrite, hrest, -⟩ := forEach_cons_ok.mp h
    rw [forEach_writes after hnil hcons hrest]
    exact hcons a rest d d₁ (write_ok hwrite)

/-- **A bootstrap that changed something recorded the metadata of every
migration in the ledger.** -/
theorem bootstrapLocked_ok {clock : Except BridgeError String} {d d' : BridgeDatabase δ}
    (h : bootstrapLocked rel strikes clock d = (.ok true, d')) :
    ∃ b recordedAt, ReadFrom rel d b ∧ bootstrapTimestamp rel clock = .ok recordedAt ∧
      d' = withMetadata (rel.applied b.ledgerRows.length) recordedAt d := by
  simp only [bootstrapLocked, bind_ok] at h
  obtain ⟨b, d₁, hread, h⟩ := h
  obtain ⟨hread, rfl⟩ := readAt_ok (reraising_ok hread)
  have hfrom := readBridgeState_ok hread
  cases hshape : b.shape with
  | legacyPrefix => simp [hshape] at h
  | bridgedPrefix => simp [hshape] at h
  | sidecarEmptyPrefix =>
    simp only [hshape, bind_ok, lift_ok] at h
    obtain ⟨descriptors, _, ⟨hdescriptors, rfl⟩, h⟩ := h
    have happlied : descriptors = rel.applied b.ledgerRows.length := by
      unfold bootstrapDescriptors at hdescriptors
      simp only at hdescriptors
      split at hdescriptors
      · simp at hdescriptors
      · obtain ⟨_, -, hdescriptors⟩ := except_bind_ok.mp hdescriptors
        exact (Except.ok.inj hdescriptors).symm
    split at h
    · simp at h
    · simp only [bind_ok, lift_ok, ensure_ok, pure_ok] at h
      obtain ⟨recordedAt, _, ⟨hclock, rfl⟩, _, d₂, hmetadata, _, d₃, hdependencies, _, d₄, hafter, _,
        _, ⟨-, rfl⟩, -, rfl⟩ := h
      obtain ⟨-, rfl⟩ := readAt_ok (reraising_ok hafter)
      refine ⟨b, recordedAt, hfrom, hclock, ?_⟩
      have hd₂ := forEach_writes
        (fun l d => { d with metadata := d.metadata ++ l.map (metadataCells recordedAt) })
        (fun d => by simp) (fun a rest d d₁ ha => by simp [insertMetadata_ok ha]) hmetadata
      have hd₃ := forEach_writes
        (fun l d => { d with dependencies := d.dependencies ++ l.map dependencyCells })
        (fun d => by simp) (fun a rest d d₁ ha => by simp [insertDependency_ok ha]) hdependencies
      rw [hd₃, hd₂, ← happlied]
      rfl

/-! ## The body -/

/-- A canonical plan, field by field. -/
theorem planBridgeMigrations_ok {s : SchemaState} {p : BridgeMigrationPlan}
    (h : planBridgeMigrations rel s = .ok p) :
    p.actions = (plannedActions s).1 ∧ p.targetShape = (plannedActions s).2 := by
  unfold planBridgeMigrations at h
  obtain ⟨_, -, h⟩ := except_bind_ok.mp h
  obtain rfl := Except.ok.inj h
  exact ⟨rfl, rfl⟩

/-- The bootstrap action of a plan, on a database with the ledger inspected. -/
theorem bootstrapAction_ok {clock : Except BridgeError String} {sequence : Int} {s : SchemaState}
    {d d₁ d' : BridgeDatabase δ} {u : Unit} (hfound : inspectSchemaState rel d = .ok s)
    (hledger : d₁.ledger = d.ledger)
    (h : runAction rel strikes clock (bootstrapAction sequence) d₁ = (.ok u, d')) :
    actionTarget rel clock s.appliedMigrations.length d₁ (bootstrapAction sequence) = .ok d' := by
  obtain ⟨b, _, hb, -, hlength, -⟩ := inspectSchemaState_ok hfound
  simp only [runAction, bootstrapAction, bind_ok, ensure_ok] at h
  obtain ⟨changed, _, hbootstrap, rfl, rfl⟩ := h
  obtain ⟨b₁, recordedAt, hb₁, hclock, hd⟩ := bootstrapLocked_ok hbootstrap
  simp only [actionTarget, bootstrapAction, hclock, except_ok_bind, hlength,
    Release.applied_length_applied]
  rw [hd, hb.ledgerRows_eq hb₁ hledger]

/-- The install action of a plan. -/
theorem installAction_ok {clock : Except BridgeError String} {result : SchemaShape} {s : SchemaState}
    {d d' : BridgeDatabase δ} {u : Unit} (hfound : inspectSchemaState rel d = .ok s)
    (hshape : s.shape = .sidecarAbsent)
    (h : runAction rel strikes clock (installAction result) d = (.ok u, d')) : d' = withSidecar d := by
  obtain ⟨b, _, hb, hbridge, -, -⟩ := inspectSchemaState_ok hfound
  have habsent := hb.sidecar
  rw [hbridge, hshape] at habsent
  exact installLocked_ok habsent h

/-- **The actions of the canonical plan lead to its target.** -/
theorem runActions_ok {clock : Except BridgeError String} {s : SchemaState}
    {d d' : BridgeDatabase δ} {us : List Unit} (hfound : inspectSchemaState rel d = .ok s)
    (h : Txn.forEach (runAction rel strikes clock) (plannedActions s).1 d = (.ok us, d')) :
    planTarget rel clock s d = .ok d' := by
  unfold planTarget
  unfold plannedActions at h ⊢
  cases hshape : s.shape with
  | sidecarAbsent =>
    simp only [hshape] at h ⊢
    split at h
    · obtain ⟨_, d₁, _, hinstall, hrest, -⟩ := forEach_cons_ok.mp h
      obtain ⟨-, rfl⟩ := forEach_nil_ok.mp hrest
      rw [installAction_ok hfound hshape hinstall, if_pos ‹_›]
      rfl
    · obtain ⟨_, d₁, _, hinstall, hrest, -⟩ := forEach_cons_ok.mp h
      obtain ⟨_, d₂, _, hbootstrap, hrest, -⟩ := forEach_cons_ok.mp hrest
      obtain ⟨-, rfl⟩ := forEach_nil_ok.mp hrest
      obtain rfl := installAction_ok hfound hshape hinstall
      rw [if_neg ‹_›]
      show (actionTarget rel clock _ (withSidecar d) (bootstrapAction 2) >>= pure) = _
      rw [bootstrapAction_ok hfound (show (withSidecar d).ledger = d.ledger from rfl) hbootstrap]
      rfl
  | legacyPrefix =>
    simp only [hshape] at h ⊢
    obtain ⟨_, d₁, _, hbootstrap, hrest, -⟩ := forEach_cons_ok.mp h
    obtain ⟨-, rfl⟩ := forEach_nil_ok.mp hrest
    show (actionTarget rel clock _ d (bootstrapAction 1) >>= pure) = _
    rw [bootstrapAction_ok hfound rfl hbootstrap]
    rfl
  | empty =>
    simp only [hshape] at h ⊢
    rw [(forEach_nil_ok.mp h).2]
    rfl
  | bridgedPrefix =>
    simp only [hshape] at h ⊢
    rw [(forEach_nil_ok.mp h).2]
    rfl

/-- The plan is the canonical one of the database, the second database is its
target, and that database shows the state expected. -/
structure Applied (rel : Release) (clock : Except BridgeError String) (p : BridgeMigrationPlan)
    (d d' : BridgeDatabase δ) (expected : SchemaState) : Prop where
  canonical : ∃ s, inspectSchemaState rel d = .ok s ∧ planBridgeMigrations rel s = .ok p ∧
    expectedTargetState rel s p.targetShape = .ok expected ∧ planTarget rel clock s d = .ok d'
  shows : inspectSchemaState rel d' = .ok expected

/-- **A body that ends applied the canonical plan of the state it locked.** -/
theorem applyBody_ok {clock : Except BridgeError String} {p : BridgeMigrationPlan}
    {d d' : BridgeDatabase δ} {expected : SchemaState}
    (h : applyBody rel strikes clock p d = (.ok expected, d')) : Applied rel clock p d d' expected := by
  simp only [applyBody, bind_ok, ensure_ok, lift_ok, pure_ok] at h
  obtain ⟨s, d₁, hlocked, _, _, ⟨-, rfl⟩, canonical, _, ⟨hplan, rfl⟩, _, _, ⟨-, rfl⟩, _, _, ⟨rfl, rfl⟩, expected', _,
    ⟨hexpected, rfl⟩, _, d₂, hactions, postWrite, d₃, hpost, _, _, ⟨rfl, rfl⟩, rfl, rfl⟩ := h
  obtain ⟨hlocked, rfl⟩ := inspectAt_ok hlocked
  obtain ⟨hpost, rfl⟩ := inspectAt_ok hpost
  rw [(planBridgeMigrations_ok hplan).1] at hactions
  exact ⟨⟨s, hlocked, hplan, hexpected, runActions_ok hlocked hactions⟩, hpost⟩

/-- The target of a plan has nothing left to plan. -/
theorem Applied.nothing_left {clock : Except BridgeError String} {p : BridgeMigrationPlan}
    {d d' : BridgeDatabase δ} {expected : SchemaState} (h : Applied rel clock p d d' expected) :
    ∃ p', planBridgeMigrations rel expected = .ok p' ∧ p'.actions = [] := by
  obtain ⟨s, -, -, hexpected, -⟩ := h.canonical
  obtain ⟨_, descriptors, -, -, -, hvalid⟩ := inspectSchemaState_ok h.shows
  have hshape : expected.shape = .bridgedPrefix ∨ expected.shape = .empty := by
    unfold expectedTargetState at hexpected
    obtain ⟨_, -, hexpected⟩ := except_bind_ok.mp hexpected
    split at hexpected
    · obtain rfl := Except.ok.inj hexpected
      exact .inl rfl
    · obtain rfl := Except.ok.inj hexpected
      exact .inr rfl
    · simp at hexpected
  have hactions : (plannedActions expected).1 = [] := by
    unfold plannedActions
    rcases hshape with hshape | hshape <;> rw [hshape]
  refine ⟨_, by unfold planBridgeMigrations; rw [hvalid]; rfl, hactions⟩

end Writes

/-! ## The whole application -/

section Application

variable {δ : Type} {rel : Release} {x : Circumstances δ}

@[simp] theorem rollbackPlanApply_durable (faults : Faults) (c : Connection (BridgeDatabase δ)) :
    (rollbackPlanApply faults c).2.durable = c.durable := by
  unfold rollbackPlanApply
  split
  · rfl
  · rfl
  · have hback := Connection.rollback_durable faults.rollback c
    split
    next hroll => rw [← hback, hroll]
    next hroll =>
      rw [hroll] at hback
      split <;> exact hback

/-- The handler raises, and leaves the durable state. -/
theorem abandonPlan_spec (faults : Faults) (owns : Bool) (e : BridgeError)
    (c : Connection (BridgeDatabase δ)) :
    (∃ e', (abandonPlan faults owns e c).1 = .error e') ∧
      (abandonPlan faults owns e c).2.durable = c.durable := by
  have hback := rollbackPlanApply_durable faults c
  unfold abandonPlan
  split
  · split
    next c' hroll =>
      rw [hroll] at hback
      exact ⟨⟨_, rfl⟩, hback⟩
    next e' c' hroll =>
      rw [hroll] at hback
      exact ⟨⟨_, rfl⟩, hback⟩
  · exact ⟨⟨_, rfl⟩, rfl⟩

/-- **The transaction leaves the durable state or makes it the target; it ends
without an error only at the target.** -/
theorem planTransaction_spec (p : BridgeMigrationPlan) {c c' : Connection (BridgeDatabase δ)}
    {r : Except BridgeError SchemaState} (hidle : c.work = none)
    (h : planTransaction rel x p c = (r, c')) :
    (c'.durable = c.durable ∨ ∃ expected, Applied rel x.clock p c.durable c'.durable expected) ∧
      ∀ expected, r = .ok expected → Applied rel x.clock p c.durable c'.durable expected := by
  unfold planTransaction at h
  split at h
  next c₁ hbegin =>
    have hdurable := Connection.begin_durable x.faults.begin c
    rw [hbegin] at hdurable
    obtain ⟨⟨e, he⟩, hc⟩ := abandonPlan_spec x.faults c₁.work.isSome ⟨.driver, "BEGIN IMMEDIATE"⟩ c₁
    rw [h] at he hc
    simp only at he hc
    refine ⟨.inl (hc.trans hdurable), fun expected hr => ?_⟩
    simp [he] at hr
  next c₁ hbegin =>
    obtain ⟨-, -, rfl⟩ := Connection.begin_acknowledged hbegin
    split at h
    next e c₂ hbody =>
      have hdurable := Connection.body_durable (applyBody rel x.strikes x.clock p) x.faults.drops
        ⟨c.durable, some c.durable⟩
      rw [hbody] at hdurable
      obtain ⟨⟨e', he⟩, hc⟩ := abandonPlan_spec x.faults true e c₂
      rw [h] at he hc
      simp only at he hc
      refine ⟨.inl (hc.trans hdurable), fun expected hr => ?_⟩
      simp [he] at hr
    next expected c₂ hbody =>
      obtain ⟨d, hd, rfl⟩ := Connection.body_ok hbody
      have happlied : Applied rel x.clock p c.durable d expected := applyBody_ok hd
      split at h
      next c₃ hcommit =>
        obtain ⟨⟨e', he⟩, hc⟩ := abandonPlan_spec x.faults true ⟨.driver, "COMMIT"⟩ c₃
        rw [h] at he hc
        simp only at he hc
        refine ⟨?_, fun expected hr => by simp [he] at hr⟩
        rcases Connection.commit_durable hcommit with hsame | hnew
        · exact .inl (hc.trans hsame)
        · obtain rfl := Option.some.inj hnew
          exact .inr ⟨expected, hc ▸ happlied⟩
      next c₃ hcommit =>
        obtain ⟨d', hwork, -, rfl⟩ := Connection.commit_acknowledged hcommit
        obtain rfl := Option.some.inj hwork
        obtain ⟨rfl, rfl⟩ := Prod.mk.inj h
        refine ⟨.inr ⟨expected, happlied⟩, fun expected' hr => ?_⟩
        obtain rfl := Except.ok.inj hr
        exact happlied

theorem validateBridgeMigrationPlan_ok {plan : PlanArgument} {p : BridgeMigrationPlan}
    (h : validateBridgeMigrationPlan rel plan = .ok p) : plan = .plan p := by
  unfold validateBridgeMigrationPlan at h
  split at h
  · simp at h
  · split_ifs at h
    obtain rfl := Except.ok.inj h
    rfl

end Application

end QuantumEntanglement.Migrations
