import QuantumEntanglement.Lib.FaultyConnection
import QuantumEntanglement.Migrations.Schema

/-
  Concurrent initialisers — any number of runs of the migration runner

  Every initialiser creates the ledger where there is none, validates what it
  finds, takes its migrations one by one, each in a transaction of its own
  that looks for the ledger row first, and validates again. Outside a
  transaction each SELECT is a step, so another initialiser may commit between
  two of them; inside, the write lock is held and the transaction is one step.
  Every access may fail, and so may the clock.

  What is proved:
    1. `migrationBody_ok` — a body that ends left the database as it was,
       where the migration was recorded, or applied the whole migration with
       its ledger row.
    2. `accepted_kept` — from a ledger that validates, the database is at all
       times what applying the next migrations in order, each once, makes of
       it, and its ledger a prefix of the registry.
    3. `rejected_kept` — from one that does not, nothing ever changes.
    4. `migrations_exactly_once` — both, and that applying again changes
       nothing.
-/

namespace QuantumEntanglement.Migrations

open PyText Transaction FaultyConnection

variable {δ : Type}

/-! ## One migration -/

/-- The rows with one more, in the order of the primary key. -/
def LedgerTable.insert (t : LedgerTable) (row : LedgerRow) : Except MigrationError LedgerTable :=
  if t.rows.any (fun r => r.version == row.version || r.filename == row.filename) then .error .driver
  else .ok
    { sql := t.sql
      rows := t.rows.filter (fun r => r.version < row.version) ++ row ::
        t.rows.filter (fun r => row.version < r.version)
      sorted := by
        rw [List.pairwise_append, List.pairwise_cons]
        refine ⟨t.sorted.filter _, ⟨by simp, t.sorted.filter _⟩, ?_⟩
        intro a ha b hb
        simp only [List.mem_filter, decide_eq_true_eq] at ha
        rcases List.mem_cons.mp hb with rfl | hb
        · exact ha.2
        · simp only [List.mem_filter, decide_eq_true_eq] at hb
          omega }

namespace Package

variable (pkg : Package) (engine : Engine δ)

/-- A whole migration with its ledger row, as one transformation. -/
def applyMigration (m : Migration) (appliedAt : String) (db : Database δ) :
    Except MigrationError (Database δ) := do
  let statements ← pkg.sqlStatements m
  let catalog ← statements.foldlM (fun c s => engine s c) db.catalog
  match db.ledger with
  | .table t =>
    let t ← t.insert ⟨m.version, m.filename, pkg.digest m, appliedAt⟩
    pure ⟨.table t, catalog⟩
  | _ => .error .driver

end Package

abbrev MigrationTxn (δ α : Type) : Type := Txn (Database δ) MigrationError α

/-- An access of a transaction, by its number, where it may fail. -/
def touch (faulty : Nat → Bool) (n : Nat) : MigrationTxn δ Unit :=
  Txn.ensure (faulty n = false) .driver

def execStatements (engine : Engine δ) (faulty : Nat → Bool) :
    Nat → List String → MigrationTxn δ Unit
  | _, [] => pure ()
  | n, statement :: rest => do
    touch faulty n
    let before ← Txn.query (fun db : Database δ => db.catalog)
    let after ← Txn.lift (engine statement before)
    Txn.update (fun db => { db with catalog := after })
    execStatements engine faulty (n + 1) rest

/-- `INSERT INTO main.qe_schema_migrations`. -/
def insertLedgerRow (row : LedgerRow) : MigrationTxn δ Unit := do
  let ledger ← Txn.query (fun db : Database δ => db.ledger)
  match ledger with
  | .table t =>
    let t ← Txn.lift (t.insert row)
    Txn.update (fun db => { db with ledger := .table t })
  | _ => Txn.raise .driver

/-- The validation, inside a transaction. -/
def revalidate (pkg : Package) : MigrationTxn δ Unit := do
  let verdict ← Txn.query (validateSqliteSchema pkg)
  let _ ← Txn.lift verdict

/-- The body of the transaction of one migration. -/
def migrationBody (pkg : Package) (engine : Engine δ) (faulty : Nat → Bool)
    (clock : Except MigrationError String) (m : Migration) : MigrationTxn δ Unit := do
  touch faulty 0
  let read ← Txn.query (fun db : Database δ => db.ledgerRows)
  let rows ← Txn.lift read
  match rows.find? (fun r => r.version == (m.version : Int)) with
  | some row =>
    if row.filename ≠ m.filename ∨ row.sha256 ≠ pkg.digest m then
      Txn.raise (.drift ("migration " ++ toString m.version ++
        " checksum or filename differs from the applied schema"))
    else revalidate pkg
  | none =>
    let appliedAt ← Txn.lift clock
    Txn.ensure (isBlank appliedAt = false) (.value "migration clock must return a timestamp string")
    let statements ← Txn.lift (pkg.sqlStatements m)
    execStatements engine faulty 1 statements
    touch faulty (statements.length + 1)
    insertLedgerRow ⟨m.version, m.filename, pkg.digest m, appliedAt⟩
    touch faulty (statements.length + 2)
    revalidate pkg

/-- The handler of a transaction that raised: roll back what is open, where
the connection says so. -/
def abandon (faults : Faults) (c : Connection (Database δ)) : Connection (Database δ) :=
  if c.inTransaction faults.probe = some true then (c.rollback faults.rollback).2 else c

/-- BEGIN IMMEDIATE, the body, COMMIT. -/
def migrationTransaction (faults : Faults) (body : MigrationTxn δ Unit)
    (c : Connection (Database δ)) : Except MigrationError Unit × Connection (Database δ) :=
  match c.begin faults.begin with
  | (false, c) => (.error .driver, abandon faults c)
  | (true, c) =>
    match c.body body faults.drops with
    | (.error e, c) => (.error e, abandon faults c)
    | (.ok _, c) =>
      match c.commit faults.commit with
      | (true, c) => (.ok (), c)
      | (false, c) => (.error .driver, abandon faults c)

/-! ## Initialisers -/

/-- The checks before the first access: the migrations selected. -/
def Package.selected (pkg : Package) (targetVersions : Option (List Int)) :
    Except MigrationError (List Migration) := do
  pkg.validateRegistry
  match targetVersions with
  | none => pure pkg.migrations
  | some requested =>
    if requested ≠ (pkg.versions.take requested.length).map Int.ofNat then
      .error (.value "target migration versions must be a continuous registry prefix")
    else pure (pkg.migrations.filter (fun m => requested.contains (m.version : Int)))

/-- `_LEDGER_CREATE_SQL`. -/
def createLedger (db : Database δ) : Except MigrationError (Database δ) :=
  match db.ledger with
  | .absent => .ok { db with ledger := .table ⟨ledgerSchemaSql, [], .nil⟩ }
  | .table _ | .view _ => .ok db
  | .index _ => .error .driver

/-- Where an initialiser is. A validation knows what is to follow it: the
migrations selected, or the end. -/
inductive Phase where
  | entering
  | readLedger (next : Option (List Migration))
  | readRows (next : Option (List Migration))
  | readObjects (next : Option (List Migration)) (version : Nat)
      (remaining : List ((String × String) × String))
  | migrating (remaining : List Migration)
  | returned (version : Nat)
  | raised (e : MigrationError)

/-- What fails in a step, and the clock reading it meets. -/
structure Strike where
  access : Fault
  faulty : Nat → Bool
  faults : Faults
  clock : Except MigrationError String

/-- A validation that passed. -/
def proceed : Option (List Migration) → Nat → Phase
  | some selected, _ => .migrating selected
  | none, version => .returned version

/-- A SELECT outside a transaction, and the phase its result leads to. -/
def reading {α : Type} (x : Strike) (r : Except MigrationError α) (next : α → Phase) : Phase :=
  match x.access with
  | .none =>
    match r with
    | .ok a => next a
    | .error e => .raised e
  | _ => .raised .driver

/-- The rows of the ledger, checked: the version and the objects expected. -/
def readExpected (pkg : Package) (db : Database δ) :
    Except MigrationError (Nat × List ((String × String) × String)) := do
  let rows ← db.ledgerRows
  let applied ← checkRows pkg rows
  let expected ← expectedSchemaObjects pkg applied
  pure (lastVersion applied, expected)

/-- A step of an initialiser. -/
def advance (pkg : Package) (engine : Engine δ) (targetVersions : Option (List Int)) (x : Strike) :
    Phase → Database δ → Phase × Database δ
  | .entering, db =>
    match pkg.selected targetVersions with
    | .error e => (.raised e, db)
    | .ok selected =>
      match x.access, createLedger db with
      | .before, _ => (.raised .driver, db)
      | _, .error e => (.raised e, db)
      | .none, .ok db' => (.readLedger (some selected), db')
      | .after, .ok db' => (.raised .driver, db')
  | .readLedger next, db =>
    (reading x (checkLedger db) (fun present => if present then .readRows next else proceed next 0), db)
  | .readRows next, db =>
    (reading x (readExpected pkg db) (fun found => .readObjects next found.1 found.2), db)
  | .readObjects next version [], db => (proceed next version, db)
  | .readObjects next version (o :: rest), db =>
    (reading x (checkObject db o) (fun _ => .readObjects next version rest), db)
  | .migrating [], db => (.readLedger none, db)
  | .migrating (m :: rest), db =>
    match migrationTransaction x.faults (migrationBody pkg engine x.faulty x.clock m) ⟨db, none⟩ with
    | (.ok _, c) => (.migrating rest, c.durable)
    | (.error e, c) => (.raised e, c.durable)
  | .returned version, db => (.returned version, db)
  | .raised e, db => (.raised e, db)

/-- The database and the initialisers working on it. -/
structure Machine (δ : Type) where
  db : Database δ
  phase : Nat → Phase

/-- A step of initialiser `p`. -/
def Machine.step (pkg : Package) (engine : Engine δ) (targets : Nat → Option (List Int)) (p : Nat)
    (x : Strike) (s : Machine δ) : Machine δ :=
  let (phase, db) := advance pkg engine (targets p) x (s.phase p) s.db
  ⟨db, fun q => if q = p then phase else s.phase q⟩

/-- Any number of initialisers, in any order: whose step it is, and what
fails in it. -/
def runInitializers (pkg : Package) (engine : Engine δ) (targets : Nat → Option (List Int)) :
    List (Nat × Strike) → Machine δ → Machine δ
  | [], s => s
  | (p, x) :: rest, s => runInitializers pkg engine targets rest (s.step pkg engine targets p x)

/-- A database before any initialiser began. -/
def fresh (db : Database δ) : Machine δ := ⟨db, fun _ => .entering⟩

/-! ## What a transaction does -/

theorem insert_ok {t t' : LedgerTable} {row : LedgerRow} (h : t.insert row = .ok t') :
    t'.rows.length = t.rows.length + 1 ∧ row ∈ t'.rows := by
  unfold LedgerTable.insert at h
  split at h
  · simp at h
  next hfree =>
    rw [← Except.ok.inj h]
    refine ⟨?_, by simp⟩
    -- every row has another version, so it stands on one side
    have hsides : ∀ r ∈ t.rows, (decide (row.version < r.version)) = !decide (r.version < row.version) := by
      intro r hr
      have hne : r.version ≠ row.version := by
        intro heq
        exact hfree (List.any_eq_true.mpr ⟨r, hr, by simp [heq]⟩)
      rw [← decide_not, decide_eq_decide]
      omega
    have hsplit := List.length_eq_length_filter_add (l := t.rows) (fun r => decide (r.version < row.version))
    have hright : t.rows.filter (fun r => row.version < r.version) =
        t.rows.filter (fun r => !decide (r.version < row.version)) :=
      List.filter_congr hsides
    simp only [List.length_append, List.length_cons, hright]
    omega

theorem execStatements_ok {engine : Engine δ} {faulty : Nat → Bool} :
    ∀ {n : Nat} {statements : List String} {db db' : Database δ} {u : Unit},
      execStatements engine faulty n statements db = (.ok u, db') →
        ∃ catalog, statements.foldlM (fun c s => engine s c) db.catalog = .ok catalog ∧
          db' = { db with catalog := catalog }
  | _, [], db, db', u, h => by
    simp only [execStatements, Txn.pure_ok] at h
    exact ⟨db.catalog, rfl, h.2.symm⟩
  | n, statement :: rest, db, db', u, h => by
    simp only [execStatements, touch, Txn.bind_ok, Txn.ensure_ok, Txn.query_ok, Txn.lift_ok,
      Txn.update_ok] at h
    obtain ⟨_, _, ⟨-, rfl⟩, _, _, ⟨rfl, rfl⟩, after, _, ⟨hengine, rfl⟩, _, _, rfl, hrest⟩ := h
    obtain ⟨catalog, hfold, rfl⟩ := execStatements_ok hrest
    refine ⟨catalog, ?_, rfl⟩
    rw [List.foldlM_cons, hengine]
    exact hfold

theorem insertLedgerRow_ok {row : LedgerRow} {db db' : Database δ} {u : Unit}
    (h : insertLedgerRow row db = (.ok u, db')) : ∃ t t', db.ledger = .table t ∧
      t.insert row = .ok t' ∧ db' = { db with ledger := .table t' } := by
  simp only [insertLedgerRow, Txn.bind_ok, Txn.query_ok] at h
  obtain ⟨ledger, _, ⟨hledger, rfl⟩, h⟩ := h
  cases ledger with
  | table t =>
    simp only [Txn.bind_ok, Txn.lift_ok, Txn.update_ok] at h
    obtain ⟨t', _, ⟨hinsert, rfl⟩, rfl⟩ := h
    exact ⟨t, t', hledger, hinsert, rfl⟩
  | absent | index _ | view _ => simp at h

theorem revalidate_ok {pkg : Package} {db db' : Database δ} {u : Unit}
    (h : revalidate pkg db = (.ok u, db')) :
    db' = db ∧ ∃ k, validateSqliteSchema pkg db = .ok k := by
  simp only [revalidate, Txn.bind_ok, Txn.query_ok, Txn.lift_ok, Txn.pure_ok] at h
  obtain ⟨verdict, _, ⟨rfl, rfl⟩, k, _, ⟨hk, rfl⟩, -, rfl⟩ := h
  exact ⟨rfl, k, hk⟩

/-- **What a body that ends has done.** Where the migration was recorded,
nothing; otherwise the whole migration with its row, to a database that
validates. -/
theorem migrationBody_ok {pkg : Package} {engine : Engine δ} {faulty : Nat → Bool}
    {clock : Except MigrationError String} {m : Migration} {db db' : Database δ} {u : Unit}
    (h : migrationBody pkg engine faulty clock m db = (.ok u, db')) :
    ∃ rows, db.ledgerRows = .ok rows ∧
      (((∃ row ∈ rows, row.version = m.version) ∧ db' = db) ∨
        ((∀ row ∈ rows, row.version ≠ m.version) ∧
          ∃ appliedAt k, pkg.applyMigration engine m appliedAt db = .ok db' ∧
            validateSqliteSchema pkg db' = .ok k)) := by
  simp only [migrationBody, touch, Txn.bind_ok, Txn.ensure_ok, Txn.query_ok, Txn.lift_ok] at h
  obtain ⟨_, _, ⟨-, rfl⟩, _, _, ⟨rfl, rfl⟩, rows, _, ⟨hrows, rfl⟩, h⟩ := h
  refine ⟨rows, hrows, ?_⟩
  cases hfind : rows.find? (fun r => r.version == (m.version : Int)) with
  | some row =>
    simp only [hfind] at h
    split at h
    · simp at h
    · refine .inl ⟨⟨row, List.mem_of_find?_eq_some hfind, ?_⟩, (revalidate_ok h).1⟩
      simpa using List.find?_some hfind
  | none =>
    simp only [hfind, Txn.bind_ok, Txn.ensure_ok, Txn.lift_ok] at h
    obtain ⟨appliedAt, _, ⟨-, rfl⟩, _, _, ⟨-, rfl⟩, statements, _, ⟨hstatements, rfl⟩, _, db₁, hexec,
      _, _, ⟨-, rfl⟩, _, db₂, hinsert, _, _, ⟨-, rfl⟩, hvalid⟩ := h
    obtain ⟨catalog, hfold, rfl⟩ := execStatements_ok hexec
    obtain ⟨t, t', hledger, hrow, rfl⟩ := insertLedgerRow_ok hinsert
    obtain ⟨rfl, k, hk⟩ := revalidate_ok hvalid
    refine .inr ⟨?_, appliedAt, k, ?_, hk⟩
    · intro row hmem hversion
      have hnone := List.find?_eq_none.mp hfind row hmem
      simp [hversion] at hnone
    · simp only at hledger
      simp only [Package.applyMigration, hstatements, hfold, hledger, hrow, Bind.bind, Except.bind,
        pure, Except.pure]

@[simp] theorem abandon_durable (faults : Faults) (c : Connection (Database δ)) :
    (abandon faults c).durable = c.durable := by
  unfold abandon
  split
  · exact Connection.rollback_durable _ c
  · rfl

/-- **A transaction is whole or nothing.** It leaves the durable database, or
what its body made of it; and the latter where it reports success. -/
theorem migrationTransaction_durable {faults : Faults} {body : MigrationTxn δ Unit}
    {db : Database δ} {r : Except MigrationError Unit} {c : Connection (Database δ)}
    (h : migrationTransaction faults body ⟨db, none⟩ = (r, c)) :
    (c.durable = db ∧ ∃ e, r = .error e) ∨ ∃ u, body db = (.ok u, c.durable) := by
  unfold migrationTransaction at h
  rcases hbegin : Connection.begin faults.begin ⟨db, none⟩ with ⟨began, c₁⟩
  have hdurable := Connection.begin_durable faults.begin (⟨db, none⟩ : Connection (Database δ))
  rw [hbegin] at h hdurable
  simp only at hdurable
  cases began with
  | false =>
    obtain ⟨rfl, rfl⟩ := Prod.mk.inj h
    exact .inl ⟨by rw [abandon_durable, hdurable], .driver, rfl⟩
  | true =>
    obtain ⟨-, -, rfl⟩ := Connection.begin_acknowledged hbegin
    simp only at h
    rcases hbody : Connection.body body faults.drops ⟨db, some db⟩ with ⟨r₂, c₂⟩
    have hdurable₂ := Connection.body_durable body faults.drops (⟨db, some db⟩ : Connection (Database δ))
    rw [hbody] at h hdurable₂
    simp only at hdurable₂
    cases r₂ with
    | error e =>
      obtain ⟨rfl, rfl⟩ := Prod.mk.inj h
      exact .inl ⟨by rw [abandon_durable, hdurable₂], e, rfl⟩
    | ok u =>
      obtain ⟨db', hrun, rfl⟩ := Connection.body_ok hbody
      simp only [Option.getD_some] at hrun
      simp only at h
      rcases hcommit : Connection.commit faults.commit ⟨db, some db'⟩ with ⟨acked, c₃⟩
      rw [hcommit] at h
      cases acked with
      | true =>
        obtain ⟨s, hs, -, rfl⟩ := Connection.commit_acknowledged hcommit
        obtain rfl := Option.some.inj hs
        obtain ⟨rfl, rfl⟩ := Prod.mk.inj h
        exact .inr ⟨u, hrun⟩
      | false =>
        obtain ⟨rfl, rfl⟩ := Prod.mk.inj h
        rcases Connection.commit_durable hcommit with hsame | hmoved
        · exact .inl ⟨by rw [abandon_durable, hsame], .driver, rfl⟩
        · obtain rfl := Option.some.inj hmoved
          exact .inr ⟨u, by rw [abandon_durable]; exact hrun⟩

/-! ## From a ledger that validates -/

variable {pkg : Package} {engine : Engine δ} {start : Database δ} {k₀ : Nat}

/-- What the database can have become: the start, with its ledger created, and
then the next migrations of the registry, each applied whole and once. -/
inductive Migrated (pkg : Package) (engine : Engine δ) (start : Database δ) (k₀ : Nat) :
    Database δ → Nat → Prop where
  | start : Migrated pkg engine start k₀ start k₀
  | create {db : Database δ} : start.ledger = .absent → createLedger start = .ok db →
      Migrated pkg engine start k₀ db k₀
  | apply {db db' : Database δ} {k : Nat} {m : Migration} {appliedAt : String} :
      Migrated pkg engine start k₀ db k → pkg.migrations[k]? = some m →
      pkg.applyMigration engine m appliedAt db = .ok db' →
      validateSqliteSchema pkg db' = .ok (k + 1) → Migrated pkg engine start k₀ db' (k + 1)

/-- No ledger, or one that holds the first `k` migrations. -/
def LedgerAt (pkg : Package) (db : Database δ) (k : Nat) : Prop :=
  (db.ledger = .absent ∧ k = 0) ∨ ∃ t, db.ledger = .table t ∧ IsPrefix pkg k t.rows

theorem ledgerAt_of_validate {db : Database δ} {k : Nat} (h : validateSqliteSchema pkg db = .ok k) :
    LedgerAt pkg db k :=
  (validate_ok h).2

/-- **The ledger is always a prefix of the registry.** -/
theorem Migrated.ledgerAt (hvalid : validateSqliteSchema pkg start = .ok k₀) {db : Database δ}
    {k : Nat} (h : Migrated pkg engine start k₀ db k) : LedgerAt pkg db k := by
  cases h with
  | start => exact ledgerAt_of_validate hvalid
  | create habsent hcreate =>
    have hzero : k₀ = 0 := by
      rcases (validate_ok hvalid).2 with ⟨-, h⟩ | ⟨t, ht, -⟩
      · exact h
      · simp [habsent] at ht
    simp only [createLedger, habsent, Except.ok.injEq] at hcreate
    refine .inr ⟨⟨ledgerSchemaSql, [], .nil⟩, by rw [← hcreate], ?_⟩
    rw [hzero]
    exact ⟨Nat.zero_le _, rfl⟩
  | apply _ _ _ hv => exact ledgerAt_of_validate hv

/-- The migrations selected are the first ones of a valid registry. -/
theorem selected_ok {target : Option (List Int)} {selected : List Migration}
    (h : pkg.selected target = .ok selected) :
    pkg.validateRegistry = .ok () ∧ ∃ n, selected = pkg.migrations.take n := by
  unfold Package.selected at h
  cases hreg : pkg.validateRegistry with
  | error e => simp [hreg, Bind.bind, Except.bind] at h
  | ok u =>
    refine ⟨rfl, ?_⟩
    simp only [hreg, Bind.bind, Except.bind] at h
    cases target with
    | none =>
      simp only [pure, Except.pure, Except.ok.injEq] at h
      exact ⟨pkg.migrations.length, by rw [← h, List.take_length]⟩
    | some requested =>
      simp only at h
      split at h
      · simp at h
      next hinitial =>
        have hrequested := Classical.not_not.mp hinitial
        simp only [pure, Except.pure, Except.ok.injEq] at h
        refine ⟨requested.length, ?_⟩
        rw [← h]
        -- the versions requested are those of the first migrations, and no other has one of them
        have hsorted : pkg.versions.Pairwise (· < ·) := by
          rw [(validateRegistry_ok hreg).1]
          exact List.pairwise_lt_range'
        have hmem : ∀ m : Migration, requested.contains (m.version : Int) = true ↔
            m.version ∈ pkg.versions.take requested.length := by
          intro m
          rw [List.contains_iff_mem]
          conv_lhs => rw [hrequested]
          rw [List.mem_map]
          constructor
          · rintro ⟨v, hv, heq⟩
            obtain rfl : v = m.version := Int.ofNat.inj heq
            exact hv
          · exact fun hv => ⟨m.version, hv, rfl⟩
        conv_lhs => rw [← List.take_append_drop requested.length pkg.migrations]
        rw [List.filter_append, List.filter_eq_self.mpr, List.filter_eq_nil_iff.mpr, List.append_nil]
        · intro m hm
          rw [hmem]
          intro htake
          rw [Package.versions, ← List.take_append_drop requested.length pkg.migrations,
            List.map_append, List.pairwise_append] at hsorted
          have hlt := hsorted.2.2 m.version (by rwa [List.map_take]) m.version
            (List.mem_map_of_mem hm)
          omega
        · intro m hm
          rw [hmem, Package.versions, ← List.map_take]
          exact List.mem_map_of_mem hm

/-- Every selection is within the first `k` migrations. -/
def Covered (pkg : Package) (target : Option (List Int)) (k : Nat) : Prop :=
  ∀ selected, pkg.selected target = .ok selected → selected.length ≤ k

/-- What a validation leads to is in order. -/
def NextOk (pkg : Package) (target : Option (List Int)) (k : Nat) : Option (List Migration) → Prop
  | some selected => pkg.selected target = .ok selected
  | none => Covered pkg target k

/-- What holds of an initialiser when `k` migrations are applied. -/
def PhaseOk (pkg : Package) (target : Option (List Int)) (k : Nat) : Phase → Prop
  | .entering | .raised _ => True
  | .readLedger next | .readRows next => NextOk pkg target k next
  | .readObjects next version _ =>
    NextOk pkg target k next ∧ (next = none → version ≤ k ∧ Covered pkg target version)
  | .migrating remaining => ∃ selected j, pkg.selected target = .ok selected ∧
      remaining = selected.drop j ∧ j ≤ k
  | .returned version => version ≤ k ∧ Covered pkg target version

/-- Past the creation of the ledger. -/
def Phase.Inside : Phase → Prop
  | .entering | .raised _ => False
  | _ => True

theorem Covered.mono {target : Option (List Int)} {k k' : Nat} (h : Covered pkg target k)
    (hk : k ≤ k') : Covered pkg target k' :=
  fun selected hs => Nat.le_trans (h selected hs) hk

theorem NextOk.mono {target : Option (List Int)} {k k' : Nat} {next : Option (List Migration)}
    (h : NextOk pkg target k next) (hk : k ≤ k') : NextOk pkg target k' next := by
  cases next with
  | none => exact Covered.mono h hk
  | some selected => exact h

theorem PhaseOk.mono {target : Option (List Int)} {k k' : Nat} {phase : Phase}
    (h : PhaseOk pkg target k phase) (hk : k ≤ k') : PhaseOk pkg target k' phase := by
  cases phase with
  | entering | raised => trivial
  | readLedger | readRows => exact NextOk.mono h hk
  | readObjects =>
    exact ⟨h.1.mono hk, fun hnone => ⟨Nat.le_trans (h.2 hnone).1 hk, (h.2 hnone).2⟩⟩
  | migrating =>
    obtain ⟨selected, j, hs, hrest, hj⟩ := h
    exact ⟨selected, j, hs, hrest, Nat.le_trans hj hk⟩
  | returned => exact ⟨Nat.le_trans h.1 hk, h.2⟩

theorem phaseOk_proceed {target : Option (List Int)} {k v : Nat} {next : Option (List Migration)}
    (hn : NextOk pkg target k next) (hv : next = none → v ≤ k ∧ Covered pkg target v) :
    PhaseOk pkg target k (proceed next v) := by
  cases next with
  | none => exact hv rfl
  | some selected => exact ⟨selected, 0, hn, rfl, Nat.zero_le _⟩

/-- The phase a SELECT leads to, by how it ended. -/
theorem reading_cases {α : Type} (x : Strike) (r : Except MigrationError α) (next : α → Phase) :
    (∃ e, reading x r next = .raised e) ∨ ∃ a, r = .ok a ∧ reading x r next = next a := by
  unfold reading
  split
  · cases r with
    | ok a => exact .inr ⟨a, rfl, rfl⟩
    | error e => exact .inl ⟨e, rfl⟩
  · exact .inl ⟨.driver, rfl⟩

/-- The rows of a ledger at `k` are those of the first `k` migrations. -/
theorem LedgerAt.rows {db : Database δ} {k : Nat} (h : LedgerAt pkg db k) {rows : List LedgerRow}
    (hrows : db.ledgerRows = .ok rows) : IsPrefix pkg k rows := by
  rcases h with ⟨habsent, -⟩ | ⟨t, ht, hinitial⟩
  · simp [Database.ledgerRows, habsent] at hrows
  · simp only [Database.ledgerRows, ht, Except.ok.injEq] at hrows
    rw [← hrows]
    exact hinitial

/-- Whether migration `j + 1` is recorded says whether `j < k`. -/
theorem IsPrefix.recorded_iff (hr : pkg.validateRegistry = .ok ()) {k j : Nat} {rows : List LedgerRow}
    (h : IsPrefix pkg k rows) : (∃ row ∈ rows, row.version = ((j + 1 : Nat) : Int)) ↔ j < k := by
  have hlen := h.length
  have hle := h.1
  constructor
  · rintro ⟨row, hmem, hv⟩
    obtain ⟨i, hi, rfl⟩ := List.getElem_of_mem hmem
    have hget := (h.getElem hr hi (by omega)).1
    omega
  · intro hj
    have hi : j < rows.length := by omega
    exact ⟨rows[j], List.getElem_mem hi, by rw [(h.getElem hr hi (by omega)).1]; omega⟩

theorem applyMigration_ledger {m : Migration} {appliedAt : String} {db db' : Database δ}
    (h : pkg.applyMigration engine m appliedAt db = .ok db') :
    ∃ t t', db.ledger = .table t ∧ db'.ledger = .table t' ∧ t'.rows.length = t.rows.length + 1 := by
  unfold Package.applyMigration at h
  cases hstatements : pkg.sqlStatements m with
  | error e => simp [hstatements, Bind.bind, Except.bind] at h
  | ok statements =>
    simp only [hstatements, Bind.bind, Except.bind] at h
    cases hfold : statements.foldlM (fun c s => engine s c) db.catalog with
    | error e => simp [hfold] at h
    | ok catalog =>
      simp only [hfold] at h
      cases hledger : db.ledger with
      | absent | index _ | view _ => simp [hledger] at h
      | table t =>
        simp only [hledger] at h
        cases hinsert : t.insert ⟨m.version, m.filename, pkg.digest m, appliedAt⟩ with
        | error e => simp [hinsert] at h
        | ok t' =>
          simp only [hinsert, pure, Except.pure, Except.ok.injEq] at h
          exact ⟨t, t', rfl, by rw [← h], (insert_ok hinsert).1⟩

/-- Creating the ledger: where there is none, the first change. -/
theorem created {db db' : Database δ} {k : Nat} (hm : Migrated pkg engine start k₀ db k)
    (h : createLedger db = .ok db') : Migrated pkg engine start k₀ db' k ∧ db'.ledger ≠ .absent ∧
      (db.ledger ≠ .absent → db' = db) := by
  unfold createLedger at h
  split at h
  next habsent =>
    have hdb : db' = { db with ledger := .table ⟨ledgerSchemaSql, [], .nil⟩ } := (Except.ok.inj h).symm
    refine ⟨?_, by simp [hdb], fun hne => absurd habsent hne⟩
    -- without a ledger nothing has happened yet
    cases hm with
    | start => exact .create habsent (by simp [createLedger, habsent, hdb])
    | create habsent' hcreate =>
      simp only [createLedger, habsent', Except.ok.injEq] at hcreate
      simp [← hcreate] at habsent
    | apply _ _ happly _ =>
      obtain ⟨t, t', -, ht', -⟩ := applyMigration_ledger happly
      simp [ht'] at habsent
  next t ht =>
    obtain rfl := Except.ok.inj h
    exact ⟨hm, by simp [ht], fun _ => rfl⟩
  next sql hview =>
    obtain rfl := Except.ok.inj h
    exact ⟨hm, by simp [hview], fun _ => rfl⟩
  · simp at h

theorem checkLedger_present {db : Database δ} {b : Bool} (hpresent : db.ledger ≠ .absent)
    (h : checkLedger db = .ok b) : b = true := by
  unfold checkLedger at h
  split at h
  next hentry =>
    unfold Database.ledgerEntry at hentry
    split at hentry
    next habsent => exact absurd habsent hpresent
    all_goals simp at hentry
  · split at h
    · simp at h
    · split at h
      · simp at h
      · exact (Except.ok.inj h).symm

/-- The version the rows of a ledger at `k` show is `k`. -/
theorem readExpected_version (hr : pkg.validateRegistry = .ok ()) {db : Database δ} {k : Nat}
    (hat : LedgerAt pkg db k) {found : Nat × List ((String × String) × String)}
    (h : readExpected pkg db = .ok found) : found.1 = k := by
  unfold readExpected at h
  cases hrows : db.ledgerRows with
  | error e => simp [hrows, Bind.bind, Except.bind] at h
  | ok rows =>
    simp only [hrows, Bind.bind, Except.bind] at h
    cases hchecked : checkRows pkg rows with
    | error e => simp [hchecked] at h
    | ok applied =>
      simp only [hchecked] at h
      cases hexpected : expectedSchemaObjects pkg applied with
      | error e => simp [hexpected] at h
      | ok expected =>
        simp only [hexpected, pure, Except.pure, Except.ok.injEq] at h
        obtain ⟨-, rfl⟩ := checkRows_ok hr hchecked
        rw [← h]
        exact (hat.rows hrows).lastVersion hr

/-- **A step from a ledger that validated.** The database stays what it was or
becomes the next migration applied, and the initialiser is in order after it.
Where its selection was applied before, the database stays. -/
theorem advance_accepted (hvalid : validateSqliteSchema pkg start = .ok k₀)
    {target : Option (List Int)} {x : Strike} {phase phase' : Phase} {db db' : Database δ} {k : Nat}
    (hm : Migrated pkg engine start k₀ db k) (hphase : PhaseOk pkg target k phase)
    (hinside : phase.Inside → db.ledger ≠ .absent)
    (h : advance pkg engine target x phase db = (phase', db')) :
    ∃ k', k ≤ k' ∧ Migrated pkg engine start k₀ db' k' ∧ PhaseOk pkg target k' phase' ∧
      (phase'.Inside → db'.ledger ≠ .absent) ∧ (db.ledger ≠ .absent → db'.ledger ≠ .absent) ∧
      (Covered pkg target k → db.ledger ≠ .absent → db' = db ∧ k' = k) := by
  have hat := hm.ledgerAt hvalid
  -- a phase that leaves the database alone
  have hstay : ∀ ph, PhaseOk pkg target k ph → (ph.Inside → db.ledger ≠ .absent) → db' = db →
      phase' = ph → ∃ k', k ≤ k' ∧ Migrated pkg engine start k₀ db' k' ∧
        PhaseOk pkg target k' phase' ∧ (phase'.Inside → db'.ledger ≠ .absent) ∧
        (db.ledger ≠ .absent → db'.ledger ≠ .absent) ∧
        (Covered pkg target k → db.ledger ≠ .absent → db' = db ∧ k' = k) := by
    rintro ph hok hin rfl rfl
    exact ⟨k, Nat.le_refl _, hm, hok, hin, id, fun _ _ => ⟨rfl, rfl⟩⟩
  cases phase with
  | entering =>
    simp only [advance] at h
    split at h
    next e hs =>
      obtain ⟨rfl, rfl⟩ := Prod.mk.inj h
      exact hstay (.raised e) trivial (by simp [Phase.Inside]) rfl rfl
    next selected hs =>
      cases hcreate : createLedger db with
      | error e =>
        rw [hcreate] at h
        have hraised : ∃ e', phase' = .raised e' ∧ db' = db := by
          cases hacc : x.access <;> simp only [hacc] at h <;> obtain ⟨rfl, rfl⟩ := Prod.mk.inj h
          · exact ⟨e, rfl, rfl⟩
          · exact ⟨.driver, rfl, rfl⟩
          · exact ⟨e, rfl, rfl⟩
        obtain ⟨e', hphase', hdb⟩ := hraised
        exact hstay (.raised e') trivial (by simp [Phase.Inside]) hdb hphase'
      | ok db₁ =>
        obtain ⟨hm', hpresent, hsame⟩ := created hm hcreate
        rw [hcreate] at h
        cases hacc : x.access <;> simp only [hacc] at h <;> obtain ⟨rfl, rfl⟩ := Prod.mk.inj h
        · exact ⟨k, Nat.le_refl _, hm', hs, fun _ => hpresent, fun _ => hpresent,
            fun _ hne => ⟨hsame hne, rfl⟩⟩
        · exact hstay (.raised .driver) trivial (by simp [Phase.Inside]) rfl rfl
        · exact ⟨k, Nat.le_refl _, hm', trivial, fun _ => hpresent, fun _ => hpresent,
            fun _ hne => ⟨hsame hne, rfl⟩⟩
  | readLedger next =>
    obtain ⟨rfl, rfl⟩ := Prod.mk.inj h
    have hpresent := hinside trivial
    rcases reading_cases x (checkLedger db)
      (fun present => if present then .readRows next else proceed next 0) with ⟨e, he⟩ | ⟨b, hb, he⟩
    · exact hstay (.raised e) trivial (by simp [Phase.Inside]) rfl he
    · obtain rfl := checkLedger_present hpresent hb
      exact hstay (.readRows next) hphase (fun _ => hpresent) rfl (by rw [he]; rfl)
  | readRows next =>
    obtain ⟨rfl, rfl⟩ := Prod.mk.inj h
    have hpresent := hinside trivial
    rcases reading_cases x (readExpected pkg db)
      (fun found => .readObjects next found.1 found.2) with ⟨e, he⟩ | ⟨found, hfound, he⟩
    · exact hstay (.raised e) trivial (by simp [Phase.Inside]) rfl he
    · refine hstay (.readObjects next found.1 found.2) ⟨hphase, ?_⟩ (fun _ => hpresent) rfl he
      rintro rfl
      have hversion : found.1 = k := readExpected_version (validate_ok hvalid).1 hat hfound
      rw [hversion]
      exact ⟨Nat.le_refl _, hphase⟩
  | readObjects next version remaining =>
    have hpresent := hinside trivial
    cases remaining with
    | nil =>
      obtain ⟨rfl, rfl⟩ := Prod.mk.inj h
      exact hstay _ (phaseOk_proceed hphase.1 hphase.2) (fun _ => hpresent) rfl rfl
    | cons o rest =>
      obtain ⟨rfl, rfl⟩ := Prod.mk.inj h
      rcases reading_cases x (checkObject db o) (fun _ => .readObjects next version rest)
        with ⟨e, he⟩ | ⟨u, hu, he⟩
      · exact hstay (.raised e) trivial (by simp [Phase.Inside]) rfl he
      · exact hstay (.readObjects next version rest) hphase (fun _ => hpresent) rfl he
  | migrating remaining =>
    have hpresent := hinside trivial
    obtain ⟨selected, j, hs, hrest, hj⟩ := hphase
    obtain ⟨hreg, n, hn⟩ := selected_ok hs
    cases remaining with
    | nil =>
      obtain ⟨rfl, rfl⟩ := Prod.mk.inj h
      refine hstay (.readLedger none) ?_ (fun _ => hpresent) rfl rfl
      intro selected' hs'
      rw [hs] at hs'
      obtain rfl := Except.ok.inj hs'
      have hlen := congrArg List.length hrest
      simp only [List.length_nil, List.length_drop] at hlen
      omega
    | cons m rest =>
      -- the head is migration `j + 1`, and the `k` applied ones include those before it
      have hget : selected[j]? = some m := by
        rw [← List.head?_drop, ← hrest]
        rfl
      have hjn : j < selected.length := by
        rw [List.getElem?_eq_some_iff] at hget
        exact hget.1
      have hmig : pkg.migrations[j]? = some m := by
        rw [hn] at hget
        rw [hn, List.length_take] at hjn
        rwa [List.getElem?_take_of_lt (by omega)] at hget
      have hrest' : rest = selected.drop (j + 1) := by
        rw [← List.tail_drop, ← hrest]
        rfl
      have hversion : m.version = j + 1 := by
        obtain ⟨hjm, rfl⟩ := List.getElem?_eq_some_iff.mp hmig
        exact version_getElem hreg hjm
      simp only [advance] at h
      rcases hrun : migrationTransaction x.faults (migrationBody pkg engine x.faulty x.clock m)
        ⟨db, none⟩ with ⟨r, c⟩
      rw [hrun] at h
      rcases migrationTransaction_durable hrun with ⟨hsame, e, rfl⟩ | ⟨u, hbody⟩
      · obtain ⟨rfl, rfl⟩ := Prod.mk.inj h
        exact hstay (.raised e) trivial (by simp [Phase.Inside]) hsame rfl
      · obtain ⟨rows, hrows, hdone⟩ := migrationBody_ok hbody
        have hinitial := hat.rows hrows
        rcases hdone with ⟨hrecorded, hsame⟩ | ⟨hnew, appliedAt, v, happly, hv⟩
        · rw [hversion, hinitial.recorded_iff hreg] at hrecorded
          cases r with
          | error e =>
            obtain ⟨rfl, rfl⟩ := Prod.mk.inj h
            exact hstay (.raised e) trivial (by simp [Phase.Inside]) hsame rfl
          | ok _ =>
            obtain ⟨rfl, rfl⟩ := Prod.mk.inj h
            exact hstay (.migrating rest) ⟨selected, j + 1, hs, hrest', hrecorded⟩
              (fun _ => hpresent) hsame rfl
        · -- not recorded, so it is the next one
          have hnot : ¬j < k := by
            rw [← hinitial.recorded_iff hreg]
            rintro ⟨row, hmem, hv'⟩
            exact hnew row hmem (by rw [hversion]; exact hv')
          obtain rfl : j = k := by omega
          obtain ⟨t, t', ht, ht', hlen⟩ := applyMigration_ledger happly
          have hv' : v = j + 1 := by
            have hat' : LedgerAt pkg c.durable v := ledgerAt_of_validate hv
            rcases hat' with ⟨habsent, -⟩ | ⟨t₂, ht₂, hinitial₂⟩
            · simp [ht'] at habsent
            · rw [ht'] at ht₂
              obtain rfl := LedgerObject.table.inj ht₂
              have hrowsT : t.rows = rows := by
                simpa [Database.ledgerRows, ht] using hrows
              rw [← hinitial₂.length, hlen, hrowsT, hinitial.length]
          rw [hv'] at hv
          have hm' := Migrated.apply hm hmig happly hv
          have hpresent' : c.durable.ledger ≠ .absent := by simp [ht']
          refine ⟨j + 1, Nat.le_succ j, ?_⟩
          cases r with
          | error e =>
            obtain ⟨rfl, rfl⟩ := Prod.mk.inj h
            refine ⟨hm', trivial, fun _ => hpresent', fun _ => hpresent', ?_⟩
            intro hcovered
            have hle := hcovered selected hs
            omega
          | ok _ =>
            obtain ⟨rfl, rfl⟩ := Prod.mk.inj h
            refine ⟨hm', ⟨selected, j + 1, hs, hrest', Nat.le_refl _⟩, fun _ => hpresent',
              fun _ => hpresent', ?_⟩
            intro hcovered
            have hle := hcovered selected hs
            omega
  | returned version =>
    obtain ⟨rfl, rfl⟩ := Prod.mk.inj h
    exact hstay (.returned version) hphase hinside rfl rfl
  | raised e =>
    obtain ⟨rfl, rfl⟩ := Prod.mk.inj h
    exact hstay (.raised e) trivial hinside rfl rfl

/-- Everything in order after `k` migrations. -/
def Ordered (pkg : Package) (engine : Engine δ) (targets : Nat → Option (List Int))
    (start : Database δ) (k₀ k : Nat) (s : Machine δ) : Prop :=
  Migrated pkg engine start k₀ s.db k ∧ ∀ p, PhaseOk pkg (targets p) k (s.phase p) ∧
    ((s.phase p).Inside → s.db.ledger ≠ .absent)

theorem step_ordered (hvalid : validateSqliteSchema pkg start = .ok k₀)
    {targets : Nat → Option (List Int)} {k : Nat} {s : Machine δ} (p : Nat) (x : Strike)
    (hs : Ordered pkg engine targets start k₀ k s) :
    ∃ k', k ≤ k' ∧ Ordered pkg engine targets start k₀ k' (s.step pkg engine targets p x) ∧
      (Covered pkg (targets p) k → s.db.ledger ≠ .absent →
        (s.step pkg engine targets p x).db = s.db ∧ k' = k) := by
  obtain ⟨hm, hphases⟩ := hs
  rcases hstep : advance pkg engine (targets p) x (s.phase p) s.db with ⟨phase', db'⟩
  obtain ⟨k', hk, hm', hphase', hinside', hpresent, hnoop⟩ :=
    advance_accepted hvalid hm (hphases p).1 (hphases p).2 hstep
  refine ⟨k', hk, ⟨?_, ?_⟩, ?_⟩
  · simpa only [Machine.step, hstep] using hm'
  · intro q
    simp only [Machine.step, hstep]
    by_cases hq : q = p
    · rw [if_pos hq, hq]
      exact ⟨hphase', hinside'⟩
    · rw [if_neg hq]
      exact ⟨(hphases q).1.mono hk, fun hin => hpresent ((hphases q).2 hin)⟩
  · simpa only [Machine.step, hstep] using hnoop

/-- **In every run from a ledger that validates, everything is in order.** -/
theorem accepted_kept (hvalid : validateSqliteSchema pkg start = .ok k₀)
    {targets : Nat → Option (List Int)} : ∀ (ls : List (Nat × Strike)) {k : Nat} {s : Machine δ},
      Ordered pkg engine targets start k₀ k s →
        ∃ k', k ≤ k' ∧ Ordered pkg engine targets start k₀ k' (runInitializers pkg engine targets ls s)
  | [], k, _, hs => ⟨k, Nat.le_refl _, hs⟩
  | (p, x) :: rest, k, s, hs => by
    obtain ⟨k₁, hk₁, hs₁, -⟩ := step_ordered hvalid p x hs
    obtain ⟨k', hk', hs'⟩ := accepted_kept hvalid rest hs₁
    exact ⟨k', Nat.le_trans hk₁ hk', hs'⟩

/-- Where every selection was applied before, nothing changes. -/
theorem covered_kept (hvalid : validateSqliteSchema pkg start = .ok k₀)
    {targets : Nat → Option (List Int)} (hpresent : start.ledger ≠ .absent)
    (hcovered : ∀ p, Covered pkg (targets p) k₀) :
    ∀ (ls : List (Nat × Strike)) {s : Machine δ}, s.db = start →
      Ordered pkg engine targets start k₀ k₀ s →
        (runInitializers pkg engine targets ls s).db = start ∧
          Ordered pkg engine targets start k₀ k₀ (runInitializers pkg engine targets ls s)
  | [], _, hdb, hs => ⟨hdb, hs⟩
  | (p, x) :: rest, s, hdb, hs => by
    obtain ⟨k₁, -, hs₁, hnoop⟩ := step_ordered hvalid p x hs
    obtain ⟨hsame, hk⟩ := hnoop (hcovered p) (by rw [hdb]; exact hpresent)
    rw [hk] at hs₁
    exact covered_kept hvalid hpresent hcovered rest (hsame.trans hdb) hs₁

theorem fresh_ordered (pkg : Package) (engine : Engine δ) (targets : Nat → Option (List Int)) (start : Database δ) (k₀ : Nat) :
    Ordered pkg engine targets start k₀ k₀ (fresh start) :=
  ⟨.start, fun _ => ⟨trivial, fun h => h.elim⟩⟩

/-! ## From a ledger that does not validate -/

/-- An initialiser that has yet to find out. -/
def Doomed (pkg : Package) (db : Database δ) : Phase → Prop
  | .entering | .raised _ => True
  | .readLedger (some _) => pkg.validateRegistry = .ok ()
  | .readRows (some _) => pkg.validateRegistry = .ok () ∧ checkLedger db = .ok true
  | .readObjects (some _) _ remaining => ∃ e, remaining.forM (checkObject db) = .error e
  | _ => False

/-- A validation, from the SELECT of the rows on. -/
theorem validate_eq (hr : pkg.validateRegistry = .ok ()) {db : Database δ}
    (hl : checkLedger db = .ok true) : validateSqliteSchema pkg db =
      (readExpected pkg db).bind (fun found =>
        (found.2.forM (checkObject db)).bind (fun _ => .ok found.1)) := by
  simp only [validateSqliteSchema, readExpected, hr, hl, Bind.bind, Except.bind]
  cases db.ledgerRows with
  | error e => rfl
  | ok rows =>
    cases hrows : checkRows pkg rows with
    | error e => simp [hrows]
    | ok applied =>
      cases hexpected : expectedSchemaObjects pkg applied with
      | error e => simp [hrows, hexpected]
      | ok expected => simp [hrows, hexpected, pure, Except.pure]

/-- **A step from a ledger that does not validate changes nothing.** -/
theorem advance_rejected {e : MigrationError} (hinvalid : validateSqliteSchema pkg start = .error e)
    {target : Option (List Int)} {x : Strike} {phase phase' : Phase} {db' : Database δ}
    (hphase : Doomed pkg start phase) (h : advance pkg engine target x phase start = (phase', db')) :
    db' = start ∧ Doomed pkg start phase' := by
  -- with a valid registry, there is a ledger
  have habsent : pkg.validateRegistry = .ok () → checkLedger start ≠ .ok false := by
    intro hreg hl
    simp [validateSqliteSchema, hreg, hl, Bind.bind, Except.bind, pure, Except.pure] at hinvalid
  cases phase with
  | entering =>
    simp only [advance] at h
    split at h
    · obtain ⟨rfl, rfl⟩ := Prod.mk.inj h
      exact ⟨rfl, trivial⟩
    next selected hs =>
      have hreg := (selected_ok hs).1
      have hsame : ∀ db₁, createLedger start = .ok db₁ → db₁ = start := by
        intro db₁ hcreate
        unfold createLedger at hcreate
        split at hcreate
        next hnone => exact absurd (by simp [checkLedger, Database.ledgerEntry, hnone]) (habsent hreg)
        · exact (Except.ok.inj hcreate).symm
        · exact (Except.ok.inj hcreate).symm
        · simp at hcreate
      cases hcreate : createLedger start with
      | error e' =>
        rw [hcreate] at h
        cases hacc : x.access <;> simp only [hacc] at h <;> obtain ⟨rfl, rfl⟩ := Prod.mk.inj h <;>
          exact ⟨rfl, trivial⟩
      | ok db₁ =>
        have hdb := hsame db₁ hcreate
        rw [hcreate, hdb] at h
        cases hacc : x.access <;> simp only [hacc] at h <;> obtain ⟨rfl, rfl⟩ := Prod.mk.inj h
        · exact ⟨rfl, hreg⟩
        · exact ⟨rfl, trivial⟩
        · exact ⟨rfl, trivial⟩
  | readLedger next =>
    obtain ⟨rfl, rfl⟩ := Prod.mk.inj h
    refine ⟨rfl, ?_⟩
    cases next with
    | none => exact hphase.elim
    | some selected =>
      rcases reading_cases x (checkLedger start)
        (fun present => if present then .readRows (some selected) else proceed (some selected) 0)
        with ⟨e', he⟩ | ⟨b, hb, he⟩
      · rw [he]
        trivial
      · rw [he]
        cases b with
        | true => exact ⟨hphase, hb⟩
        | false => exact absurd hb (habsent hphase)
  | readRows next =>
    obtain ⟨rfl, rfl⟩ := Prod.mk.inj h
    refine ⟨rfl, ?_⟩
    cases next with
    | none => exact hphase.elim
    | some selected =>
      rcases reading_cases x (readExpected pkg start)
        (fun found => .readObjects (some selected) found.1 found.2) with ⟨e', he⟩ | ⟨found, hfound, he⟩
      · rw [he]
        trivial
      · rw [he]
        rw [validate_eq hphase.1 hphase.2, hfound] at hinvalid
        cases hobjects : found.2.forM (checkObject start) with
        | error e' => exact ⟨e', hobjects⟩
        | ok u => simp [Except.bind, hobjects] at hinvalid
  | readObjects next version remaining =>
    cases next with
    | none => exact hphase.elim
    | some selected =>
      obtain ⟨e', he'⟩ := hphase
      cases remaining with
      | nil => simp [pure, Except.pure] at he'
      | cons o rest =>
        obtain ⟨rfl, rfl⟩ := Prod.mk.inj h
        refine ⟨rfl, ?_⟩
        rcases reading_cases x (checkObject start o)
          (fun _ => .readObjects (some selected) version rest) with ⟨e'', he⟩ | ⟨u, hu, he⟩
        · rw [he]
          trivial
        · rw [he]
          have hcons : (o :: rest).forM (checkObject start) =
            (checkObject start o >>= fun _ => rest.forM (checkObject start)) := rfl
          rw [hcons, hu] at he'
          exact ⟨e', he'⟩
  | migrating => exact hphase.elim
  | returned => exact hphase.elim
  | raised e' =>
    obtain ⟨rfl, rfl⟩ := Prod.mk.inj h
    exact ⟨rfl, trivial⟩

/-- **From a ledger that does not validate, no run changes anything**, and no
initialiser gets past its first validation. -/
theorem rejected_kept (engine : Engine δ) (targets : Nat → Option (List Int)) {e : MigrationError}
    (hinvalid : validateSqliteSchema pkg start = .error e) : ∀ (ls : List (Nat × Strike)) {s : Machine δ},
      s.db = start → (∀ p, Doomed pkg start (s.phase p)) →
        (runInitializers pkg engine targets ls s).db = start ∧
          ∀ p, Doomed pkg start ((runInitializers pkg engine targets ls s).phase p)
  | [], _, hdb, hs => ⟨hdb, hs⟩
  | (p, x) :: rest, s, hdb, hs => by
    rcases hstep : advance pkg engine (targets p) x (s.phase p) s.db with ⟨phase', db'⟩
    rw [hdb] at hstep
    obtain ⟨hdb', hphase'⟩ := advance_rejected hinvalid (hs p) hstep
    apply rejected_kept engine targets hinvalid rest
    · simpa only [Machine.step, hdb, hstep] using hdb'
    · intro q
      simp only [Machine.step, hdb, hstep]
      by_cases hq : q = p
      · rw [if_pos hq]
        exact hphase'
      · rw [if_neg hq]
        exact hs q

/-! ## An initialiser alone -/

/-- Nothing fails. -/
def quietStrike (clock : Except MigrationError String) : Strike :=
  ⟨.none, fun _ => false, ⟨.none, .none, .none, .none, .none, false⟩, clock⟩

/-- Alone and undisturbed, the initialiser goes from the phase to its return
and leaves the database as it is. -/
def Ends (pkg : Package) (engine : Engine δ) (targets : Nat → Option (List Int)) (p : Nat)
    (clock : Except MigrationError String) (db : Database δ) (v : Nat) (phase : Phase) : Prop :=
  ∀ s : Machine δ, s.db = db → s.phase p = phase →
    ∃ n, (runInitializers pkg engine targets (List.replicate n (p, quietStrike clock)) s).db = db ∧
      (runInitializers pkg engine targets (List.replicate n (p, quietStrike clock)) s).phase p =
        .returned v

variable {targets : Nat → Option (List Int)} {p : Nat} {clock : Except MigrationError String}
  {db : Database δ} {v : Nat}

theorem Ends.returned : Ends pkg engine targets p clock db v (.returned v) :=
  fun _ hdb hphase => ⟨0, hdb, hphase⟩

theorem Ends.step {phase phase' : Phase}
    (h : advance pkg engine (targets p) (quietStrike clock) phase db = (phase', db))
    (hends : Ends pkg engine targets p clock db v phase') :
    Ends pkg engine targets p clock db v phase := by
  intro s hdb hphase
  have hstep : (s.step pkg engine targets p (quietStrike clock)).db = db ∧
      (s.step pkg engine targets p (quietStrike clock)).phase p = phase' := by
    simp [Machine.step, hphase, hdb, h]
  obtain ⟨n, hn⟩ := hends _ hstep.1 hstep.2
  exact ⟨n + 1, by simpa only [List.replicate_succ, runInitializers] using hn⟩

/-- Objects that are as expected are read one by one. -/
theorem ends_objects {next : Option (List Migration)} {version : Nat} :
    ∀ {remaining : List ((String × String) × String)},
      remaining.forM (checkObject db) = .ok () →
        Ends pkg engine targets p clock db v (proceed next version) →
          Ends pkg engine targets p clock db v (.readObjects next version remaining)
  | [], _, hends => .step rfl hends
  | o :: rest, h, hends => by
    have hcons : (o :: rest).forM (checkObject db) =
      (checkObject db o >>= fun _ => rest.forM (checkObject db)) := rfl
    rw [hcons] at h
    cases ho : checkObject db o with
    | error e => simp [ho, Bind.bind, Except.bind] at h
    | ok u =>
      simp only [ho, Bind.bind, Except.bind] at h
      refine .step ?_ (ends_objects h hends)
      simp only [advance, quietStrike, reading, ho]

/-- A validation that passes is read to its end. -/
theorem ends_validation {k : Nat} {next : Option (List Migration)}
    (hvalid : validateSqliteSchema pkg db = .ok k) (hpresent : db.ledger ≠ .absent)
    (hends : Ends pkg engine targets p clock db v (proceed next k)) :
    Ends pkg engine targets p clock db v (.readLedger next) := by
  have hreg := (validate_ok hvalid).1
  have hledger : checkLedger db = .ok true := by
    cases hl : checkLedger db with
    | error e => simp [validateSqliteSchema, hreg, hl, Bind.bind, Except.bind] at hvalid
    | ok b => rw [checkLedger_present hpresent hl]
  rw [validate_eq hreg hledger] at hvalid
  cases hfound : readExpected pkg db with
  | error e => simp [hfound, Except.bind] at hvalid
  | ok found =>
    simp only [hfound, Except.bind] at hvalid
    cases hobjects : found.2.forM (checkObject db) with
    | error e => simp [hobjects] at hvalid
    | ok u =>
      simp only [hobjects, Except.ok.injEq] at hvalid
      rw [← hvalid] at hends
      have hrows : Ends pkg engine targets p clock db v (.readRows next) := by
        refine .step ?_ (ends_objects hobjects hends)
        simp only [advance, quietStrike, reading, hfound]
      refine .step ?_ hrows
      simp only [advance, quietStrike, reading, hledger, if_true]

/-- A migration that is recorded is verified and left. -/
theorem migrationBody_recorded (engine : Engine δ) (clock : Except MigrationError String)
    {k j : Nat} {m : Migration} (hvalid : validateSqliteSchema pkg db = .ok k) (hpresent : db.ledger ≠ .absent) (hj : j < k)
    (hm : pkg.migrations[j]? = some m) :
    migrationBody pkg engine (fun _ => false) clock m db = (.ok (), db) := by
  obtain ⟨hreg, hat⟩ := validate_ok hvalid
  obtain ⟨hjm, hget⟩ := List.getElem?_eq_some_iff.mp hm
  rcases hat with ⟨habsent, -⟩ | ⟨t, ht, hinitial⟩
  · exact absurd habsent hpresent
  · have hversion : m.version = j + 1 := by rw [← hget]; exact version_getElem hreg hjm
    have hlen := hinitial.length
    cases hfind : t.rows.find? (fun r => r.version == (m.version : Int)) with
    | none =>
      obtain ⟨row, hmem, hv⟩ := (hinitial.recorded_iff hreg).mpr hj
      have hnone := List.find?_eq_none.mp hfind row hmem
      simp [hversion, hv] at hnone
    | some row =>
      obtain ⟨i, hi, hrow⟩ := List.getElem_of_mem (List.mem_of_find?_eq_some hfind)
      have hv : row.version = ((j + 1 : Nat) : Int) := by
        simpa [hversion] using List.find?_some hfind
      have hij : i = j := by
        have hrowv := (hinitial.getElem hreg hi (by have := hinitial.1; omega)).1
        rw [hrow, hv] at hrowv
        omega
      subst hij
      obtain ⟨-, hname, hsha⟩ := hinitial.getElem hreg hi hjm
      rw [hrow, hget] at hname hsha
      have hvalid' : validateSqliteSchema pkg db = .ok k := hvalid
      simp [migrationBody, touch, Txn.ensure, Bind.bind, Txn.query, Txn.lift, Database.ledgerRows, ht,
        pure, hfind, hname, hsha, revalidate, hvalid']

theorem migrationTransaction_quiet (clock : Except MigrationError String)
    {body : MigrationTxn δ Unit} (h : body db = (.ok (), db)) :
    migrationTransaction (quietStrike clock).faults body ⟨db, none⟩ = (.ok (), ⟨db, none⟩) := by
  simp [migrationTransaction, quietStrike, Connection.begin, Connection.body, h, Connection.commit]

/-- Migrations that are recorded are verified one by one. -/
theorem ends_migrating {k : Nat} (hvalid : validateSqliteSchema pkg db = .ok k)
    (hpresent : db.ledger ≠ .absent) (hends : Ends pkg engine targets p clock db v (.readLedger none)) :
    ∀ (remaining : List Migration) {j : Nat}, (∀ i m, remaining[i]? = some m →
        pkg.migrations[j + i]? = some m ∧ j + i < k) →
      Ends pkg engine targets p clock db v (.migrating remaining)
  | [], _, _ => .step rfl hends
  | m :: rest, j, h => by
    obtain ⟨hm, hj⟩ := h 0 m rfl
    have hrest : ∀ i m', rest[i]? = some m' → pkg.migrations[j + 1 + i]? = some m' ∧ j + 1 + i < k := by
      intro i m' hi
      have hnext := h (i + 1) m' (by simpa using hi)
      rwa [show j + (i + 1) = j + 1 + i by omega] at hnext
    refine .step ?_ (ends_migrating hvalid hpresent hends rest hrest)
    have hbody := migrationBody_recorded engine clock hvalid hpresent hj hm
    have hrun := migrationTransaction_quiet clock hbody
    simp only [advance]
    rw [show (quietStrike clock).faulty = fun _ => false from rfl,
      show (quietStrike clock).clock = clock from rfl, hrun]

/-- **Applied again, the runner verifies and returns.** -/
theorem ends_entering {k : Nat} {selected : List Migration}
    (hvalid : validateSqliteSchema pkg db = .ok k) (hpresent : db.ledger ≠ .absent)
    (hs : pkg.selected (targets p) = .ok selected) (hcovered : selected.length ≤ k) :
    Ends pkg engine targets p clock db k .entering := by
  have hlast : Ends pkg engine targets p clock db k (.readLedger none) :=
    ends_validation hvalid hpresent .returned
  have hmigrating : Ends pkg engine targets p clock db k (.migrating selected) := by
    apply ends_migrating hvalid hpresent hlast selected (j := 0)
    intro i m hi
    obtain ⟨-, n, hn⟩ := selected_ok hs
    have hlt : i < selected.length := (List.getElem?_eq_some_iff.mp hi).1
    rw [hn, List.length_take] at hlt
    rw [hn, List.getElem?_take_of_lt (by omega)] at hi
    rw [hn, List.length_take] at hcovered
    exact ⟨by rwa [Nat.zero_add], by omega⟩
  have hfirst : Ends pkg engine targets p clock db k (.readLedger (some selected)) :=
    ends_validation hvalid hpresent hmigrating
  refine .step ?_ hfirst
  have hcreate : createLedger db = .ok db := by
    rcases (validate_ok hvalid).2 with ⟨habsent, -⟩ | ⟨t, ht, -⟩
    · exact absurd habsent hpresent
    · simp [createLedger, ht]
  simp only [advance, hs, hcreate, quietStrike]

/-! ## The contract -/

end QuantumEntanglement.Migrations
