import QuantumEntanglement.Lib.PyText
import QuantumEntanglement.Lib.Sha256

/-
  The migration registry and the schema it expects

  A database has a ledger of applied migrations: version, file name and
  checksum of each. `validateSqliteSchema` compares the ledger with the
  registry and the objects in `sqlite_master` with those the applied scripts
  create, and changes nothing.

  The registry and its packaged scripts are a `Package`. Two things of it are
  SQLite's own: whether a text is a complete statement, and what a statement
  does to a database (an `Engine`); everything else is computed here.
-/

namespace QuantumEntanglement.Migrations

open PyText

/-- What a runner raises. -/
inductive MigrationError where
  /-- `MigrationDriftError`. -/
  | drift (message : String)
  /-- `MigrationVersionError`. -/
  | version (message : String)
  /-- `ValueError`. -/
  | value (message : String)
  /-- Raised by the driver, the clock or a guard. -/
  | driver
  deriving DecidableEq

/-! ## The registry -/

structure Migration where
  version : Nat
  filename : String
  positive : 0 < version
  suffix : ".up.sql".toList.isSuffixOf filename.toList = true

/-- The migrations of a binary with their scripts, and SQLite's test for a
complete statement. -/
structure Package where
  migrations : List Migration
  migrationText : String → String
  completeStatement : String → Bool

namespace Package

variable (pkg : Package)

def versions : List Nat := pkg.migrations.map (·.version)

/-- `_validate_registry`. -/
def validateRegistry : Except MigrationError Unit :=
  if ¬(pkg.versions.Pairwise (· < ·)) then
    .error (.value "migration versions must be unique and strictly ordered")
  else if pkg.versions ≠ List.range' 1 pkg.versions.length then
    .error (.value "migration registry must be a continuous prefix starting at one")
  else if ¬(pkg.migrations.map (·.filename)).Nodup then
    .error (.value "migration filenames must be unique")
  else .ok ()

/-- The checksum of a migration's script. -/
def digest (m : Migration) : String := Sha256.hexDigest (pkg.migrationText m.filename)

end Package

/-! ## Reading SQL -/

/-- `\w`; a character beyond ASCII counts as a letter. -/
def isWord (c : Char) : Bool := c.isAlphanum || c == '_' || 128 ≤ c.val

/-- The letter a character matches when case is ignored: four characters beyond
ASCII match a letter too. -/
def ignoreCase (c : Char) : Char :=
  if c.val = 0x130 ∨ c.val = 0x131 then 'i'
  else if c.val = 0x212A then 'k'
  else if c.val = 0x17F then 's'
  else c.toLower

/-- A keyword at the beginning of a text. -/
def keyword (word : String) (text : List Char) : Option (List Char) :=
  if (text.take word.length).map ignoreCase = word.toList then some (text.drop word.length) else none

/-- `\s+`. -/
def spaces : List Char → Option (List Char)
  | [] => none
  | c :: rest => if isSpace c then some (rest.dropWhile isSpace) else none

/-- A list of keywords, each followed by space. -/
def keywords : List String → List Char → Option (List Char)
  | [], text => some text
  | word :: rest, text => do
    let text ← keyword word text
    let text ← spaces text
    keywords rest text

/-- `[A-Za-z_][A-Za-z0-9_]*`. -/
def identifier (text : List Char) : Option String :=
  let isStart (c : Char) := (ignoreCase c).isAlpha || c == '_'
  match text with
  | [] => none
  | c :: rest =>
    if isStart c then some (String.ofList (c :: rest.takeWhile (fun d => isStart d || d.isDigit)))
    else none

/-- `TABLE` or `INDEX`, as written in lower case. -/
def objectKind (text : List Char) : Option (String × List Char) :=
  match keyword "table" text with
  | some rest => some ("table", rest)
  | none => (keyword "index" text).map (fun rest => ("index", rest))

/-- A name, with the words that may stand before it. -/
def optionally (words : List String) (text : List Char) : Option String :=
  match (keywords words text).bind identifier with
  | some name => some name
  | none => identifier text

/-- Kind and name of an object, at the beginning of a text. -/
def objectAt (verb : String) (unique : Bool) (condition : List String) (text : List Char) :
    Option (String × String) := do
  let rest ← keywords [verb] text
  let rest := if unique then (keywords ["unique"] rest).getD rest else rest
  let (kind, rest) ← objectKind rest
  let rest ← spaces rest
  let name ← optionally condition rest
  pure (kind, name)

/-- The first match at a word boundary: what is matched and the text from there. -/
def search {α : Type} (match? : List Char → Option α) : Bool → List Char → Option (α × List Char)
  | _, [] => none
  | afterWord, c :: rest =>
    match if afterWord then none else match? (c :: rest) with
    | some a => some (a, c :: rest)
    | none => search match? (isWord c) rest

/-- `_CREATE_OBJECT_PATTERN.search(statement)`: kind, name and the text from
the match. -/
def createdObject (statement : String) : Option ((String × String) × List Char) :=
  search (objectAt "create" true ["if", "not", "exists"]) false statement.toList

/-- `_DROP_OBJECT_PATTERN.search(statement)`. -/
def droppedObject (statement : String) : Option (String × String) :=
  (search (objectAt "drop" false ["if", "exists"]) false statement.toList).map (·.1)

/-- `IF NOT EXISTS` at the beginning of a text, up to a word boundary. -/
def idempotencyClause (text : List Char) : Option (List Char) := do
  let rest ← keywords ["if", "not"] text
  let rest ← keyword "exists" rest
  if (rest.head?.map isWord).getD false then none else pure rest

/-- `re.sub` of the clause by nothing, with the characters left to read. -/
def withoutClause : Nat → Bool → List Char → List Char
  | 0, _, text => text
  | _ + 1, _, [] => []
  | n + 1, afterWord, c :: rest =>
    match if afterWord then none else idempotencyClause (c :: rest) with
    -- the clause ends with a letter
    | some after => withoutClause n true after
    | none => c :: withoutClause n (isWord c) rest

/-- `str.split()`, given the word read so far in reverse. -/
def splitWords : List Char → List Char → List (List Char)
  | [], word => if word.isEmpty then [] else [word.reverse]
  | c :: rest, word =>
    if isSpace c then
      if word.isEmpty then splitWords rest [] else word.reverse :: splitWords rest []
    else splitWords rest (c :: word)

/-- `_canonical_schema_sql`. -/
def canonicalSchemaSql (sql : String) : String :=
  let text := (withoutClause sql.length false sql.toList)
  let stripped := (strip (String.ofList text)).toList
  let body := (stripped.reverse.dropWhile (· == ';')).reverse
  String.ofList (List.intercalate [' '] (splitWords body []))

namespace Package

variable (pkg : Package)

/-- The statements of a script, with the buffer read so far. -/
def splitStatements : List Char → List Char → List String → Except MigrationError (List String)
  | [], buffer, done =>
    if isBlank (String.ofList buffer) then .ok done
    else .error (.value "migration SQL ends with an incomplete statement")
  | c :: rest, buffer, done =>
    let buffer := buffer ++ [c]
    if c = ';' ∧ pkg.completeStatement (String.ofList buffer) = true then
      let statement := strip (String.ofList buffer)
      splitStatements rest [] (if statement = "" then done else done ++ [statement])
    else splitStatements rest buffer done

/-- `_sql_statements(migration_text(migration.filename))`. -/
def sqlStatements (m : Migration) : Except MigrationError (List String) :=
  pkg.splitStatements (pkg.migrationText m.filename).toList [] []

end Package

/-! ## The database -/

/-- A row of `qe_schema_migrations`. -/
structure LedgerRow where
  version : Int
  filename : String
  sha256 : String
  appliedAt : String
  deriving DecidableEq

/-- The table of the ledger; its rows are kept by their primary key. -/
structure LedgerTable where
  sql : String
  rows : List LedgerRow
  sorted : rows.Pairwise (fun a b => a.version < b.version)

/-- What stands under the name `qe_schema_migrations`. -/
inductive LedgerObject where
  | absent
  | table (t : LedgerTable)
  | index (sql : Option String)
  | view (sql : Option String)

/-- A row of `sqlite_master`. -/
structure MasterRow where
  type : String
  name : String
  sql : Option String
  deriving DecidableEq

/-- What the scripts work on: the other objects and their contents. -/
structure Catalog (δ : Type) where
  master : List MasterRow
  content : δ

structure Database (δ : Type) where
  ledger : LedgerObject
  catalog : Catalog δ

/-- What SQLite does with a statement; the scripts do not name the ledger. -/
abbrev Engine (δ : Type) : Type := String → Catalog δ → Except MigrationError (Catalog δ)

def ledgerName : String := "qe_schema_migrations"

/-- `_LEDGER_SCHEMA_SQL`. -/
def ledgerSchemaSql : String :=
  "\nCREATE TABLE qe_schema_migrations (\n    version INTEGER PRIMARY KEY,\n" ++
  "    filename TEXT NOT NULL UNIQUE,\n    sha256 TEXT NOT NULL,\n" ++
  "    applied_at TEXT NOT NULL\n)\n"

namespace Database

variable {δ : Type} (db : Database δ)

/-- `SELECT type, sql FROM main.sqlite_master WHERE name = 'qe_schema_migrations'`. -/
def ledgerEntry : Option (String × Option String) :=
  match db.ledger with
  | .absent => none
  | .table t => some ("table", some t.sql)
  | .index sql => some ("index", sql)
  | .view sql => some ("view", sql)

/-- `SELECT type, sql FROM main.sqlite_master WHERE type = ? AND name = ?`. -/
def findObject (type name : String) : Option (Option String) :=
  if name = ledgerName then
    match db.ledgerEntry with
    | some (t, sql) => if t = type then some sql else none
    | none => none
  else (db.catalog.master.find? (fun r => r.type == type && r.name == name)).map (·.sql)

/-- The rows of the ledger, by version. -/
def ledgerRows : Except MigrationError (List LedgerRow) :=
  match db.ledger with
  | .table t => .ok t.rows
  | _ => .error .driver

end Database

/-! ## Validation -/

/-- `expected[key] = sql`: in its place where the key is there. -/
def setExpected (key : String × String) (sql : String) :
    List ((String × String) × String) → List ((String × String) × String)
  | [] => [(key, sql)]
  | (k, s) :: rest => if k = key then (key, sql) :: rest else (k, s) :: setExpected key sql rest

/-- What one statement adds to the objects expected, or takes from them. -/
def expectStatement (expected : List ((String × String) × String)) (statement : String) :
    List ((String × String) × String) :=
  match createdObject statement with
  | some (key, text) => setExpected key (canonicalSchemaSql (String.ofList text)) expected
  | none =>
    match droppedObject statement with
    | some key => expected.filter (fun e => e.1 ≠ key)
    | none => expected

variable {δ : Type}

/-- `_expected_schema_objects`. -/
def expectedSchemaObjects (pkg : Package) (applied : List Int) :
    Except MigrationError (List ((String × String) × String)) :=
  (pkg.migrations.filter (fun m => applied.contains (m.version : Int))).foldlM
    (fun expected m => do
      let statements ← pkg.sqlStatements m
      pure (statements.foldl expectStatement expected))
    [(("table", ledgerName), canonicalSchemaSql ledgerSchemaSql)]

/-- The check of the ledger itself: whether there is one. -/
def checkLedger (db : Database δ) : Except MigrationError Bool :=
  match db.ledgerEntry with
  | none => .ok false
  | some (type, sql) =>
    if type ≠ "table" then
      .error (.drift "SQLite object 'qe_schema_migrations' is not a table")
    else if sql.map canonicalSchemaSql ≠ some (canonicalSchemaSql ledgerSchemaSql) then
      .error (.drift
        "migration-owned SQLite table 'qe_schema_migrations' differs from packaged schema")
    else .ok true

/-- The check of one row of the ledger. -/
def checkRow (pkg : Package) (row : LedgerRow) : Except MigrationError Unit :=
  match pkg.migrations.find? (fun m => (m.version : Int) == row.version) with
  | none => .error (.version ("database schema version " ++ toString row.version ++
      " is newer than this binary"))
  | some m =>
    if row.filename ≠ m.filename ∨ row.sha256 ≠ pkg.digest m then
      .error (.drift ("migration " ++ toString row.version ++
        " checksum or filename differs from the applied schema"))
    else .ok ()

/-- The check of the rows: the versions applied. -/
def checkRows (pkg : Package) (rows : List LedgerRow) : Except MigrationError (List Int) := do
  rows.forM (checkRow pkg)
  let applied := rows.map (·.version)
  if applied ≠ (pkg.versions.take applied.length).map Int.ofNat then
    .error (.drift "migration ledger must be a continuous registry prefix starting at one")
  else .ok applied

/-- The check of one object. -/
def checkObject (db : Database δ) (expected : (String × String) × String) :
    Except MigrationError Unit :=
  match db.findObject expected.1.1 expected.1.2 with
  | none | some none =>
    .error (.drift ("migration-owned SQLite " ++ expected.1.1 ++ " '" ++ expected.1.2 ++
      "' is missing"))
  | some (some sql) =>
    if canonicalSchemaSql sql ≠ expected.2 then
      .error (.drift ("migration-owned SQLite " ++ expected.1.1 ++ " '" ++ expected.1.2 ++
        "' differs from packaged schema"))
    else .ok ()

/-- The version a validation returns: that of the last row. -/
def lastVersion (applied : List Int) : Nat := (applied.getLast?.getD 0).toNat

/-- `validate_sqlite_schema`. -/
def validateSqliteSchema (pkg : Package) (db : Database δ) : Except MigrationError Nat := do
  pkg.validateRegistry
  if ← checkLedger db then
    let rows ← db.ledgerRows
    let applied ← checkRows pkg rows
    let expected ← expectedSchemaObjects pkg applied
    expected.forM (checkObject db)
    pure (lastVersion applied)
  else pure 0

/-! ## What a validated ledger is -/

/-- The rows of the first `k` migrations. -/
def IsPrefix (pkg : Package) (k : Nat) (rows : List LedgerRow) : Prop :=
  k ≤ pkg.migrations.length ∧ rows.map (fun r => (r.version, r.filename, r.sha256)) =
    (pkg.migrations.take k).map (fun m => ((m.version : Int), m.filename, pkg.digest m))

theorem validateRegistry_ok {pkg : Package} (h : pkg.validateRegistry = .ok ()) :
    pkg.versions = List.range' 1 pkg.versions.length ∧ (pkg.migrations.map (·.filename)).Nodup := by
  unfold Package.validateRegistry at h
  split at h
  · simp at h
  · split at h
    · simp at h
    next hrange =>
      split at h
      · simp at h
      next hnodup => exact ⟨Classical.not_not.mp hrange, Classical.not_not.mp hnodup⟩

theorem versions_length (pkg : Package) : pkg.versions.length = pkg.migrations.length := by
  simp [Package.versions]

/-- Migration `i` of a valid registry has version `i + 1`. -/
theorem version_getElem {pkg : Package} (hr : pkg.validateRegistry = .ok ()) {i : Nat}
    (hi : i < pkg.migrations.length) : pkg.migrations[i].version = i + 1 := by
  have hrange := (validateRegistry_ok hr).1
  have hget : pkg.versions[i]? = (List.range' 1 pkg.versions.length)[i]? := by rw [← hrange]
  rw [versions_length] at hget
  simp only [Package.versions, List.getElem?_map, List.getElem?_eq_getElem hi, Option.map_some,
    List.getElem?_range' hi, Option.some.injEq] at hget
  omega

/-- The migration of a valid registry that has a version. -/
theorem find_version {pkg : Package} (hr : pkg.validateRegistry = .ok ()) {v : Int} {m : Migration}
    (h : pkg.migrations.find? (fun m => (m.version : Int) == v) = some m) :
    ∃ (i : Nat) (hi : i < pkg.migrations.length), v = i + 1 ∧ m = pkg.migrations[i] := by
  obtain ⟨i, hi, rfl⟩ := List.getElem_of_mem (List.mem_of_find?_eq_some h)
  have hv := List.find?_some h
  rw [version_getElem hr hi] at hv
  simp only [beq_iff_eq] at hv
  exact ⟨i, hi, by omega, rfl⟩

theorem checkRow_ok {pkg : Package} {row : LedgerRow} (h : checkRow pkg row = .ok ()) :
    ∃ m, pkg.migrations.find? (fun m => (m.version : Int) == row.version) = some m ∧
      row.filename = m.filename ∧ row.sha256 = pkg.digest m := by
  unfold checkRow at h
  split at h
  · simp at h
  next m hm =>
    split at h
    · simp at h
    next hsame =>
      rw [not_or, Classical.not_not, Classical.not_not] at hsame
      exact ⟨m, hm, hsame⟩

theorem forM_ok {α : Type} {f : α → Except MigrationError Unit} : ∀ {l : List α},
    l.forM f = .ok () → ∀ a ∈ l, f a = .ok ()
  | [], _, _, ha => by simp at ha
  | b :: rest, h, a, ha => by
    have hcons : (b :: rest).forM f = (f b >>= fun _ => rest.forM f) := rfl
    rw [hcons] at h
    cases hb : f b with
    | error e => simp [hb, Bind.bind, Except.bind] at h
    | ok u =>
      simp only [hb, Bind.bind, Except.bind] at h
      rcases List.mem_cons.mp ha with rfl | hmem
      · exact hb
      · exact forM_ok h a hmem

/-- **Rows that pass their check are those of a prefix of the registry.** -/
theorem checkRows_ok {pkg : Package} (hr : pkg.validateRegistry = .ok ()) {rows : List LedgerRow}
    {applied : List Int} (h : checkRows pkg rows = .ok applied) :
    IsPrefix pkg rows.length rows ∧ applied = rows.map (·.version) := by
  unfold checkRows at h
  simp only [Bind.bind, Except.bind] at h
  cases hrows : rows.forM (checkRow pkg) with
  | error e => simp [hrows] at h
  | ok u =>
    simp only [hrows] at h
    split at h
    · simp at h
    next hinitial =>
      have happlied := Except.ok.inj h
      have hversions := Classical.not_not.mp hinitial
      have hlen : rows.length ≤ pkg.migrations.length := by
        have hlen := congrArg List.length hversions
        simp only [List.length_map, List.length_take, versions_length] at hlen
        omega
      refine ⟨⟨hlen, ?_⟩, happlied.symm⟩
      apply List.ext_getElem
      · simp [hlen]
      · intro i hi _
        simp only [List.length_map] at hi
        have him : i < pkg.migrations.length := Nat.lt_of_lt_of_le hi hlen
        -- row `i` has the version of migration `i`, so it was compared with it
        have hv : rows[i].version = i + 1 := by
          have hget := congrArg (fun l : List Int => l[i]?) hversions
          simp only [List.getElem?_map, List.getElem?_eq_getElem hi, Option.map_some,
            List.length_map, List.getElem?_take_of_lt hi, Package.versions,
            List.getElem?_eq_getElem him, Option.some.injEq, version_getElem hr him] at hget
          simpa using hget
        obtain ⟨m, hm, hname, hsha⟩ := checkRow_ok (forM_ok hrows _ (List.getElem_mem hi))
        obtain ⟨j, hj, hvj, rfl⟩ := find_version hr hm
        obtain rfl : i = j := by omega
        simp [hv, hname, hsha, version_getElem hr him]

theorem IsPrefix.length {pkg : Package} {k : Nat} {rows : List LedgerRow} (h : IsPrefix pkg k rows) :
    rows.length = k := by
  have hlen := congrArg List.length h.2
  simp only [List.length_map, List.length_take] at hlen
  have hle := h.1
  omega

/-- Row `i` of a prefix. -/
theorem IsPrefix.getElem {pkg : Package} (hr : pkg.validateRegistry = .ok ()) {k : Nat}
    {rows : List LedgerRow} (h : IsPrefix pkg k rows) {i : Nat} (hi : i < rows.length)
    (him : i < pkg.migrations.length) : rows[i].version = i + 1 ∧
      rows[i].filename = pkg.migrations[i].filename ∧ rows[i].sha256 = pkg.digest pkg.migrations[i] := by
  have hget := congrArg (fun l : List (Int × String × String) => l[i]?) h.2
  have hik : i < k := by rw [← h.length]; exact hi
  simp only [List.getElem?_map, List.getElem?_eq_getElem hi, Option.map_some,
    List.getElem?_take_of_lt hik, List.getElem?_eq_getElem him, Option.some.injEq, Prod.mk.injEq,
    version_getElem hr him] at hget
  obtain ⟨hv, hname, hsha⟩ := hget
  exact ⟨by simpa using hv, hname, hsha⟩

/-- The version a prefix ends with is its length. -/
theorem IsPrefix.lastVersion {pkg : Package} (hr : pkg.validateRegistry = .ok ()) {k : Nat}
    {rows : List LedgerRow} (h : IsPrefix pkg k rows) :
    Migrations.lastVersion (rows.map (·.version)) = k := by
  have hlen := h.length
  cases k with
  | zero =>
    obtain rfl := List.eq_nil_of_length_eq_zero hlen
    rfl
  | succ k =>
    have hi : k < rows.length := by omega
    have him : k < pkg.migrations.length := h.1
    have hlast : (rows.map (·.version)).getLast? = some ((k : Int) + 1) := by
      rw [List.getLast?_eq_getElem?, List.length_map, hlen, Nat.add_sub_cancel, List.getElem?_map,
        List.getElem?_eq_getElem hi, Option.map_some, (h.getElem hr hi him).1]
    rw [Migrations.lastVersion, hlast]
    simp only [Option.getD_some]
    omega

/-- What a passed validation found: no ledger, or the rows of a prefix. -/
theorem validate_ok {pkg : Package} {δ : Type} {db : Database δ} {k : Nat}
    (h : validateSqliteSchema pkg db = .ok k) : pkg.validateRegistry = .ok () ∧
      ((db.ledger = .absent ∧ k = 0) ∨ ∃ t, db.ledger = .table t ∧ IsPrefix pkg k t.rows) := by
  unfold validateSqliteSchema at h
  simp only [Bind.bind, Except.bind] at h
  cases hreg : pkg.validateRegistry with
  | error e => simp [hreg] at h
  | ok u =>
    refine ⟨rfl, ?_⟩
    simp only [hreg, checkLedger, Database.ledgerEntry, Database.ledgerRows] at h
    cases hledger : db.ledger with
    | absent =>
      simp only [hledger, Bool.false_eq_true, if_false, pure, Except.pure, Except.ok.injEq] at h
      exact .inl ⟨rfl, h.symm⟩
    | index sql => simp [hledger] at h
    | view sql => simp [hledger] at h
    | table t =>
      refine .inr ⟨t, rfl, ?_⟩
      simp only [hledger, ne_eq, not_true_eq_false, if_false] at h
      split at h
      · simp at h
      next present htable =>
        split at htable
        · simp at htable
        · obtain rfl := Except.ok.inj htable
          simp only [if_true] at h
          cases hrows : checkRows pkg t.rows with
          | error e => simp [hrows] at h
          | ok applied =>
            simp only [hrows] at h
            obtain ⟨hinitial, rfl⟩ := checkRows_ok hreg hrows
            cases hexpected : expectedSchemaObjects pkg (t.rows.map (·.version)) with
            | error e => simp [hexpected] at h
            | ok expected =>
              simp only [hexpected] at h
              cases hobjects : expected.forM (checkObject db) with
              | error e => simp [hobjects] at h
              | ok _ =>
                simp only [hobjects, pure, Except.pure, Except.ok.injEq,
                  hinitial.lastVersion hreg] at h
                rw [← h]
                exact hinitial

end QuantumEntanglement.Migrations
