import QuantumEntanglement.Lib.HighWater
import QuantumEntanglement.Tenancy.Claims

/-
  The revocation high-water guard — one call against the file

  The guard keeps, for every tenant, the highest revision it was shown and the
  digest of the state it was shown with. The file holds the guard's table,
  whose rows another program may have written: a column is `none` where its
  value has another type than the guard's. `sqlite_master` shows the table as
  the guard's own definition, another one, or with an index or trigger on it.

  What is proved:
    1. `checkBody_ok` — a call that answers answers as the marks of the file
       say, and leaves the marks they say.
    2. `checkBody_valid`, `checkBody_total` — on the guard's own file a call
       answers, and the file stays the guard's own.
    3. `memory_run` — the in-memory guard is a table of high-water marks.

  Correspondence (Python ↔ Lean):
    `_initialize`, `check_and_advance`, within `_transaction`
                                                         ↔ `initializeBody`, `checkBody`
-/

namespace QuantumEntanglement.Tenancy

open PyText Sha256 Transaction Transaction.Txn HighWater

/-! ## Calls -/

/-- The arguments of `check_and_advance`. -/
structure GuardRequest where
  tenantId : TenantId
  revision : Int
  stateDigest : String
  deriving DecidableEq

/-- What both guards check before they look at a mark. -/
def checkRequest (q : GuardRequest) : Except TenancyError Unit :=
  if q.revision < 0 then valueError "revision cannot be negative"
  else if ¬IsHexDigest q.stateDigest then
    valueError "state_digest must be a lower-case SHA-256 digest"
  else .ok ()

/-- What a call offers for its tenant. -/
def GuardRequest.toOffer (q : GuardRequest) : Offer TenantId Int String :=
  ⟨q.tenantId, q.revision, q.stateDigest⟩

/-! ## The in-memory guard -/

/-- `_high_water`. -/
abbrev Memory := Marks TenantId Int String

/-- `InMemoryRevocationRevisionGuard.check_and_advance`. -/
def Memory.checkAndAdvance (q : GuardRequest) : Txn Memory TenancyError Bool := fun highWater =>
  match checkRequest q with
  | .error e => (.error e, highWater)
  | .ok () =>
    match highWater q.tenantId with
    | none => (.ok true, Function.update highWater q.tenantId (some (q.revision, q.stateDigest)))
    | some (currentRevision, currentDigest) =>
      if q.revision < currentRevision then (.ok false, highWater)
      else if q.revision = currentRevision then (.ok (q.stateDigest == currentDigest), highWater)
      else (.ok true, Function.update highWater q.tenantId (some (q.revision, q.stateDigest)))

/-! ## The file -/

/-- A row of `qe_revocation_high_water`. -/
structure GuardRow where
  tenantId : Option String
  revision : Option Int
  stateDigest : Option String
  deriving DecidableEq

/-- What `sqlite_master` shows of the guard's table. -/
inductive GuardSchema where
  | absent
  | owned
  | foreign
  | attached
  deriving DecidableEq

/-- The primary key admits a tenant id once; a table there is not has no rows. -/
structure GuardFile where
  schema : GuardSchema
  rows : List GuardRow
  unique : (rows.filterMap GuardRow.tenantId).Nodup
  made : schema = .absent → rows = []

def integrityError {α : Type} (message : String) : Except TenancyError α :=
  .error ⟨.revocationGuardIntegrityError, message⟩

/-- `_validated_row`. -/
def validatedRow (row : GuardRow) : Except TenancyError (Int × String) :=
  match row.tenantId with
  | none => integrityError "revocation high-water row contains an invalid tenant id"
  | some tenantId =>
    if isOpaqueId tenantId = false then
      integrityError "revocation high-water row contains an invalid tenant id"
    else
      match row.revision with
      | none => integrityError "revocation high-water row contains an invalid revision"
      | some revision =>
        if revision < 0 then
          integrityError "revocation high-water row contains an invalid revision"
        else
          match row.stateDigest with
          | none => integrityError "revocation high-water row contains an invalid state digest"
          | some digest =>
            if ¬IsHexDigest digest then
              integrityError "revocation high-water row contains an invalid state digest"
            else .ok (revision, digest)

namespace GuardFile

/-- `SELECT … WHERE tenant_id = ?`. -/
def row? (f : GuardFile) (t : TenantId) : Option GuardRow :=
  f.rows.find? (fun row => row.tenantId = some t.value)

/-- The mark of every tenant whose row is the guard's. -/
def marks (f : GuardFile) : Marks TenantId Int String := fun t =>
  match f.row? t with
  | none => none
  | some row => (validatedRow row).toOption

/-- The guard's own table, every row of it. -/
def Valid (f : GuardFile) : Prop :=
  f.schema = .owned ∧ ∀ row ∈ f.rows, ∃ mark, validatedRow row = .ok mark

/-- The row a call writes. -/
def written (q : GuardRequest) : GuardRow := ⟨some q.tenantId.value, some q.revision, some q.stateDigest⟩

/-- What the UPDATE makes of a row. -/
def advanceRow (q : GuardRequest) (current : Int × String) (row : GuardRow) : GuardRow :=
  if row.tenantId = some q.tenantId.value ∧ row.revision = some current.1 ∧
      row.stateDigest = some current.2 then
    { row with revision := some q.revision, stateDigest := some q.stateDigest }
  else row

@[simp] theorem advanceRow_tenantId (q : GuardRequest) (current : Int × String) (row : GuardRow) :
    (advanceRow q current row).tenantId = row.tenantId := by
  unfold advanceRow
  split <;> rfl

/-- The INSERT, which the primary key refuses for a tenant it has. -/
def insert (q : GuardRequest) : Txn GuardFile TenancyError Unit := fun f =>
  if maxSqliteInteger < q.revision then
    (.error ⟨.overflowError, "Python int too large to convert to SQLite INTEGER"⟩, f)
  else if hmade : f.schema = .absent then
    (.error ⟨.sqliteError, "no such table: qe_revocation_high_water"⟩, f)
  else if h : q.tenantId.value ∈ f.rows.filterMap GuardRow.tenantId then
    (.error ⟨.sqliteError, "UNIQUE constraint failed: qe_revocation_high_water.tenant_id"⟩, f)
  else
    (.ok (), { f with
      rows := f.rows ++ [written q]
      unique := by
        rw [List.filterMap_append]
        refine List.Nodup.append f.unique (by simp [written]) ?_
        simpa [written] using h
      made := fun habsent => absurd habsent hmade })

/-- The UPDATE, and its row count. -/
def update (q : GuardRequest) (current : Int × String) : Txn GuardFile TenancyError Nat := fun f =>
  if maxSqliteInteger < q.revision then
    (.error ⟨.overflowError, "Python int too large to convert to SQLite INTEGER"⟩, f)
  else
    (.ok (f.rows.countP (fun row => row.tenantId = some q.tenantId.value ∧
        row.revision = some current.1 ∧ row.stateDigest = some current.2)),
      { f with
        rows := f.rows.map (advanceRow q current)
        unique := by
          have hids : (f.rows.map (advanceRow q current)).filterMap GuardRow.tenantId =
              f.rows.filterMap GuardRow.tenantId := by
            rw [List.filterMap_map]
            congr 1
            funext row
            exact advanceRow_tenantId q current row
          rw [hids]
          exact f.unique
        made := fun habsent => by rw [f.made habsent, List.map_nil] })

theorem noRows_unique : (([] : List GuardRow).filterMap GuardRow.tenantId).Nodup := .nil

/-- The CREATE TABLE. -/
def create : Txn GuardFile TenancyError Unit := fun f =>
  match f.schema with
  | .absent => (.ok (), ⟨.owned, [], noRows_unique, fun _ => rfl⟩)
  | _ => (.error ⟨.sqliteError, "table qe_revocation_high_water already exists"⟩, f)

end GuardFile

/-! ## The bodies of the two transactions -/

/-- `_validate_owned_schema`. -/
def validateOwnedSchema : Txn GuardFile TenancyError Unit := do
  let schema ← query GuardFile.schema
  lift (match schema with
    | .absent | .foreign =>
      integrityError "revocation high-water schema does not match the owned definition"
    | .attached =>
      integrityError "revocation high-water table cannot carry custom indexes or triggers"
    | .owned => .ok ())

/-- `_assert_persisted_state`. -/
def assertPersistedState (q : GuardRequest) : Txn GuardFile TenancyError Unit := do
  let row ← query (fun f => f.row? q.tenantId)
  lift (match row with
    | none => integrityError "revocation high-water write failed its persisted postcondition"
    | some row =>
      match validatedRow row with
      | .error e => .error e
      | .ok mark =>
        if mark ≠ (q.revision, q.stateDigest) then
          integrityError "revocation high-water write failed its persisted postcondition"
        else .ok ())

/-- `check_and_advance` for a tenant without a row. -/
def insertMark (q : GuardRequest) : Txn GuardFile TenancyError Bool := do
  GuardFile.insert q
  assertPersistedState q
  pure true

/-- `check_and_advance` above a tenant's mark. -/
def advanceMark (q : GuardRequest) (current : Int × String) : Txn GuardFile TenancyError Bool := do
  let rowcount ← GuardFile.update q current
  ensure (rowcount = 1) ⟨.revocationGuardIntegrityError,
    "revocation high-water compare-and-set lost its locked row"⟩
  assertPersistedState q
  pure true

/-- `check_and_advance` for a tenant with a row. -/
def compareMark (q : GuardRequest) (row : GuardRow) : Txn GuardFile TenancyError Bool := do
  let current ← lift (validatedRow row)
  if q.revision < current.1 then pure false
  else if q.revision = current.1 then pure (q.stateDigest == current.2)
  else advanceMark q current

/-- The transaction of `check_and_advance`, after the checks of its arguments. -/
def checkBody (q : GuardRequest) : Txn GuardFile TenancyError Bool := do
  validateOwnedSchema
  let row ← query (fun f => f.row? q.tenantId)
  match row with
  | none => insertMark q
  | some row => compareMark q row

/-- The loop of `_initialize` over the rows. -/
def validateRows : List GuardRow → Except TenancyError Unit
  | [] => .ok ()
  | row :: rest => do
    let _ ← validatedRow row
    validateRows rest

/-- `_initialize` makes the table where there is none. -/
def createAbsent (schema : GuardSchema) : Txn GuardFile TenancyError Unit :=
  if schema = .absent then GuardFile.create else pure ()

/-- The transaction of `_initialize`. -/
def initializeBody : Txn GuardFile TenancyError Unit := do
  let schema ← query GuardFile.schema
  createAbsent schema
  validateOwnedSchema
  let rows ← query GuardFile.rows
  lift (validateRows rows)

/-- `SQLiteRevocationRevisionGuard.check_and_advance`. -/
def checkAndAdvance (q : GuardRequest) : Txn GuardFile TenancyError Bool := do
  lift (checkRequest q)
  atomically (checkBody q)

/-- The answers of calls made one after another. -/
def answers {σ : Type} (call : GuardRequest → Txn σ TenancyError Bool) :
    σ → List GuardRequest → List (Except TenancyError Bool)
  | _, [] => []
  | s, q :: rest => (call q s).1 :: answers call (call q s).2 rest

/-! ## What the parts do -/

variable {q : GuardRequest} {f f' : GuardFile} {t : TenantId}

theorem checkRequest_ok {u : Unit} :
    checkRequest q = .ok u ↔ 0 ≤ q.revision ∧ IsHexDigest q.stateDigest := by
  unfold checkRequest
  split
  · simp only [valueError, reduceCtorEq, false_iff, not_and]
    omega
  · split
    next h => simp [valueError, h]
    next h => simpa using ⟨by omega, not_not.mp h⟩

/-- The in-memory guard answers as its marks say. -/
theorem memory_run (h : checkRequest q = .ok ()) (m : Memory) :
    Memory.checkAndAdvance q m = (.ok (offer m q.toOffer).1, (offer m q.toOffer).2) := by
  unfold Memory.checkAndAdvance
  rw [h]
  simp only
  cases hmark : m q.tenantId with
  | none => rw [@offer_new _ _ _ _ _ _ m q.toOffer hmark]; rfl
  | some mark =>
    obtain ⟨revision, digest⟩ := mark
    simp only
    by_cases hlow : q.revision < revision
    · rw [if_pos hlow, @offer_lower _ _ _ _ _ _ m q.toOffer _ _ hmark hlow]
    · rw [if_neg hlow]
      by_cases hsame : q.revision = revision
      · rw [if_pos hsame]
        rw [← hsame] at hmark
        have hdigest : (q.stateDigest == digest) = decide (digest = q.stateDigest) := by
          rw [Bool.eq_iff_iff, beq_iff_eq, decide_eq_true_eq]
          exact eq_comm
        rw [@offer_again _ _ _ _ _ _ m q.toOffer _ hmark, hdigest]
        rfl
      · rw [if_neg hsame, @offer_above _ _ _ _ _ _ m q.toOffer _ _ hmark (by
          show revision < q.revision
          omega)]
        rfl

theorem validateOwnedSchema_ok {u : Unit} :
    validateOwnedSchema f = (.ok u, f') ↔ f.schema = .owned ∧ f = f' := by
  simp only [validateOwnedSchema, bind_ok, query_ok, lift_ok]
  constructor
  · rintro ⟨schema, _, ⟨rfl, rfl⟩, h, rfl⟩
    cases hs : f.schema <;> simp_all [integrityError]
  · rintro ⟨hs, rfl⟩
    exact ⟨_, _, ⟨rfl, rfl⟩, by rw [hs], rfl⟩

theorem assertPersistedState_ok {u : Unit} :
    assertPersistedState q f = (.ok u, f') ↔
      f.marks q.tenantId = some (q.revision, q.stateDigest) ∧ f = f' := by
  simp only [assertPersistedState, bind_ok, query_ok, lift_ok]
  unfold GuardFile.marks
  cases hrow : f.row? q.tenantId with
  | none => simp [integrityError, hrow]
  | some row =>
    cases hmark : validatedRow row with
    | error e => simp [hmark, hrow, Except.toOption]
    | ok mark =>
      by_cases hne : mark = (q.revision, q.stateDigest) <;>
        simp [hmark, hrow, Except.toOption, hne, integrityError]

/-- A row of the guard's reads back as what was written. -/
theorem validatedRow_written (h : checkRequest q = .ok ()) :
    validatedRow (GuardFile.written q) = .ok (q.revision, q.stateDigest) := by
  obtain ⟨hrevision, hdigest⟩ := checkRequest_ok.mp h
  simp only [validatedRow, GuardFile.written]
  rw [if_neg (by simp [q.tenantId.valid]), if_neg (by omega), if_neg (not_not.mpr hdigest)]

theorem validatedRow_ok {row : GuardRow} {mark : Int × String} (h : validatedRow row = .ok mark) :
    row.revision = some mark.1 ∧ row.stateDigest = some mark.2 := by
  unfold validatedRow at h
  split at h
  · simp [integrityError] at h
  · split at h
    · simp [integrityError] at h
    · split at h
      · simp [integrityError] at h
      · split at h
        · simp [integrityError] at h
        · split at h
          · simp [integrityError] at h
          · split at h
            · simp [integrityError] at h
            · rw [← Except.ok.inj h]
              exact ⟨by assumption, by assumption⟩

theorem row?_some {row : GuardRow} (h : f.row? t = some row) :
    row ∈ f.rows ∧ row.tenantId = some t.value :=
  ⟨List.mem_of_find?_eq_some h, by simpa using List.find?_some h⟩

theorem row?_none (h : f.row? t = none) : t.value ∉ f.rows.filterMap GuardRow.tenantId := by
  intro hmem
  obtain ⟨row, hrow, hid⟩ := List.mem_filterMap.mp hmem
  have hfind := List.find?_eq_none.mp h row hrow
  simp [hid] at hfind

theorem TenantId.eq_of_value {a b : TenantId} (h : a.value = b.value) : a = b := by
  cases a
  cases b
  cases h
  rfl

/-- A tenant has one row. -/
theorem rows_of_tenant (f : GuardFile) (t : TenantId) :
    f.rows.countP (fun row => row.tenantId = some t.value) ≤ 1 := by
  have hcount := List.nodup_iff_count_le_one.mp f.unique t.value
  rw [List.count, List.countP_filterMap] at hcount
  refine le_trans (List.countP_mono_left ?_) hcount
  intro row _ hid
  simp only [decide_eq_true_eq] at hid
  simp [hid]

/-- The UPDATE meets the row it was read from, and no other. -/
theorem update_count {row : GuardRow} {current : Int × String} (hrow : f.row? t = some row)
    (hcurrent : validatedRow row = .ok current) :
    f.rows.countP (fun r => r.tenantId = some t.value ∧ r.revision = some current.1 ∧
      r.stateDigest = some current.2) = 1 := by
  obtain ⟨hmem, hid⟩ := row?_some hrow
  have hpos : 0 < f.rows.countP (fun r => r.tenantId = some t.value ∧ r.revision = some current.1 ∧
      r.stateDigest = some current.2) :=
    List.countP_pos_iff.mpr ⟨row, hmem, by simp [hid, validatedRow_ok hcurrent]⟩
  have hle : f.rows.countP (fun r => r.tenantId = some t.value ∧ r.revision = some current.1 ∧
      r.stateDigest = some current.2) ≤ f.rows.countP (fun r => r.tenantId = some t.value) := by
    apply List.countP_mono_left
    intro r _ h
    simp only [decide_eq_true_eq] at h ⊢
    exact h.1
  have hone := rows_of_tenant f t
  omega

/-! ## What the writes do to the rows -/

/-- The INSERT added the tenant's row. -/
structure Inserted (q : GuardRequest) (f f' : GuardFile) : Prop where
  range : q.revision ≤ maxSqliteInteger
  schema : f'.schema = f.schema
  rows : f'.rows = f.rows ++ [GuardFile.written q]

/-- The UPDATE moved the tenant's row. -/
structure Updated (q : GuardRequest) (current : Int × String) (f f' : GuardFile) : Prop where
  range : q.revision ≤ maxSqliteInteger
  schema : f'.schema = f.schema
  rows : f'.rows = f.rows.map (GuardFile.advanceRow q current)

theorem inserted_of_ok {u : Unit} (h : GuardFile.insert q f = (.ok u, f')) : Inserted q f f' := by
  unfold GuardFile.insert at h
  split at h
  · simp at h
  next hrange =>
    split at h
    · simp at h
    · split at h
      · simp at h
      · obtain ⟨-, rfl⟩ := Prod.mk.inj h
        exact ⟨not_lt.mp hrange, rfl, rfl⟩

theorem updated_of_ok {current : Int × String} {n : Nat}
    (h : GuardFile.update q current f = (.ok n, f')) : Updated q current f f' := by
  unfold GuardFile.update at h
  split at h
  · simp at h
  next hrange =>
    obtain ⟨-, rfl⟩ := Prod.mk.inj h
    exact ⟨not_lt.mp hrange, rfl, rfl⟩

theorem Inserted.row_other (h : Inserted q f f') (ht : t ≠ q.tenantId) : f'.row? t = f.row? t := by
  have hid : ¬(GuardFile.written q).tenantId = some t.value := fun heq =>
    ht (TenantId.eq_of_value (Option.some.inj heq)).symm
  unfold GuardFile.row?
  rw [h.rows, List.find?_append]
  simp [hid]

theorem Updated.row_other {current : Int × String} (h : Updated q current f f')
    (ht : t ≠ q.tenantId) : f'.row? t = f.row? t := by
  unfold GuardFile.row?
  rw [h.rows, List.find?_map]
  simp only [Function.comp_def, GuardFile.advanceRow_tenantId]
  cases hrow : f.rows.find? (fun row => decide (row.tenantId = some t.value)) with
  | none => rfl
  | some row =>
    have hid : row.tenantId = some t.value := by simpa using List.find?_some hrow
    have hne : ¬t.value = q.tenantId.value := fun heq => ht (TenantId.eq_of_value heq)
    simp [GuardFile.advanceRow, hid, hne]

theorem Inserted.row_new (h : Inserted q f f') :
    ∀ row ∈ f'.rows, row ∈ f.rows ∨ row = GuardFile.written q := by
  intro row hrow
  rw [h.rows, List.mem_append, List.mem_singleton] at hrow
  exact hrow

theorem Updated.row_new {current : Int × String} (h : Updated q current f f') :
    ∀ row ∈ f'.rows, row ∈ f.rows ∨ row = GuardFile.written q := by
  intro row hrow
  rw [h.rows] at hrow
  obtain ⟨old, hold, rfl⟩ := List.mem_map.mp hrow
  unfold GuardFile.advanceRow
  split
  next hmatch => exact .inr (by rw [GuardFile.written, ← hmatch.1])
  · exact .inl hold

theorem marks_eq_of_row (h : f'.row? t = f.row? t) : f'.marks t = f.marks t := by
  unfold GuardFile.marks
  rw [h]

theorem marks_eq_of_rows (h : f'.rows = f.rows) : f'.marks = f.marks := by
  funext t
  apply marks_eq_of_row
  unfold GuardFile.row?
  rw [h]

/-- The marks after a tenant's row is the one the call wrote. -/
theorem marks_update (hrow : f'.marks q.tenantId = some (q.revision, q.stateDigest))
    (hother : ∀ t, t ≠ q.tenantId → f'.row? t = f.row? t) :
    f'.marks = Function.update f.marks q.tenantId (some (q.revision, q.stateDigest)) := by
  funext t
  by_cases ht : t = q.tenantId
  · rw [ht, Function.update_self, hrow]
  · rw [Function.update_of_ne ht]
    exact marks_eq_of_row (hother t ht)

/-! ## One call -/

/-- What a call that answered did to the file. -/
structure Answered (q : GuardRequest) (answer : Bool) (f f' : GuardFile) : Prop where
  owned : f.schema = .owned
  schema : f'.schema = .owned
  marks : offer f.marks q.toOffer = (answer, f'.marks)
  others : ∀ t, t ≠ q.tenantId → f'.row? t = f.row? t
  rows : ∀ row ∈ f'.rows, row ∈ f.rows ∨ row = GuardFile.written q
  refused : answer = false → f' = f

theorem insertMark_ok {answer : Bool} (hrow : f.row? q.tenantId = none)
    (howned : f.schema = .owned) (h : insertMark q f = (.ok answer, f')) : Answered q answer f f' := by
  simp only [insertMark, bind_ok, pure_ok] at h
  obtain ⟨_, f₁, hinsert, _, f₂, hpersisted, rfl, rfl⟩ := h
  obtain ⟨hmark, rfl⟩ := assertPersistedState_ok.mp hpersisted
  have hinserted := inserted_of_ok hinsert
  have hothers := fun t ht => hinserted.row_other (t := t) ht
  refine ⟨howned, hinserted.schema.trans howned, ?_, hothers, hinserted.row_new, by simp⟩
  have hnone : f.marks q.toOffer.key = none := by
    show f.marks q.tenantId = none
    rw [GuardFile.marks, hrow]
  rw [offer_new hnone]
  exact Prod.ext rfl (marks_update hmark hothers).symm

theorem compareMark_ok {answer : Bool} {row : GuardRow} (hrow : f.row? q.tenantId = some row)
    (howned : f.schema = .owned) (h : compareMark q row f = (.ok answer, f')) :
    Answered q answer f f' := by
  simp only [compareMark, bind_ok, lift_ok] at h
  obtain ⟨current, _, ⟨hcurrent, rfl⟩, h⟩ := h
  have hmark : f.marks q.toOffer.key = some (current.1, current.2) := by
    show f.marks q.tenantId = some current
    rw [GuardFile.marks, hrow]
    simp [hcurrent, Except.toOption]
  split at h
  next hlow =>
    obtain ⟨rfl, rfl⟩ := pure_ok.mp h
    exact ⟨howned, howned, offer_lower hmark hlow, fun _ _ => rfl, fun _ => .inl, fun _ => rfl⟩
  next hlow =>
    split at h
    next hsame =>
      obtain ⟨rfl, rfl⟩ := pure_ok.mp h
      refine ⟨howned, howned, ?_, fun _ _ => rfl, fun _ => .inl, fun _ => rfl⟩
      rw [← hsame] at hmark
      have hdigest : (q.stateDigest == current.2) = decide (current.2 = q.stateDigest) := by
        rw [Bool.eq_iff_iff, beq_iff_eq, decide_eq_true_eq]
        exact eq_comm
      rw [hdigest]
      exact offer_again hmark
    next hsame =>
      simp only [advanceMark, bind_ok, pure_ok, ensure_ok] at h
      obtain ⟨n, f₁, hupdate, _, _, ⟨-, rfl⟩, _, _, hpersisted, rfl, rfl⟩ := h
      obtain ⟨hnew, rfl⟩ := assertPersistedState_ok.mp hpersisted
      have hupdated := updated_of_ok hupdate
      have hothers := fun t ht => hupdated.row_other (t := t) ht
      refine ⟨howned, hupdated.schema.trans howned, ?_, hothers, hupdated.row_new, by simp⟩
      have habove : current.1 < q.toOffer.rank := by
        show current.1 < q.revision
        omega
      rw [offer_above hmark habove]
      exact Prod.ext rfl (marks_update hnew hothers).symm

/-- **A call that answers answers as the marks say**, and leaves the marks
they say. -/
theorem checkBody_ok {answer : Bool} (h : checkBody q f = (.ok answer, f')) :
    Answered q answer f f' := by
  simp only [checkBody, bind_ok, query_ok] at h
  obtain ⟨_, _, hschema, row, _, ⟨hrow, rfl⟩, h⟩ := h
  obtain ⟨howned, rfl⟩ := validateOwnedSchema_ok.mp hschema
  cases row with
  | none => exact insertMark_ok hrow howned h
  | some row => exact compareMark_ok hrow howned h

/-! ## Opening a file -/

theorem validateRows_ok {rows : List GuardRow} {u : Unit} :
    validateRows rows = .ok u ↔ ∀ row ∈ rows, ∃ mark, validatedRow row = .ok mark := by
  induction rows with
  | nil => simp [validateRows]
  | cons row rest ih => simp [validateRows, except_bind_ok, ih]

/-- Opening made the table, or found the guard's own, and moved no row. -/
theorem initializeBody_ok {u : Unit} (h : initializeBody f = (.ok u, f')) :
    f'.Valid ∧ f'.rows = f.rows := by
  simp only [initializeBody, bind_ok, query_ok, lift_ok] at h
  obtain ⟨_, _, ⟨rfl, rfl⟩, _, f₁, hcreate, _, _, hschema, _, _, ⟨rfl, rfl⟩, hrows, rfl⟩ := h
  obtain ⟨howned, rfl⟩ := validateOwnedSchema_ok.mp hschema
  refine ⟨⟨howned, validateRows_ok.mp hrows⟩, ?_⟩
  unfold createAbsent at hcreate
  split at hcreate
  next habsent =>
    rw [GuardFile.create, habsent] at hcreate
    obtain ⟨-, rfl⟩ := Prod.mk.inj hcreate
    exact (f.made habsent).symm
  next hpresent =>
    obtain ⟨-, rfl⟩ := pure_ok.mp hcreate
    rfl

/-- Opening a file without the table, or the guard's own, succeeds. -/
theorem initializeBody_run (h : f.schema = .absent ∨ f.Valid) :
    ∃ f', initializeBody f = (.ok (), f') := by
  rcases h with habsent | ⟨howned, hrows⟩
  · refine ⟨⟨.owned, [], .nil, fun _ => rfl⟩, ?_⟩
    simp [initializeBody, createAbsent, habsent, GuardFile.create, validateOwnedSchema, validateRows]
  · refine ⟨f, ?_⟩
    have hall := (validateRows_ok (u := ())).mpr hrows
    simp [initializeBody, createAbsent, howned, validateOwnedSchema, hall]

/-! ## The guard's own file -/

theorem mark_of_row {row : GuardRow} {mark : Int × String} (hrow : f.row? t = some row)
    (hmark : validatedRow row = .ok mark) : f.marks t = some mark := by
  rw [GuardFile.marks, hrow]
  simp [hmark, Except.toOption]

/-- The guard's own file stays the guard's own. -/
theorem checkBody_valid {answer : Bool} (hvalid : f.Valid) (hq : checkRequest q = .ok ())
    (h : checkBody q f = (.ok answer, f')) : f'.Valid := by
  have hanswered := checkBody_ok h
  refine ⟨hanswered.schema, fun row hrow => ?_⟩
  rcases hanswered.rows row hrow with hold | rfl
  · exact hvalid.2 row hold
  · exact ⟨_, validatedRow_written hq⟩

/-- What a call wrote reads back. -/
theorem assertPersistedState_run {row : GuardRow} (hrow : f.row? q.tenantId = some row)
    (hnew : row = GuardFile.written q) (hq : checkRequest q = .ok ()) :
    assertPersistedState q f = (.ok (), f) :=
  assertPersistedState_ok.mpr ⟨mark_of_row hrow (hnew ▸ validatedRow_written hq), rfl⟩

theorem insertMark_run (howned : f.schema = .owned) (hrow : f.row? q.tenantId = none)
    (hq : checkRequest q = .ok ()) (hrange : q.revision ≤ maxSqliteInteger) : ∃ f', insertMark q f = (.ok true, f') := by
  have hinsert : ∃ f₁, GuardFile.insert q f = (.ok (), f₁) := by
    unfold GuardFile.insert
    rw [if_neg (not_lt.mpr hrange), dif_neg (by simp [howned]), dif_neg (row?_none hrow)]
    exact ⟨_, rfl⟩
  obtain ⟨f₁, hinsert⟩ := hinsert
  have hfound : f₁.row? q.tenantId = some (GuardFile.written q) := by
    unfold GuardFile.row? at hrow ⊢
    rw [(inserted_of_ok hinsert).rows, List.find?_append, hrow]
    simp [GuardFile.written]
  refine ⟨f₁, ?_⟩
  simp only [insertMark, bind_ok]
  exact ⟨(), f₁, hinsert, (), f₁, assertPersistedState_run hfound rfl hq, pure_ok.mpr ⟨rfl, rfl⟩⟩

theorem advanceMark_run {row : GuardRow} {current : Int × String}
    (hrow : f.row? q.tenantId = some row) (hcurrent : validatedRow row = .ok current)
    (hq : checkRequest q = .ok ()) (hrange : q.revision ≤ maxSqliteInteger) :
    ∃ f', advanceMark q current f = (.ok true, f') := by
  have hupdate : ∃ f₁, GuardFile.update q current f = (.ok 1, f₁) := by
    unfold GuardFile.update
    rw [if_neg (not_lt.mpr hrange), update_count hrow hcurrent]
    exact ⟨_, rfl⟩
  obtain ⟨f₁, hupdate⟩ := hupdate
  obtain ⟨-, hid⟩ := row?_some hrow
  have hmoved : GuardFile.advanceRow q current row = GuardFile.written q := by
    unfold GuardFile.advanceRow
    rw [if_pos ⟨hid, validatedRow_ok hcurrent⟩, GuardFile.written, hid]
  have hfound : f₁.row? q.tenantId = some (GuardFile.written q) := by
    unfold GuardFile.row? at hrow ⊢
    rw [(updated_of_ok hupdate).rows, List.find?_map]
    simp only [Function.comp_def, GuardFile.advanceRow_tenantId]
    rw [hrow, Option.map_some, hmoved]
  refine ⟨f₁, ?_⟩
  simp only [advanceMark, bind_ok]
  exact ⟨1, f₁, hupdate, (), f₁, ensure_ok.mpr ⟨rfl, rfl⟩, (), f₁,
    assertPersistedState_run hfound rfl hq, pure_ok.mpr ⟨rfl, rfl⟩⟩

theorem compareMark_run {row : GuardRow} {current : Int × String}
    (hrow : f.row? q.tenantId = some row) (hcurrent : validatedRow row = .ok current)
    (hq : checkRequest q = .ok ()) (hrange : q.revision ≤ maxSqliteInteger) :
    ∃ answer f', compareMark q row f = (.ok answer, f') := by
  simp only [compareMark, bind_ok, lift_ok]
  by_cases hlow : q.revision < current.1
  · exact ⟨false, f, current, f, ⟨hcurrent, rfl⟩, by rw [if_pos hlow]; rfl⟩
  · by_cases hsame : q.revision = current.1
    · exact ⟨_, f, current, f, ⟨hcurrent, rfl⟩, by rw [if_neg hlow, if_pos hsame]; rfl⟩
    · obtain ⟨f', hrun⟩ := advanceMark_run hrow hcurrent hq hrange
      exact ⟨true, f', current, f, ⟨hcurrent, rfl⟩, by rw [if_neg hlow, if_neg hsame]; exact hrun⟩

/-- **On the guard's own file a call answers.** -/
theorem checkBody_total (hvalid : f.Valid) (hq : checkRequest q = .ok ())
    (hrange : q.revision ≤ maxSqliteInteger) : ∃ answer f', checkBody q f = (.ok answer, f') := by
  have hschema : validateOwnedSchema f = (.ok (), f) := validateOwnedSchema_ok.mpr ⟨hvalid.1, rfl⟩
  simp only [checkBody, bind_ok, query_ok]
  cases hrow : f.row? q.tenantId with
  | none =>
    obtain ⟨f', hrun⟩ := insertMark_run hvalid.1 hrow hq hrange
    exact ⟨true, f', (), f, hschema, none, f, ⟨hrow, rfl⟩, hrun⟩
  | some row =>
    obtain ⟨current, hcurrent⟩ := hvalid.2 row (row?_some hrow).1
    obtain ⟨answer, f', hrun⟩ := compareMark_run hrow hcurrent hq hrange
    exact ⟨answer, f', (), f, hschema, some row, f, ⟨hrow, rfl⟩, hrun⟩

/-! ## The two guards -/

/-- What the in-memory guard answers to calls with arguments it takes. -/
theorem answers_memory {calls : List GuardRequest} (h : ∀ q ∈ calls, checkRequest q = .ok ())
    (m : Memory) : answers Memory.checkAndAdvance m calls =
      (replay m (calls.map GuardRequest.toOffer)).1.map .ok := by
  induction calls generalizing m with
  | nil => rfl
  | cons q rest ih =>
    simp only [answers, List.map_cons, replay]
    rw [memory_run (h q (by simp)), ih (fun q hq => h q (by simp [hq]))]

/-- A call on the guard's own file. -/
theorem checkAndAdvance_run (hvalid : f.Valid) (hq : checkRequest q = .ok ())
    (hrange : q.revision ≤ maxSqliteInteger) :
    ∃ f', checkAndAdvance q f = (.ok (offer f.marks q.toOffer).1, f') ∧
      f'.marks = (offer f.marks q.toOffer).2 ∧ f'.Valid := by
  obtain ⟨answer, f', hrun⟩ := checkBody_total hvalid hq hrange
  have hmarks := (checkBody_ok hrun).marks
  refine ⟨f', ?_, by rw [hmarks], checkBody_valid hvalid hq hrun⟩
  simp only [checkAndAdvance, bind_ok, lift_ok]
  exact ⟨(), f, ⟨hq, rfl⟩, atomically_ok.mpr (by rw [hmarks]; exact hrun)⟩

/-- **The file answers as the in-memory guard does**, from the same marks. -/
theorem answers_file {calls : List GuardRequest} (hrange : ∀ q ∈ calls, q.revision ≤ maxSqliteInteger)
    {f : GuardFile} (hvalid : f.Valid) :
    answers checkAndAdvance f calls = answers Memory.checkAndAdvance f.marks calls := by
  induction calls generalizing f with
  | nil => rfl
  | cons q rest ih =>
    have hrest := fun q hq => hrange q (List.mem_cons_of_mem _ hq)
    simp only [answers]
    cases hq : checkRequest q with
    | error e =>
      have hfile : checkAndAdvance q f = (.error e, f) := by simp [checkAndAdvance, hq, bind_error]
      have hmemory : Memory.checkAndAdvance q f.marks = (.error e, f.marks) := by
        unfold Memory.checkAndAdvance
        rw [hq]
      rw [hfile, hmemory, ih hrest hvalid]
    | ok u =>
      obtain ⟨f', hfile, hmarks, hvalid'⟩ := checkAndAdvance_run hvalid hq (hrange q (by simp))
      rw [hfile, memory_run hq, ih hrest hvalid', hmarks]

end QuantumEntanglement.Tenancy
