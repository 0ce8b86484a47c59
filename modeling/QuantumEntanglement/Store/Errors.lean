import QuantumEntanglement.Lib.PyText

/-
  Store errors and caller values

  Every operation of the event store ends with a result or one `StoreError`:
  the class of the exception it raises and its text. `callerText`,
  `callerSqliteInteger` and `persistedText` are the checks a value passes on
  its way in and on its way back.

  A field whose Python type is `str` or `int` is a `String` or an `Int` here,
  so the branches that reject another type have no counterpart.
-/

namespace QuantumEntanglement

open PyText

/-- The exception classes the stores raise. -/
inductive ErrorKind where
  | valueError
  | typeError
  | overflowError
  | runtimeError
  | recursionError
  /-- `EventStoreJsonValueError`. -/
  | jsonValueError
  /-- `EventStoreJsonTypeError`. -/
  | jsonTypeError
  /-- `EventStoreJsonTooLargeError`. -/
  | jsonTooLarge
  /-- `ConcurrencyError`. -/
  | concurrency
  /-- `EventStoreIntegrityError`. -/
  | integrity
  /-- `sqlite3.IntegrityError`: a constraint of the schema failed. -/
  | sqliteIntegrity
  /-- `sqlite3.OperationalError`: no row number is left. -/
  | sqliteOperational
  /-- `PermissionError`. -/
  | permission
  /-- `KeyError`. -/
  | keyError
  /-- `InvocationAdmissionConflictError`. -/
  | admissionConflict
  /-- `InvocationAdmissionTransactionError`. -/
  | admissionTransaction
  /-- `InvocationStartConflictError`. -/
  | startConflict
  /-- `InvocationStartTransactionError`. -/
  | startTransaction
  /-- `InvocationIntegrityError`. -/
  | invocationIntegrity
  /-- `InvocationConflictError`. -/
  | invocationConflict
  /-- `InvocationClockRegressionError`. -/
  | clockRegression
  /-- `InvocationRecoveryIntegrityError`. -/
  | recoveryIntegrity
  /-- `InvocationCommitAmbiguityError`. -/
  | invocationAmbiguity
  /-- `InvocationTransactionError`. -/
  | invocationTransaction
  /-- `InvocationStorePoisonedError`. -/
  | invocationPoisoned
  /-- `ArtifactRecordError`. -/
  | artifactRecord
  /-- `ArtifactReplayError`. -/
  | artifactReplay
  /-- `ArtifactConflictError`. -/
  | artifactConflict
  /-- `ArtifactConcurrencyError`. -/
  | artifactConcurrency
  /-- `ArtifactIntegrityError`. -/
  | artifactIntegrity
  /-- `ArtifactTooLargeError`. -/
  | artifactTooLarge
  /-- `ProjectionOffsetError`. -/
  | projectionOffset
  /-- `ProjectionIntegrityError`. -/
  | projectionIntegrity
  /-- `ProjectionSourceIntegrityError`. -/
  | projectionSourceIntegrity
  /-- `ProjectionLeaseConflictError`. -/
  | projectionLeaseConflict
  /-- `ProjectionLeaseLostError`. -/
  | projectionLeaseLost
  /-- `ProjectionOffsetConflictError`. -/
  | projectionOffsetConflict
  /-- `ProjectionReceiptConflictError`. -/
  | projectionReceiptConflict
  /-- `UnknownEventTypeError`. -/
  | unknownEventType
  /-- `InvalidEventSchemaVersionError`. -/
  | invalidEventSchemaVersion
  /-- `InvalidEventPayloadError`. -/
  | invalidEventPayload
  /-- `FutureEventSchemaVersionError`. -/
  | futureEventSchemaVersion
  /-- `MissingUpcasterError`. -/
  | missingUpcaster
  /-- `InvalidUpcastResultError`. -/
  | invalidUpcastResult
  /-- `InvalidDecoderResultError`. -/
  | invalidDecoderResult
  /-- `EventSchemaDecoderError`. -/
  | eventSchemaDecoder
  /-- An exception of a handler, a decoder or an upcaster. -/
  | callback
  | assertionError
  deriving DecidableEq

/-- An exception: its class and its text. -/
structure StoreError where
  kind : ErrorKind
  message : String
  deriving DecidableEq

/-- `(1 << 63) - 1`. -/
def maxSqliteInteger : Nat := 9223372036854775807

/-- `_caller_text`. -/
def callerText (value field : String) (required : Bool) : Except StoreError String :=
  if required && isBlank value then .error ⟨.valueError, field ++ " is required"⟩ else .ok value

/-- `_caller_sqlite_integer` with no minimum. -/
def callerSqliteInteger (value : Int) (field : String) : Except StoreError Int :=
  if -(maxSqliteInteger : Int) - 1 ≤ value ∧ value ≤ maxSqliteInteger then .ok value
  else .error ⟨.valueError, field ++ " exceeds SQLite's integer range"⟩

/-- `_caller_sqlite_integer` with a minimum. -/
def callerSqliteIntegerFrom (minimum : Nat) (value : Int) (field : String) :
    Except StoreError Int :=
  if value < minimum then
    if minimum = 0 then .error ⟨.valueError, field ++ " cannot be negative"⟩
    else .error ⟨.valueError, field ++ " must be at least " ++ toString minimum⟩
  else callerSqliteInteger value field

/-- `_persisted_text`. -/
def persistedText (value field : String) (required : Bool) : Except StoreError String :=
  if required && isBlank value then
    .error ⟨.valueError, "persisted " ++ field ++ " must not be blank"⟩
  else .ok value

/-- `_persisted_integer`. -/
def persistedInteger (value : Nat) (field : String) (minimum : Nat) : Except StoreError Nat :=
  if value < minimum ∨ maxSqliteInteger < value then
    .error ⟨.valueError, "persisted " ++ field ++ " is outside its supported range"⟩
  else .ok value

/-- A check that raises a `ValueError`. -/
def demand (c : Prop) [Decidable c] (message : String) : Except StoreError Unit :=
  if c then .ok () else .error ⟨.valueError, message⟩

/-! ## When the checks pass -/

@[simp] theorem demand_ok {c : Prop} [Decidable c] {message : String} {u : Unit} :
    demand c message = .ok u ↔ c := by
  unfold demand
  by_cases h : c <;> simp [h]

theorem callerText_ok {value field : String} {required : Bool} {v : String} :
    callerText value field required = .ok v ↔ (required = true → isBlank value = false) ∧
      v = value := by
  unfold callerText
  cases required <;> cases h : isBlank value <;> simp [eq_comm]

theorem callerSqliteInteger_ok {value : Int} {field : String} {v : Int} :
    callerSqliteInteger value field = .ok v ↔
      (-(maxSqliteInteger : Int) - 1 ≤ value ∧ value ≤ maxSqliteInteger) ∧ v = value := by
  unfold callerSqliteInteger
  split
  next h => simp only [Except.ok.injEq, eq_comm, h, true_and, and_self]
  next h => simp only [reduceCtorEq, h, false_and]

theorem callerSqliteIntegerFrom_ok {minimum : Nat} {value : Int} {field : String} {v : Int} :
    callerSqliteIntegerFrom minimum value field = .ok v ↔
      ((minimum : Int) ≤ value ∧ value ≤ maxSqliteInteger) ∧ v = value := by
  unfold callerSqliteIntegerFrom
  split
  next h =>
    have hnot : ¬((minimum : Int) ≤ value) := by omega
    split <;> simp [hnot]
  next h =>
    have hlow : -(maxSqliteInteger : Int) - 1 ≤ value := by omega
    have hmin : (minimum : Int) ≤ value := by omega
    simp only [callerSqliteInteger_ok, hlow, hmin, true_and]

theorem callerSqliteInteger_error {value : Int} {field : String} {e : StoreError}
    (h : callerSqliteInteger value field = .error e) : e.kind = .valueError := by
  unfold callerSqliteInteger at h
  split at h
  · simp at h
  · rw [← Except.error.inj h]

theorem callerSqliteIntegerFrom_error {minimum : Nat} {value : Int} {field : String}
    {e : StoreError} (h : callerSqliteIntegerFrom minimum value field = .error e) :
    e.kind = .valueError := by
  unfold callerSqliteIntegerFrom at h
  split at h
  · split at h
    · rw [← Except.error.inj h]
    · rw [← Except.error.inj h]
  · exact callerSqliteInteger_error h

theorem persistedText_ok {value field : String} {required : Bool} {v : String} :
    persistedText value field required = .ok v ↔ (required = true → isBlank value = false) ∧
      v = value := by
  unfold persistedText
  cases required <;> cases h : isBlank value <;> simp [eq_comm]

theorem persistedInteger_ok {value minimum : Nat} {field : String} {v : Nat} :
    persistedInteger value field minimum = .ok v ↔
      (minimum ≤ value ∧ value ≤ maxSqliteInteger) ∧ v = value := by
  unfold persistedInteger
  split
  next h =>
    simp only [reduceCtorEq, false_iff, not_and]
    omega
  next h =>
    simp only [Except.ok.injEq, eq_comm, iff_and_self]
    omega

end QuantumEntanglement
