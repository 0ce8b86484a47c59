import QuantumEntanglement.Attempts.Recovery
import QuantumEntanglement.Protocol

/-
  Recovery assessment — what a running task may do about its invocation

  `assessInvocationRecovery` checks a snapshot of the attempt store by rules of
  its own, binds it to the committed invocation, and answers with a decision.
  It writes nothing and claims nothing.

  What is proved:
    1. `validateSnapshot_ok` — a snapshot of a state in which the invariants of
       the attempt store hold is accepted.
    2. `assess_job` — what the assessment of such a snapshot answers.
    3. `assessment_agrees` — along every run of the attempt store, a first
       claim is offered exactly where no lease was ever granted, and the
       terminal decisions are those of the terminal jobs.

  The checks of a value's Python type have no counterpart: the fields are
  typed here.
-/

namespace QuantumEntanglement.InvocationRecovery

open PyText IsoTime Sha256 Attempts

def maxIdentityBytes : Nat := 4096
def maxReferenceBytes : Nat := 16384
def maxErrorBytes : Nat := 16384
def maxErrorLength : Nat := 4096
def sessionStreamPrefix : String := "session:"
def maxSessionStreamBytes : Nat := maxIdentityBytes + sessionStreamPrefix.utf8ByteSize

/-- An `InvocationRecoveryIntegrityError`. -/
def integrityError (message : String) : StoreError := ⟨.recoveryIntegrity, message⟩

/-- Raise where `c` holds. -/
def reject (c : Prop) [Decidable c] (message : String) : Except StoreError Unit :=
  if c then .error (integrityError message) else .ok ()

/-! ## Fields -/

/-- `_text`. -/
def text (value field : String) (maximumBytes : Nat) : Except StoreError Unit :=
  if isBlank value then .error (integrityError (field ++ " must be non-blank text"))
  else if maximumBytes < value.utf8ByteSize then
    .error (integrityError (field ++ " exceeds its byte limit"))
  else if value.toList.any isControl then
    .error (integrityError (field ++ " contains a control character"))
  else .ok ()

/-- A check of a field that may be left out: `_optional_text` and its kin. -/
def optional (value : Option String) (check : String → Except StoreError Unit) :
    Except StoreError Unit :=
  match value with
  | none => .ok ()
  | some v => check v

/-- `_digest`. -/
def digest (value field : String) : Except StoreError Unit := do
  text value field 64
  reject (¬IsHexDigest value) (field ++ " must be canonical SHA-256")

/-- `_integer`. -/
def integer (value : Nat) (field : String) (minimum maximum : Nat) : Except StoreError Unit :=
  reject (¬(minimum ≤ value ∧ value ≤ maximum))
    (field ++ " is outside its supported integer range")

/-- `_timestamp`. A text of 27 bytes that matches the pattern is ASCII. -/
def timestamp (py : PyVersion) (value field : String) : Except StoreError Unit := do
  text value field 27
  reject (isCanonicalUtc value.toList = false) (field ++ " must be canonical UTC")
  match readTimestamp py value with
  | none => .error (integrityError (field ++ " must be a valid timestamp"))
  | some r =>
    match r.offset with
    | none => .error (integrityError (field ++ " must be canonical UTC"))
    | some o => reject (microText (r.moment o) ≠ value) (field ++ " must be canonical UTC")

/-- One check for each named field. -/
def eachField (check : String → String → Except StoreError Unit) :
    List (String × String) → Except StoreError Unit
  | [] => .ok ()
  | (field, value) :: rest => do
    check value field
    eachField check rest

/-! ## Bindings -/

/-- The identity of an invocation, as its start evidence records it. -/
structure InvocationBinding where
  invocationId : String
  sessionId : String
  planId : String
  taskId : String
  agentId : String
  idempotencyKey : String
  payloadDigest : String
  deriving DecidableEq

/-- `_validate_binding`. -/
def validateBinding (binding : InvocationBinding) (label : String) : Except StoreError Unit := do
  eachField (fun value field => text value (label ++ " " ++ field) maxIdentityBytes)
    [("invocation_id", binding.invocationId), ("session_id", binding.sessionId),
      ("plan_id", binding.planId), ("task_id", binding.taskId), ("agent_id", binding.agentId),
      ("idempotency_key", binding.idempotencyKey)]
  digest binding.payloadDigest (label ++ " payload_digest")

/-- The identity of a stored job. -/
def bindingOf (job : JobRow) : InvocationBinding :=
  ⟨job.invocationId, job.sessionId, job.planId, job.taskId, job.agentId, job.idempotencyKey,
    job.payloadDigest⟩

/-- The fields two bindings differ in. -/
def mismatches (a b : InvocationBinding) : List String :=
  (if a.invocationId ≠ b.invocationId then ["invocation_id"] else []) ++
  (if a.sessionId ≠ b.sessionId then ["session_id"] else []) ++
  (if a.planId ≠ b.planId then ["plan_id"] else []) ++
  (if a.taskId ≠ b.taskId then ["task_id"] else []) ++
  (if a.agentId ≠ b.agentId then ["agent_id"] else []) ++
  (if a.idempotencyKey ≠ b.idempotencyKey then ["idempotency_key"] else []) ++
  (if a.payloadDigest ≠ b.payloadDigest then ["payload_digest"] else [])

/-- `_validate_binding_match`. -/
def validateBindingMatch (binding : InvocationBinding) (job : JobRow) : Except StoreError Unit :=
  reject (mismatches binding (bindingOf job) ≠ [])
    ("invocation job does not match committed binding: " ++
      ", ".intercalate (mismatches binding (bindingOf job)))

/-! ## Snapshots -/

/-- A job that ended. -/
def isTerminal (status : InvocationStatus) : Bool :=
  status = .succeeded || status = .failed || status = .canceled

/-- The lease columns of a job against its status. -/
def validateJobLease (job : JobRow) : Except StoreError Unit :=
  match job.status with
  | .running => do
    reject (job.leaseOwner = none ∨ job.leaseTokenDigest = none ∨ job.leaseExpiresAt = none ∨
      job.heartbeatAt = none ∨ job.attemptsStarted = 0)
      "running job has incomplete lease ownership"
    reject (∃ v ∈ job.heartbeatAt, v < job.createdAt) "job heartbeat_at precedes creation"
    reject (∃ v ∈ job.heartbeatAt, job.updatedAt < v) "job updated_at precedes heartbeat"
    reject (∃ e ∈ job.leaseExpiresAt, (∃ v ∈ job.heartbeatAt, ¬v < e) ∨ ¬job.updatedAt < e)
      "job lease deadline does not follow activity"
  | _ => reject (¬(job.leaseOwner = none ∧ job.leaseTokenDigest = none ∧
      job.leaseExpiresAt = none ∧ job.heartbeatAt = none))
      "non-running job retains lease ownership"

/-- `_validate_job`. -/
def validateJob (py : PyVersion) (job : JobRow) : Except StoreError Unit := do
  eachField (fun value field => text value ("job " ++ field) maxIdentityBytes)
    [("invocation_id", job.invocationId), ("session_id", job.sessionId), ("plan_id", job.planId),
      ("task_id", job.taskId), ("agent_id", job.agentId), ("idempotency_key", job.idempotencyKey)]
  digest job.payloadDigest "job payload_digest"
  integer job.priority "job priority" 0 100
  integer job.maxAttempts "job max_attempts" 1 maxSqliteInteger
  integer job.attemptsStarted "job attempts_started" 0 job.maxAttempts
  integer job.leaseEpoch "job lease_epoch" 0 maxSqliteInteger
  reject (job.leaseEpoch < job.attemptsStarted ∨ (job.attemptsStarted = 0 ∧ job.leaseEpoch ≠ 0))
    "job lease_epoch contradicts attempts_started"
  reject (job.status = .failed ∧ job.attemptsStarted ≠ job.maxAttempts)
    "failed job has remaining attempt budget"
  reject (job.status = .queued ∧ 0 < job.attemptsStarted ∧ job.maxAttempts ≤ job.attemptsStarted)
    "queued job exhausted its attempt budget"
  optional job.requestedAvailableAt (timestamp py · "job requested_available_at")
  timestamp py job.availableAt "job available_at"
  timestamp py job.createdAt "job created_at"
  timestamp py job.updatedAt "job updated_at"
  optional job.finishedAt (timestamp py · "job finished_at")
  optional job.leaseExpiresAt (timestamp py · "job lease_expires_at")
  optional job.heartbeatAt (timestamp py · "job heartbeat_at")
  optional job.leaseOwner (text · "job lease_owner" maxIdentityBytes)
  optional job.leaseTokenDigest (digest · "job lease_token_digest")
  optional job.resultRef (text · "job result_ref" maxReferenceBytes)
  optional job.lastError (text · "job last_error" maxErrorBytes)
  reject (∃ v ∈ job.lastError, maxErrorLength < v.length)
    "job last_error exceeds its supported length"
  reject (job.updatedAt < job.createdAt) "job updated_at precedes creation"
  reject (job.attemptsStarted = 0 ∧ job.lastError ≠ none) "zero-attempt job carries a last_error"
  reject ((job.status = .failed ∨ (job.status = .queued ∧ 0 < job.attemptsStarted)) ∧
    job.lastError = none) "failed job state lacks a last_error"
  reject (isTerminal job.status ≠ job.finishedAt.isSome) "job finished_at contradicts its status"
  reject (∃ v ∈ job.finishedAt, v < job.createdAt) "job finished_at precedes creation"
  reject (∃ v ∈ job.finishedAt, job.updatedAt < v) "job updated_at precedes finish"
  validateJobLease job
  reject ((job.status = .succeeded ∨ job.status = .failed) ∧ job.attemptsStarted = 0)
    "terminal job has no started attempt"
  reject (job.resultRef ≠ none ∧ job.status ≠ .succeeded)
    "only a succeeded job may carry a result_ref"

/-- `_validate_attempt`. -/
def validateAttempt (py : PyVersion) (attempt : AttemptRow) : Except StoreError Unit := do
  eachField (fun value field => text value ("attempt " ++ field) maxIdentityBytes)
    [("attempt_id", attempt.attemptId), ("invocation_id", attempt.invocationId),
      ("worker_id", attempt.workerId)]
  integer attempt.attemptNumber "attempt number" 1 maxSqliteInteger
  integer attempt.leaseEpoch "attempt lease_epoch" 1 maxSqliteInteger
  digest attempt.leaseTokenDigest "attempt lease_token_digest"
  timestamp py attempt.startedAt "attempt started_at"
  timestamp py attempt.heartbeatAt "attempt heartbeat_at"
  timestamp py attempt.leaseExpiresAt "attempt lease_expires_at"
  optional attempt.finishedAt (timestamp py · "attempt finished_at")
  optional attempt.error (text · "attempt error" maxErrorBytes)
  reject (∃ v ∈ attempt.error, maxErrorLength < v.length)
    "attempt error exceeds its supported length"
  optional attempt.resultRef (text · "attempt result_ref" maxReferenceBytes)
  reject (attempt.heartbeatAt < attempt.startedAt) "attempt timestamps violate start causality"
  reject (¬attempt.heartbeatAt < attempt.leaseExpiresAt)
    "attempt lease deadline does not follow heartbeat"
  reject (¬(attempt.status = .running ↔ attempt.finishedAt = none))
    "attempt finished_at contradicts its status"
  reject ((attempt.status = .running ∨ attempt.status = .succeeded) ∧ attempt.error ≠ none)
    "active/succeeded attempt carries an error"
  reject ((attempt.status = .failed ∨ attempt.status = .expired) ∧ attempt.error = none)
    "failed/expired attempt lacks an error"
  reject (∃ v ∈ attempt.finishedAt, v < attempt.startedAt) "attempt finished_at precedes its start"
  reject (∃ v ∈ attempt.finishedAt, v < attempt.heartbeatAt)
    "attempt finished_at precedes its heartbeat"
  reject ((attempt.status = .succeeded ∨ attempt.status = .failed) ∧
    ∃ v ∈ attempt.finishedAt, ¬v < attempt.leaseExpiresAt) "owned attempt finished outside its lease"
  reject (attempt.status = .expired ∧ ∃ v ∈ attempt.finishedAt, v < attempt.leaseExpiresAt)
    "expired attempt finished before lease expiry"
  reject (attempt.resultRef ≠ none ∧ attempt.status ≠ .succeeded)
    "only a succeeded attempt may carry a result_ref"

/-- The status of a job against its last attempt. -/
def validateAgreement (job : JobRow) (current : AttemptRow) : Except StoreError Unit :=
  if job.status = .running then
    reject (current.status ≠ .running ∨ some current.workerId ≠ job.leaseOwner ∨
        some current.leaseTokenDigest ≠ job.leaseTokenDigest ∨
        some current.heartbeatAt ≠ job.heartbeatAt ∨
        some current.leaseExpiresAt ≠ job.leaseExpiresAt)
      "running job ownership differs from its current attempt"
  else if current.status = .running then
    .error (integrityError "non-running job has a running current attempt")
  else
    match job.status with
    | .queued => do
      reject (¬IsFailedOrExpired current) "queued job has an incompatible prior attempt"
      reject (current.error ≠ job.lastError) "queued job error differs from its attempt"
    | .succeeded =>
      reject (current.status ≠ .succeeded ∨ current.resultRef ≠ job.resultRef)
        "succeeded job differs from its current attempt"
    | .failed => do
      reject (¬IsFailedOrExpired current) "failed job has an incompatible attempt"
      reject (current.error ≠ job.lastError) "failed job error differs from its attempt"
    | .canceled =>
      reject (current.status ≠ .canceled) "canceled job has an incompatible attempt"
    | .running => .ok ()

/-- The current attempt of a job that has one. -/
def validateCurrent (py : PyVersion) (job : JobRow) (current : AttemptRow) :
    Except StoreError Unit := do
  validateAttempt py current
  reject (current.invocationId ≠ job.invocationId ∨ current.attemptNumber ≠ job.attemptsStarted ∨
    current.leaseEpoch ≠ job.leaseEpoch) "current attempt identity differs from the job"
  reject (current.startedAt < job.createdAt) "current attempt starts before its job"
  reject (∃ v ∈ current.finishedAt, job.updatedAt < v) "job update precedes its current attempt"
  reject (∃ v ∈ job.finishedAt, current.finishedAt ≠ some v)
    "job finish differs from its current attempt"
  validateAgreement job current

/-- `_validate_snapshot`. -/
def validateSnapshot (py : PyVersion) (snapshot : RecoverySnapshot) :
    Except StoreError (Option JobRow) := do
  integer snapshot.attemptCount "snapshot attempt_count" 0 maxSqliteInteger
  match snapshot.job with
  | none =>
    reject (snapshot.currentAttempt ≠ none ∨ snapshot.attemptCount ≠ 0)
      "missing job has attached attempt state"
    .ok none
  | some job =>
    validateJob py job
    reject (snapshot.attemptCount ≠ job.attemptsStarted)
      "snapshot attempt_count differs from the job"
    if snapshot.attemptCount = 0 then
      reject (snapshot.currentAttempt ≠ none) "zero-attempt job has a current attempt"
      .ok (some job)
    else
      match snapshot.currentAttempt with
      | none => .error (integrityError "attempted job has no current attempt")
      | some current =>
        validateCurrent py job current
        .ok (some job)

/-! ## Receipts -/

/-- Proof that a result crossed its durable boundary under an attempt. -/
structure InvocationResultReceipt where
  binding : InvocationBinding
  attemptId : String
  attemptNumber : Nat
  leaseEpoch : Nat
  leaseTokenDigest : String
  resultRef : String
  manifestDigest : String
  receiptId : String
  streamId : String
  streamSequence : Nat
  deriving DecidableEq

/-- `_validate_receipt_shape`. -/
def validateReceiptShape (receipt : InvocationResultReceipt) : Except StoreError Unit := do
  validateBinding receipt.binding "receipt binding"
  text receipt.attemptId "receipt attempt_id" maxIdentityBytes
  integer receipt.attemptNumber "receipt attempt_number" 1 maxSqliteInteger
  integer receipt.leaseEpoch "receipt lease_epoch" 1 maxSqliteInteger
  digest receipt.leaseTokenDigest "receipt lease_token_digest"
  text receipt.resultRef "receipt result_ref" maxReferenceBytes
  digest receipt.manifestDigest "receipt manifest_digest"
  text receipt.receiptId "receipt receipt_id" maxIdentityBytes
  text receipt.streamId "receipt stream_id" maxSessionStreamBytes
  reject (receipt.streamId ≠ sessionStreamPrefix ++ receipt.binding.sessionId)
    "receipt stream_id differs from its session"
  integer receipt.streamSequence "receipt stream_sequence" 1 maxSqliteInteger

/-- The fields a receipt and an attempt differ in. -/
def receiptMismatches (receipt : InvocationResultReceipt) (attempt : AttemptRow) : List String :=
  (if receipt.attemptId ≠ attempt.attemptId then ["attempt_id"] else []) ++
  (if receipt.attemptNumber ≠ attempt.attemptNumber then ["attempt_number"] else []) ++
  (if receipt.leaseEpoch ≠ attempt.leaseEpoch then ["lease_epoch"] else []) ++
  (if receipt.leaseTokenDigest ≠ attempt.leaseTokenDigest then ["lease_token_digest"] else [])

/-- `_validate_receipt_match`. -/
def validateReceiptMatch (binding : InvocationBinding) (snapshot : RecoverySnapshot)
    (receipt : InvocationResultReceipt) : Except StoreError Unit := do
  validateReceiptShape receipt
  reject (receipt.binding ≠ binding) "result receipt binding does not match invocation"
  match snapshot.currentAttempt with
  | none => .error (integrityError "result receipt has no owning attempt")
  | some attempt =>
    reject (receiptMismatches receipt attempt ≠ [])
      ("result receipt does not match current attempt: " ++
        ", ".intercalate (receiptMismatches receipt attempt))

/-! ## The assessment -/

/-- `InvocationRecoveryDecision`. -/
inductive Decision where
  | blockedMissingJob
  | firstClaimReady
  | blockedEffectUnknown
  | waitingActiveLease
  | blockedReceiptUnverified
  | blockedResultUncommitted
  | terminalFailureEffectUnknown
  deriving DecidableEq

/-- The decision about a bound job without a receipt. -/
def decisionFor (job : JobRow) : Except StoreError Decision :=
  match job.status with
  | .queued => .ok (if job.attemptsStarted = 0 then .firstClaimReady else .blockedEffectUnknown)
  | .running => .ok .waitingActiveLease
  | .succeeded => .ok .blockedResultUncommitted
  | .failed => .ok .terminalFailureEffectUnknown
  | .canceled => .error (integrityError "invocation job status is unsupported")

/-- `assess_invocation_recovery`. -/
def assessInvocationRecovery (py : PyVersion) (taskStatus : TaskStatus)
    (binding : InvocationBinding) (snapshot : RecoverySnapshot)
    (receipt : Option InvocationResultReceipt) :
    Except StoreError Decision := do
  reject (taskStatus ≠ .running) "invocation recovery requires a RUNNING task"
  validateBinding binding "binding"
  match ← validateSnapshot py snapshot with
  | none =>
    match receipt with
    | some receipt =>
      validateReceiptShape receipt
      .error (integrityError "result receipt exists without invocation job")
    | none => .ok .blockedMissingJob
  | some job =>
    validateBindingMatch binding job
    reject (job.status = .canceled)
      "canceled invocation recovery requires an authorized cancellation receipt"
    match receipt with
    | some receipt =>
      validateReceiptMatch binding snapshot receipt
      reject (job.status = .succeeded ∧ ∃ v ∈ job.resultRef, v ≠ receipt.resultRef)
        "succeeded invocation result_ref differs from its receipt"
      .ok .blockedReceiptUnverified
    | none => decisionFor job

/-! ## Fields that pass -/

theorem reject_ok {c : Prop} [Decidable c] {message : String} {u : Unit} :
    reject c message = .ok u ↔ ¬c := by
  unfold reject
  by_cases h : c <;> simp [h]

theorem text_ok {value field : String} {maximumBytes : Nat} {u : Unit} :
    text value field maximumBytes = .ok u ↔ TextOk maximumBytes value := by
  unfold text TextOk
  split
  next h => simp [h]
  next h =>
    split
    next hb => simp [Nat.not_le.mpr hb]
    next hb =>
      split
      next hc => simp [hc]
      next hc =>
        simp only [Bool.not_eq_true] at h hc
        simp [h, hc, Nat.not_lt.mp hb]

theorem digest_ok {value field : String} {u : Unit} (h : IsHexDigest value) :
    digest value field = .ok u := by
  simp only [digest, except_bind_ok, text_ok, reject_ok, not_not]
  exact ⟨(), textOk_of_hex h (by decide), h⟩

theorem integer_ok {value minimum maximum : Nat} {field : String} {u : Unit} :
    integer value field minimum maximum = .ok u ↔ minimum ≤ value ∧ value ≤ maximum := by
  rw [integer, reject_ok, not_not]

theorem optional_ok {value : Option String} {check : String → Except StoreError Unit} :
    optional value check = .ok () ↔ ∀ v ∈ value, check v = .ok () := by
  cases value <;> simp [optional]

theorem eachField_ok {check : String → String → Except StoreError Unit}
    {fields : List (String × String)} :
    eachField check fields = .ok () ↔ ∀ p ∈ fields, check p.2 p.1 = .ok () := by
  induction fields with
  | nil => simp [eachField]
  | cons p rest ih =>
    obtain ⟨field, value⟩ := p
    simp only [eachField, except_bind_ok, List.forall_mem_cons, ← ih]
    exact ⟨fun h => h.elim fun _ h => h, fun h => ⟨(), h⟩⟩

/-- **A timestamp the attempt store persists is canonical.** -/
theorem timestamp_ok {py : PyVersion} {value : String} (field : String)
    (h : PersistedTimestamp py value) : timestamp py value field = .ok () := by
  obtain ⟨m, hm, rfl⟩ := persistedTimestamp_iff.mp h
  have hcanonical : isCanonicalUtc (microText m).toList = true := by
    rw [microText, String.toList_ofList]
    exact isCanonicalUtc_isoformatMicros m
  have hoffset : (microReading m).offset = some 0 := rfl
  have htext : text (microText m) field 27 = .ok () :=
    text_ok.mpr (microText_textOk m (Nat.le_refl 27))
  simp [timestamp, htext, reject, hcanonical, readTimestamp_microText hm, hoffset,
    microReading_moment hm, bind, Except.bind]

/-! ## Rows that pass -/

section

variable {py : PyVersion}

theorem validateJobLease_ok {job : JobRow} (h : JobOk py job) : validateJobLease job = .ok () := by
  obtain ⟨-, -, -, -, hset, hclear⟩ := h.lease
  obtain ⟨-, -, -, -, -, -, hlast⟩ := h.times
  have hstarted := h.counts.2.2.2.2.2.2.2.1
  by_cases hrunning : job.status = .running
  · obtain ⟨howner, hdigest, hexpiry, hbeat⟩ := hset hrunning
    obtain ⟨hbeats, hlater⟩ := hlast hrunning
    simp only [validateJobLease, hrunning, except_bind_ok, reject_ok]
    refine ⟨(), ?_, (), ?_, (), ?_, ?_⟩
    · simp only [not_or]
      exact ⟨Option.isSome_iff_ne_none.mp howner, Option.isSome_iff_ne_none.mp hdigest,
        Option.isSome_iff_ne_none.mp hexpiry, Option.isSome_iff_ne_none.mp hbeat,
        hstarted hrunning⟩
    · rintro ⟨v, hv, hlt⟩
      exact (hbeats v hv).1 hlt
    · rintro ⟨v, hv, hlt⟩
      exact (hbeats v hv).2.1 hlt
    · rintro ⟨e, he, ⟨v, hv, hnot⟩ | hnot⟩
      · exact hnot ((hbeats v hv).2.2 e he)
      · exact hnot (hlater e he)
  · have hcleared := hclear hrunning
    unfold validateJobLease
    split
    next hs => exact absurd hs hrunning
    next => exact reject_ok.mpr (not_not.mpr hcleared)

/-- **A row the attempt store accepts is a job the assessment accepts.** -/
theorem validateJob_ok {job : JobRow} (h : JobOk py job) : validateJob py job = .ok () := by
  obtain ⟨hmax, hstarted, hepoch, hepochs, hzero, hfailed, hqueued, -, hended, hpriority⟩ := h.counts
  obtain ⟨howner, htoken, hexpiry, hbeat, -, -⟩ := h.lease
  obtain ⟨hfinish, hterminal, herror, hnoError, hneeds, hresult, hsucceeded⟩ := h.outcome
  obtain ⟨hrequested, havailable, hcreated, hupdated, hafter, hfinished, -⟩ := h.times
  obtain ⟨h₁, h₂, h₃, h₄, h₅, h₆, hdigest⟩ := h.texts
  simp only [validateJob, except_bind_ok, reject_ok, integer_ok, validateJobLease_ok h]
  refine ⟨(), eachField_ok.mpr ?_, (), digest_ok hdigest.2, (), ⟨Nat.zero_le _, hpriority⟩, (),
    hmax, (), ⟨Nat.zero_le _, hstarted⟩, (), ⟨Nat.zero_le _, hepoch⟩, (), ?_, (), ?_, (), ?_, (),
    optional_ok.mpr fun v hv => timestamp_ok _ (hrequested v hv), (), timestamp_ok _ havailable, (),
    timestamp_ok _ hcreated, (), timestamp_ok _ hupdated, (),
    optional_ok.mpr fun v hv => timestamp_ok _ (hfinish v hv), (),
    optional_ok.mpr fun v hv => timestamp_ok _ (hexpiry v hv), (),
    optional_ok.mpr fun v hv => timestamp_ok _ (hbeat v hv), (),
    optional_ok.mpr fun v hv => text_ok.mpr (howner v hv), (),
    optional_ok.mpr fun v hv => digest_ok (htoken v hv).2, (),
    optional_ok.mpr fun v hv => text_ok.mpr (hresult v hv), (),
    optional_ok.mpr fun v hv => text_ok.mpr (herror v hv).1, (), ?_, (), hafter, (), ?_, (), ?_, (),
    ?_, (), ?_, (), ?_, (), trivial, (), ?_, ?_⟩
  · simp only [List.forall_mem_cons, text_ok]
    exact ⟨h₁, h₂, h₃, h₄, h₅, h₆, by simp⟩
  · rintro (hlt | ⟨hz, hne⟩)
    · omega
    · exact hne (hzero hz)
  · rintro ⟨hs, hne⟩
    exact hne (hfailed hs)
  · rintro ⟨hs, hpos, hle⟩
    have := hqueued hs
    omega
  · rintro ⟨v, hv, hlt⟩
    exact absurd (herror v hv).2 (Nat.not_le.mpr hlt)
  · rintro ⟨hz, hne⟩
    exact hne (hnoError hz)
  · rintro ⟨hs, hnone⟩
    have hsome := hneeds hs
    rw [hnone] at hsome
    simp at hsome
  · have hiff : isTerminal job.status = job.finishedAt.isSome := by
      rw [Bool.eq_iff_iff, ← hterminal]
      simp [isTerminal, or_assoc]
    exact not_not.mpr hiff
  · rintro ⟨v, hv, hlt⟩
    exact (hfinished v hv).1 hlt
  · rintro ⟨v, hv, hlt⟩
    exact (hfinished v hv).2 hlt
  · rintro ⟨hs, hz⟩
    exact hended hs hz
  · rintro ⟨hne, hs⟩
    exact hs (hsucceeded (Option.isSome_iff_ne_none.mpr hne))

/-- **So is an attempt.** -/
theorem validateAttempt_ok {a : AttemptRow} (h : AttemptOk py a) : validateAttempt py a = .ok () := by
  obtain ⟨hnumber, hepoch, -, hfinish, hrunning, herror, hnoError, hneeds, hstart, hbeat, hexpiry,
    hbeats, hlive, hfinished, hresult, hsucceeded, h₁, h₂, h₃, hdigest⟩ := h
  simp only [validateAttempt, except_bind_ok, reject_ok, integer_ok]
  refine ⟨(), eachField_ok.mpr ?_, (), hnumber, (), hepoch, (), digest_ok hdigest.2, (),
    timestamp_ok _ hstart, (), timestamp_ok _ hbeat, (), timestamp_ok _ hexpiry, (),
    optional_ok.mpr fun v hv => timestamp_ok _ (hfinish v hv), (),
    optional_ok.mpr fun v hv => text_ok.mpr (herror v hv).1, (), ?_, (),
    optional_ok.mpr fun v hv => text_ok.mpr (hresult v hv), (), hbeats, (), not_not.mpr hlive, (),
    not_not.mpr hrunning, (), ?_, (), ?_, (), ?_, (), ?_, (), ?_, (), ?_, ?_⟩
  · simp only [List.forall_mem_cons, text_ok]
    exact ⟨h₁, h₂, h₃, by simp⟩
  · rintro ⟨v, hv, hlt⟩
    exact absurd (herror v hv).2 (Nat.not_le.mpr hlt)
  · rintro ⟨hs, hne⟩
    exact hne (hnoError hs)
  · rintro ⟨hs, hnone⟩
    have hsome := hneeds hs
    rw [hnone] at hsome
    simp at hsome
  · rintro ⟨v, hv, hlt⟩
    exact (hfinished v hv).1 hlt
  · rintro ⟨v, hv, hlt⟩
    exact (hfinished v hv).2.1 hlt
  · rintro ⟨hs, v, hv, hnot⟩
    exact hnot ((hfinished v hv).2.2.1 hs)
  · rintro ⟨hs, v, hv, hlt⟩
    exact (hfinished v hv).2.2.2 hs hlt
  · rintro ⟨hne, hs⟩
    exact hs (hsucceeded (Option.isSome_iff_ne_none.mpr hne))

/-- The two validators ask the same of a job and its attempt. -/
theorem validateAgreement_ok {job : JobRow} {a : AttemptRow} (h : Agrees job a) :
    validateAgreement job a = .ok () := by
  unfold validateAgreement
  unfold Agrees at h
  cases hs : job.status with
  | running =>
    simp only [hs] at h
    obtain ⟨hstatus, howner, hdigest, hbeat, hexpiry⟩ := h
    simp [reject, hstatus, howner, hdigest, hbeat, hexpiry]
  | succeeded =>
    simp only [hs] at h
    simp [reject, h.1, h.2]
  | canceled =>
    simp only [hs] at h
    simp [reject, h]
  | failed =>
    simp only [hs] at h
    have hnot : a.status ≠ .running := by rcases h.1 with e | e <;> simp [e]
    simp [reject, hnot, IsFailedOrExpired, h.1, h.2, bind, Except.bind]
  | queued =>
    simp only [hs] at h
    have hnot : a.status ≠ .running := by rcases h.1 with e | e <;> simp [e]
    simp [reject, hnot, IsFailedOrExpired, h.1, h.2, bind, Except.bind]

theorem validateCurrent_ok {job : JobRow} {a : AttemptRow} (h : Held py job a) :
    validateCurrent py job a = .ok () := by
  obtain ⟨hok, hsame, ⟨hjob, hepoch⟩, ⟨hnumber, hattempt⟩, hstarts, hwithin, hfinish, hagrees⟩ := h
  simp only [validateCurrent, except_bind_ok, reject_ok, validateAttempt_ok hok,
    validateAgreement_ok hagrees]
  refine ⟨(), trivial, (), ?_, (), hstarts, (), ?_, (), ?_, trivial⟩
  · simp [hsame, hjob, hepoch, hnumber, hattempt]
  · rintro ⟨v, hv, hlt⟩
    exact hwithin v hv hlt
  · rintro ⟨v, hv, hne⟩
    exact hne (hfinish v hv)

/-- **The assessment accepts every snapshot the attempt store takes.** -/
theorem validateSnapshot_ok {db : Db} {sessionId taskId : String} {snap : RecoverySnapshot}
    (hinv : TablesInv py db) (h : IsSnapshotOf py db sessionId taskId snap) :
    validateSnapshot py snap = .ok snap.job := by
  have hmax : (1 : Nat) ≤ maxSqliteInteger := by decide
  rcases h with ⟨rfl, -⟩ | ⟨job, hmem, -, -, ⟨rfl, hzero⟩ | ⟨a, -, rfl, hheld⟩⟩
  · simp [validateSnapshot, integer, reject, bind, Except.bind]
  · have hjob := validateJob_ok (hinv.jobs.ok job hmem)
    simp [validateSnapshot, integer, reject, hjob, hzero, bind, Except.bind]
  · have hjob := validateJob_ok (hinv.jobs.ok job hmem)
    have hcurrent := validateCurrent_ok hheld
    simp [validateSnapshot, integer, reject, hjob, hheld.firstJob.1, hcurrent, hmax, bind,
      Except.bind]

/-! ## The decision -/

/-- The identity of a stored job passes the binding's own check. -/
theorem validateBinding_ok {job : JobRow} (h : JobOk py job) (label : String) :
    validateBinding (bindingOf job) label = .ok () := by
  obtain ⟨h₁, h₂, h₃, h₄, h₅, h₆, hdigest⟩ := h.texts
  simp only [validateBinding, except_bind_ok]
  refine ⟨(), eachField_ok.mpr ?_, digest_ok hdigest.2⟩
  simp only [List.forall_mem_cons, text_ok]
  exact ⟨h₁, h₂, h₃, h₄, h₅, h₆, by simp⟩

theorem mismatches_nil {a b : InvocationBinding} : mismatches a b = [] ↔ a = b := by
  obtain ⟨a₁, a₂, a₃, a₄, a₅, a₆, a₇⟩ := a
  obtain ⟨b₁, b₂, b₃, b₄, b₅, b₆, b₇⟩ := b
  simp only [mismatches, List.append_eq_nil_iff, ite_eq_right_iff, List.cons_ne_nil, imp_false,
    not_not, InvocationBinding.mk.injEq, and_assoc]

/-- What an assessment that returned has checked. -/
theorem assess_ok {taskStatus : TaskStatus} {binding : InvocationBinding}
    {snap : RecoverySnapshot} {receipt : Option InvocationResultReceipt} {d : Decision}
    (h : assessInvocationRecovery py taskStatus binding snap receipt = .ok d)
    (hsnap : validateSnapshot py snap = .ok snap.job) :
    (snap.job = none ∧ d = .blockedMissingJob) ∨
      ∃ job, snap.job = some job ∧ binding = bindingOf job ∧
        (d = .blockedReceiptUnverified ∨ (receipt = none ∧ decisionFor job = .ok d)) := by
  simp only [assessInvocationRecovery, except_bind_ok, hsnap, Except.ok.injEq] at h
  obtain ⟨-, -, -, -, found, hfound, h⟩ := h
  cases found with
  | none =>
    refine .inl ⟨hfound, ?_⟩
    cases receipt with
    | none => simpa using h.symm
    | some r => simp [except_bind_ok] at h
  | some job =>
    simp only [except_bind_ok, validateBindingMatch, reject_ok, not_not, mismatches_nil] at h
    obtain ⟨-, hbinding, -, -, h⟩ := h
    refine .inr ⟨job, hfound, hbinding, ?_⟩
    cases receipt with
    | none => exact .inr ⟨rfl, h⟩
    | some r =>
      simp only [except_bind_ok, Except.ok.injEq] at h
      obtain ⟨-, -, -, -, rfl⟩ := h
      exact .inl rfl

/-- The assessment of a job under its own identity is the decision about it. -/
theorem assess_job {job : JobRow} {snap : RecoverySnapshot} (hjob : JobOk py job)
    (hsnap : validateSnapshot py snap = .ok (some job)) (hcanceled : job.status ≠ .canceled) :
    assessInvocationRecovery py .running (bindingOf job) snap none = decisionFor job := by
  have hmatch : mismatches (bindingOf job) (bindingOf job) = [] := mismatches_nil.mpr rfl
  simp [assessInvocationRecovery, reject, validateBinding_ok hjob, hsnap, validateBindingMatch,
    hmatch, hcanceled, bind, Except.bind]

/-- No operation of the store cancels a job. -/
theorem not_canceled {db : Db} {ls : List (AttemptCall py × AttemptReply)}
    (h : TransitionSystem.Run (attemptSystem py) Db.empty ls db) {job : JobRow}
    (hjob : job ∈ db.jobs) : job.status ≠ .canceled := by
  intro hs
  rcases ended_once h hjob (.inr (.inr hs)) with ⟨hc, -⟩ | ⟨hc, -⟩ | ⟨hc, -⟩ <;>
    rw [hs] at hc <;> simp at hc

/-- **The assessment agrees with the attempt store.** In every state a run
reaches, the snapshot of every task is read and accepted. A first claim is
offered only under the job's own identity, without a receipt, to a job that was
never leased and has no attempt; and under its own identity a job is assessed
as ready for a first claim exactly if it was never leased, and as a terminal
one exactly by its terminal status. -/
theorem assessment_agrees {db : Db} {ls : List (AttemptCall py × AttemptReply)}
    (h : TransitionSystem.Run (attemptSystem py) Db.empty ls db) {sessionId taskId : String}
    (hsession : TextOk Attempts.maxIdentityBytes sessionId)
    (htask : TextOk Attempts.maxIdentityBytes taskId) :
    ∃ snap, recoverySnapshotForTask py sessionId taskId db = (.ok snap, db) ∧
      validateSnapshot py snap = .ok snap.job ∧
      (∀ binding receipt,
        assessInvocationRecovery py .running binding snap receipt = .ok .firstClaimReady →
        ∃ job ∈ db.jobs, snap.job = some job ∧ binding = bindingOf job ∧
          ls.filterMap (grantTo job.invocationId) = [] ∧
          ∀ a ∈ db.attempts, a.invocationId ≠ job.invocationId) ∧
      ∀ job, snap.job = some job →
        job ∈ db.jobs ∧ job.sessionId = sessionId ∧ job.taskId = taskId ∧
        (assessInvocationRecovery py .running (bindingOf job) snap none = .ok .firstClaimReady ↔
          ls.filterMap (grantTo job.invocationId) = []) ∧
        (assessInvocationRecovery py .running (bindingOf job) snap none =
          .ok .blockedResultUncommitted ↔ job.status = .succeeded) ∧
        (assessInvocationRecovery py .running (bindingOf job) snap none =
          .ok .terminalFailureEffectUnknown ↔ job.status = .failed) := by
  obtain ⟨hinv, -⟩ := attempt_traces h (tablesInv_empty py)
  obtain ⟨snap, hread, his⟩ := recoverySnapshotForTask_ok hinv hsession htask
  have hvalid := validateSnapshot_ok hinv his
  have hmem : ∀ job, snap.job = some job →
      job ∈ db.jobs ∧ job.sessionId = sessionId ∧ job.taskId = taskId := by
    intro job hjob
    rcases his with ⟨rfl, -⟩ | ⟨j, hj, hs, ht, ⟨rfl, -⟩ | ⟨a, -, rfl, -⟩⟩
    · simp at hjob
    · obtain rfl : j = job := by simpa using hjob
      exact ⟨hj, hs, ht⟩
    · obtain rfl : j = job := by simpa using hjob
      exact ⟨hj, hs, ht⟩
  refine ⟨snap, hread, hvalid, fun binding receipt hready => ?_, fun job hjob => ?_⟩
  · rcases assess_ok hready hvalid with ⟨-, hd⟩ | ⟨job, hjob, hbinding, hd | ⟨-, hd⟩⟩
    · simp at hd
    · simp at hd
    · obtain ⟨hin, -⟩ := hmem job hjob
      have hzero : job.attemptsStarted = 0 := by
        unfold decisionFor at hd
        split at hd
        · by_contra hne
          simp [hne] at hd
        all_goals simp at hd
      exact ⟨job, hin, hjob, hbinding, (no_grant_iff h hin).mpr hzero,
        (hinv.attempts.waiting job hin hzero).2⟩
  · obtain ⟨hin, hs, ht⟩ := hmem job hjob
    rw [hjob] at hvalid
    rw [assess_job (hinv.jobs.ok job hin) hvalid (not_canceled h hin)]
    refine ⟨hin, hs, ht, ?_, ?_, ?_⟩
    · rw [no_grant_iff h hin]
      constructor
      · intro hd
        unfold decisionFor at hd
        split at hd
        · by_contra hne
          simp [hne] at hd
        all_goals simp at hd
      · intro hzero
        rw [decisionFor, (hinv.attempts.waiting job hin hzero).1]
        simp [hzero]
    · unfold decisionFor
      cases job.status <;> simp
      split <;> simp
    · unfold decisionFor
      cases job.status <;> simp
      split <;> simp

/-- The snapshot of a task whose lease expired is read and accepted. -/
theorem assessment_agrees_expired :
    ∃ snap, recoverySnapshotForTask .py311 "s" "t" (stateAfter expiredCalls Db.empty) =
        (.ok snap, stateAfter expiredCalls Db.empty) ∧
      validateSnapshot .py311 snap = .ok snap.job := by
  obtain ⟨snap, hread, hvalid, -⟩ := @assessment_agrees _ _ _ (run_calls expiredCalls Db.empty)
    "s" "t" (by decide) (by decide)
  exact ⟨snap, hread, hvalid⟩

end

end QuantumEntanglement.InvocationRecovery
