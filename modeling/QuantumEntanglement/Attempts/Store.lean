import QuantumEntanglement.Attempts.Records

/-
  The attempt store — queue, lease, heartbeat, finish and recover invocations

  Every operation is one transaction. A job is leased once: a claim selects
  only queued jobs that were never started. The holder of a lease proves it by
  worker, token digest and epoch, and only before the lease expires; expired
  leases are fenced by `recoverExpired`, which every claim runs first.

  Correspondence (Python ↔ Lean), of `attempts.SQLiteInvocationAttemptStore`:
    their `_in_transaction`                        ↔ `heartbeatInTransaction`,
                                                     `completeInTransaction`, `failInTransaction`
  Identifiers and tokens the store draws are arguments here, the clock is a
  text, and a lease is a number of microseconds, as the `timedelta` it becomes.
-/

namespace QuantumEntanglement.Attempts

open Transaction PyText IsoTime Sha256

variable (py : PyVersion)

/-! ## Statements -/

/-- An UPDATE of the jobs that returns its row count. -/
def updateJobs (p : Db → JobRow → Bool) (f : JobRow → JobRow) : DbTxn Nat := do
  let count ← Txn.query (fun db => db.jobs.countP (p db))
  Txn.update (fun db => { db with jobs := updateWhere (p db) f db.jobs })
  pure count

/-- An UPDATE of the attempts that returns its row count. -/
def updateAttempts (p : AttemptRow → Bool) (f : AttemptRow → AttemptRow) : DbTxn Nat := do
  let count ← Txn.query (fun db => db.attempts.countP p)
  Txn.update (fun db => { db with attempts := updateWhere p f db.attempts })
  pure count

/-- The row of an invocation: the primary key. -/
def findJob (rows : List JobRow) (invocationId : String) : Option JobRow :=
  rows.find? (fun r => r.invocationId = invocationId)

/-! ## Enqueueing -/

/-- A row that shares one of the three identities of a request. -/
def sharesIdentity {py : PyVersion} (spec : InvocationJobSpec py) (row : JobRow) : Bool :=
  row.invocationId = spec.invocationId ||
    (row.sessionId = spec.sessionId && row.taskId = spec.taskId) ||
    (row.sessionId = spec.sessionId && row.idempotencyKey = spec.idempotencyKey)

/-- `_existing_matches`. -/
def existingMatches (row : JobRow) (spec : InvocationJobSpec py) : Except StoreError Bool := do
  let existing ← rowToJob py row
  let requested ← spec.requestedAvailableAt
  .ok (existing.sessionId = spec.sessionId && existing.planId = spec.planId &&
    existing.taskId = spec.taskId && existing.agentId = spec.agentId &&
    existing.idempotencyKey = spec.idempotencyKey && existing.payloadDigest = spec.payloadDigest &&
    existing.priority = spec.priority && existing.maxAttempts = spec.maxAttempts &&
    existing.requestedAvailableAt = requested)

/-- The row a request is inserted as. -/
def queuedRow {py : PyVersion} (spec : InvocationJobSpec py) (requested : Option String)
    (availableAt now : String) : JobRow :=
  { invocationId := spec.invocationId
    sessionId := spec.sessionId
    planId := spec.planId
    taskId := spec.taskId
    agentId := spec.agentId
    idempotencyKey := spec.idempotencyKey
    payloadDigest := spec.payloadDigest
    priority := spec.priority
    status := .queued
    maxAttempts := spec.maxAttempts
    attemptsStarted := 0
    leaseEpoch := 0
    requestedAvailableAt := requested
    availableAt := availableAt
    createdAt := now
    updatedAt := now
    leaseOwner := none
    leaseTokenDigest := none
    leaseExpiresAt := none
    heartbeatAt := none
    resultRef := none
    lastError := none
    finishedAt := none }

def boundDifferently : StoreError :=
  ⟨.invocationConflict, "invocation identity or idempotency key is already bound to different work"⟩

/-- `_enqueue_invocation_job_in_transaction`. -/
def enqueueInTransaction (spec : InvocationJobSpec py) (now : String) : DbTxn JobRow := do
  let normalizedNow ← Txn.lift (normalizeTimestamp py now "now")
  let availableAt ← Txn.lift (normalizeTimestamp py (spec.availableAt.getD normalizedNow)
    "available_at")
  match ← Txn.query (fun db => db.jobs.filter (sharesIdentity spec)) with
  | [] =>
    let requested ← Txn.lift spec.requestedAvailableAt
    Txn.update (fun db => { db with
      jobs := db.jobs ++ [queuedRow spec requested availableAt normalizedNow] })
    match ← Txn.query (fun db => findJob db.jobs spec.invocationId) with
    | none => Txn.raise ⟨.runtimeError, "enqueued invocation disappeared"⟩
    | some row => Txn.lift (rowToJob py row)
  | [row] =>
    let same ← Txn.lift (existingMatches py row spec)
    if same then Txn.lift (rowToJob py row) else Txn.raise boundDifferently
  | _ => Txn.raise boundDifferently

/-- `enqueue`. -/
def enqueue (spec : InvocationJobSpec py) (clock : String) : DbTxn JobRow :=
  Txn.atomically do
    let now ← Txn.lift (normalizeTimestamp py clock "clock")
    enqueueInTransaction py spec now

/-! ## Claiming -/

/-- `ORDER BY priority DESC, available_at, created_at, invocation_id`. -/
def claimsBefore (a b : JobRow) : Bool :=
  if a.priority ≠ b.priority then b.priority < a.priority
  else if a.availableAt ≠ b.availableAt then a.availableAt < b.availableAt
  else if a.createdAt ≠ b.createdAt then a.createdAt < b.createdAt
  else !decide (b.invocationId < a.invocationId)

/-- The first row in claim order. -/
def firstToClaim (rows : List JobRow) : Option JobRow :=
  (rows.insertionSort (fun a b => claimsBefore a b = true)).head?

/-- A queued job that was never started and is due. -/
def isFirstClaim (now : String) (invocationId : Option String) (row : JobRow) : Bool :=
  row.status = .queued && row.attemptsStarted = 0 && !decide (now < row.availableAt) &&
    (match invocationId with
      | none => true
      | some i => row.invocationId = i)

/-- A row nothing was written into since it was enqueued. -/
def isUntouched (row : JobRow) : Bool :=
  row.leaseEpoch = 0 && row.resultRef.isNone && row.lastError.isNone

/-- `_required` of an identity that may be left out. -/
def requiredOptional (value : Option String) (name : String) : Except StoreError (Option String) :=
  match value with
  | none => .ok none
  | some v => (required v name maxIdentityBytes).map some

/-- `_require_non_regressing_clock`. -/
def requireNonRegressingClock (now : String) (durableTimes : List String) : DbTxn Unit :=
  Txn.ensure (∀ t ∈ durableTimes, ¬now < t)
    ⟨.clockRegression, "invocation store clock precedes durable invocation activity"⟩

/-- `_select_first_claim_candidate_in_transaction`. -/
def selectFirstClaim (workerId : String) (invocationId : Option String) (now : String) :
    DbTxn (Option JobRow) := do
  let _ ← Txn.lift (required workerId "worker_id" maxIdentityBytes)
  let invocationId ← Txn.lift (requiredOptional invocationId "invocation_id")
  let now ← Txn.lift (normalizeTimestamp py now "now")
  match ← Txn.query (fun db => firstToClaim (db.jobs.filter (isFirstClaim now invocationId))) with
  | none => pure none
  | some row =>
    let candidate ← Txn.lift (rowToJob py row)
    let started ← Txn.query (fun db =>
      db.attempts.any (fun a => a.invocationId = candidate.invocationId))
    Txn.ensure (started = false)
      ⟨.invocationIntegrity, "first-claim candidate has attempt history"⟩
    match ← Txn.query (fun db => firstToClaim
      (db.jobs.filter (fun r => isFirstClaim now invocationId r && isUntouched r))) with
    | none => Txn.raise ⟨.invocationIntegrity, "first-claim candidate changed after validation"⟩
    | some again =>
      let job ← Txn.lift (rowToJob py again)
      Txn.ensure (job = candidate)
        ⟨.invocationIntegrity, "first-claim candidate changed after validation"⟩
      requireNonRegressingClock now [job.createdAt, job.updatedAt]
      Txn.ensure (job.attemptsStarted + 1 ≤ job.maxAttempts)
        ⟨.runtimeError, "queued invocation exceeded max_attempts invariant"⟩
      Txn.ensure (job.leaseEpoch < maxSqliteInteger)
        ⟨.invocationIntegrity, "invocation lease epoch is exhausted"⟩
      pure (some job)

/-- What a claim writes into its job. -/
def startedJob (job : JobRow) (workerId digest expiry now : String) : JobRow :=
  { job with
    status := .running
    attemptsStarted := job.attemptsStarted + 1
    leaseEpoch := job.leaseEpoch + 1
    leaseOwner := some workerId
    leaseTokenDigest := some digest
    leaseExpiresAt := some expiry
    heartbeatAt := some now
    updatedAt := now
    finishedAt := none }

/-- The UNIQUE constraints of `invocation_attempts`, for one more row. -/
def AttemptFresh (rows : List AttemptRow) (row : AttemptRow) : Prop :=
  ∀ r ∈ rows, r.attemptId ≠ row.attemptId ∧
    ¬(r.invocationId = row.invocationId ∧ r.attemptNumber = row.attemptNumber) ∧
    ¬(r.invocationId = row.invocationId ∧ r.leaseEpoch = row.leaseEpoch)

instance (rows : List AttemptRow) (row : AttemptRow) : Decidable (AttemptFresh rows row) :=
  inferInstanceAs (Decidable (∀ r ∈ rows, _))

/-- `INSERT INTO invocation_attempts`. -/
def insertAttempt (row : AttemptRow) : DbTxn Unit := do
  let rows ← Txn.query (·.attempts)
  Txn.ensure (AttemptFresh rows row)
    ⟨.sqliteIntegrity, "UNIQUE constraint failed: invocation_attempts"⟩
  Txn.update (fun db => { db with attempts := db.attempts ++ [row] })

/-- The CAS of the first claim. -/
def isClaimTarget (invocationId : String) (db : Db) (row : JobRow) : Bool :=
  row.invocationId = invocationId && row.status = .queued && row.attemptsStarted = 0 &&
    isUntouched row && !db.attempts.any (fun a => a.invocationId = row.invocationId)

/-- The lease of a claim. -/
def leaseOf (job : JobRow) (attemptId workerId leaseToken now expiry : String) : InvocationLease :=
  { invocationId := job.invocationId
    sessionId := job.sessionId
    planId := job.planId
    taskId := job.taskId
    agentId := job.agentId
    idempotencyKey := job.idempotencyKey
    payloadDigest := job.payloadDigest
    attemptId := attemptId
    attemptNumber := job.attemptsStarted + 1
    maxAttempts := job.maxAttempts
    leaseEpoch := job.leaseEpoch + 1
    workerId := workerId
    leaseToken := leaseToken
    claimedAt := now
    leaseExpiresAt := expiry }

/-- The attempt a claim opens. -/
def openedAttempt (job : JobRow) (attemptId workerId digest now expiry : String) : AttemptRow :=
  { attemptId := attemptId
    invocationId := job.invocationId
    attemptNumber := job.attemptsStarted + 1
    leaseEpoch := job.leaseEpoch + 1
    workerId := workerId
    leaseTokenDigest := digest
    status := .running
    startedAt := now
    heartbeatAt := now
    leaseExpiresAt := expiry
    finishedAt := none
    error := none
    resultRef := none }

/-- `_claim_first_invocation_in_transaction`. -/
def claimFirst (workerId : String) (invocationId : Option String) (now deadline attemptId
    leaseToken : String) : DbTxn (Option InvocationLease) := do
  let workerId ← Txn.lift (required workerId "worker_id" maxIdentityBytes)
  let now ← Txn.lift (normalizeTimestamp py now "now")
  let deadline ← Txn.lift (normalizeTimestamp py deadline "lease deadline")
  Txn.ensure (now < deadline) ⟨.valueError, "lease deadline must be later than now"⟩
  let attemptId ← Txn.lift (required attemptId "attempt_id" maxIdentityBytes)
  let leaseToken ← Txn.lift (required leaseToken "lease_token" maxIdentityBytes)
  match ← selectFirstClaim py workerId invocationId now with
  | none => pure none
  | some job =>
    let digest := hexDigest leaseToken
    let rows ← Txn.query (·.jobs)
    Txn.ensure (∀ r ∈ rows, r.invocationId ≠ job.invocationId → r.leaseTokenDigest ≠ some digest)
      ⟨.sqliteIntegrity, "UNIQUE constraint failed: invocation_jobs.lease_token_digest"⟩
    let count ← updateJobs (isClaimTarget job.invocationId) (startedJob · workerId digest deadline now)
    Txn.ensure (count = 1)
      ⟨.invocationIntegrity, "first-claim CAS rejected contradictory state"⟩
    insertAttempt (openedAttempt job attemptId workerId digest now deadline)
    pure (some (leaseOf job attemptId workerId leaseToken now deadline))

/-! ## Recovery -/

/-- `_load_running_attempt`. -/
def loadRunningAttempt (invocationId : String) (attemptNumber leaseEpoch : Nat)
    (attemptId : Option String) : DbTxn AttemptRow := do
  let rows ← Txn.query (fun db => db.attempts.filter (fun a =>
    a.invocationId = invocationId && a.attemptNumber = attemptNumber &&
      a.leaseEpoch = leaseEpoch && a.status = .running && attemptId.all (· = a.attemptId)))
  match rows with
  | [row] => Txn.lift (rowToAttempt py row)
  | _ => Txn.raise ⟨.invocationIntegrity,
      "running invocation does not have exactly one owned attempt"⟩

/-- `_validate_running_attempt_owner`. -/
def validateRunningAttemptOwner (attempt : AttemptRow) (invocationId : String)
    (attemptNumber leaseEpoch : Nat) (workerId digest heartbeatAt leaseExpiresAt : String)
    (attemptId : Option String) : DbTxn Unit :=
  Txn.ensure (attempt.invocationId = invocationId ∧ attempt.attemptNumber = attemptNumber ∧
      attempt.leaseEpoch = leaseEpoch ∧ attempt.workerId = workerId ∧
      attempt.leaseTokenDigest = digest ∧ attempt.heartbeatAt = heartbeatAt ∧
      attempt.leaseExpiresAt = leaseExpiresAt ∧ ∀ i ∈ attemptId, attempt.attemptId = i)
    ⟨.invocationIntegrity, "running invocation and attempt ownership records disagree"⟩

/-- The columns of a lease, all set. -/
def leaseColumns (job : JobRow) : Except StoreError (String × String × String × String) :=
  match job.leaseOwner, job.leaseTokenDigest, job.heartbeatAt, job.leaseExpiresAt with
  | some owner, some digest, some heartbeat, some expiry => .ok (owner, digest, heartbeat, expiry)
  | _, _, _, _ =>
    .error ⟨.invocationIntegrity, "running invocation has incomplete lease ownership"⟩

def recoveryReason : String := "lease expired before terminal acknowledgement"

/-- The end of an expired lease: another attempt, or none left. -/
def expiredJob (job : JobRow) (now : String) : JobRow :=
  let cleared : JobRow := { job with
    updatedAt := now
    lastError := some recoveryReason
    leaseOwner := none
    leaseTokenDigest := none
    leaseExpiresAt := none
    heartbeatAt := none }
  if job.maxAttempts ≤ job.attemptsStarted then
    { cleared with status := .failed, finishedAt := some now }
  else { cleared with status := .queued, availableAt := now }

/-- A running job under an epoch. -/
def isRunningAt (invocationId : String) (leaseEpoch : Nat) (row : JobRow) : Bool :=
  row.invocationId = invocationId && row.status = .running && row.leaseEpoch = leaseEpoch

/-- One turn of the recovery's loop: the invocation, and whether it is
exhausted. -/
def recoverRow (now : String) (row : JobRow) : DbTxn (String × Bool) := do
  let job ← Txn.lift (rowToJob py row)
  let (owner, digest, heartbeat, expiry) ← Txn.lift (leaseColumns job)
  let attempt ← loadRunningAttempt py job.invocationId job.attemptsStarted job.leaseEpoch none
  validateRunningAttemptOwner attempt job.invocationId job.attemptsStarted job.leaseEpoch owner
    digest heartbeat expiry none
  let attempts ← updateAttempts
    (fun a => a.invocationId = job.invocationId && a.attemptNumber = job.attemptsStarted &&
      a.leaseEpoch = job.leaseEpoch && a.status = .running)
    (fun a => { a with
      status := .expired, finishedAt := some now, error := some recoveryReason })
  Txn.ensure (attempts = 1)
    ⟨.runtimeError, "running invocation has no matching running attempt"⟩
  let jobs ← updateJobs (fun _ => isRunningAt job.invocationId job.leaseEpoch) (expiredJob · now)
  Txn.ensure (jobs = 1)
    ⟨.runtimeError, "invocation lease changed during expiration recovery"⟩
  pure (job.invocationId, decide (job.maxAttempts ≤ job.attemptsStarted))

/-- A running job whose lease expired. -/
def isExpired (now : String) (invocationId : Option String) (row : JobRow) : Bool :=
  row.status = .running &&
    (match row.leaseExpiresAt with
      | none => false
      | some expiry => !decide (now < expiry)) &&
    invocationId.all (row.invocationId = ·)

/-- `ORDER BY lease_expires_at, invocation_id`. -/
def expiresBefore (a b : JobRow) : Bool :=
  let x := a.leaseExpiresAt.getD ""
  let y := b.leaseExpiresAt.getD ""
  if x ≠ y then x < y else !decide (b.invocationId < a.invocationId)

/-- `LIMIT ?`, where there is one. -/
def limited {α : Type} (limit : Option Nat) (rows : List α) : List α :=
  match limit with
  | none => rows
  | some n => rows.take n

/-- `_recover_expired_in_transaction`. -/
def recoverRows (now : String) (invocationId : Option String) (limit : Option Nat) :
    DbTxn (List (String × Bool)) := do
  let rows ← Txn.query (fun db => limited limit
    ((db.jobs.filter (isExpired now invocationId)).insertionSort (fun a b => expiresBefore a b = true)))
  Txn.forEach (recoverRow py now) rows

/-- What `recover_expired` accepts. -/
def checkLimit (limit : Int) : Except StoreError Unit :=
  demand (1 ≤ limit ∧ limit ≤ 1000) "limit must be between 1 and 1000"

/-- The transaction of `recover_expired`: what it recovered, and when. -/
def recoverExpiredInTransaction (limit : Int) (clock : String) :
    DbTxn (List (String × Bool) × String) := do
  let now ← Txn.lift (normalizeTimestamp py clock "clock")
  let rows ← recoverRows py now none (some limit.toNat)
  pure (rows, now)

/-- `recover_expired`. -/
def recoverExpired (limit : Int) (clock : String) : DbTxn (List (String × Bool)) := do
  Txn.lift (checkLimit limit)
  let (rows, _) ← Txn.atomically (recoverExpiredInTransaction py limit clock)
  pure rows

/-- `_claim_in_transaction`: the lease, and the recovery where it fenced
anything. -/
def claimInTransaction (workerId : String) (invocationId : Option String) (leaseMicros : Nat)
    (clock attemptSuffix leaseToken : String) :
    DbTxn (Option InvocationLease × Option (List (String × Bool) × String)) := do
  let now ← Txn.lift (normalizeTimestamp py clock "clock")
  let deadline ← Txn.lift (leaseDeadline py now leaseMicros)
  let rows ← recoverRows py now invocationId (if invocationId.isSome then none else some 1000)
  let recovery := if rows.isEmpty then none else some (rows, now)
  match ← selectFirstClaim py workerId invocationId now with
  | none => pure (none, recovery)
  | some candidate =>
    match ← claimFirst py workerId (some candidate.invocationId) now deadline
        ("attempt_" ++ attemptSuffix) leaseToken with
    | none => Txn.raise ⟨.invocationIntegrity,
        "first-claim candidate changed after identifier allocation"⟩
    | some lease =>
      Txn.ensure (lease.invocationId = candidate.invocationId ∧
          lease.sessionId = candidate.sessionId ∧ lease.planId = candidate.planId ∧
          lease.taskId = candidate.taskId ∧ lease.agentId = candidate.agentId ∧
          lease.idempotencyKey = candidate.idempotencyKey ∧
          lease.payloadDigest = candidate.payloadDigest ∧
          lease.maxAttempts = candidate.maxAttempts)
        ⟨.invocationIntegrity, "first-claim candidate changed after identifier allocation"⟩
      pure (some lease, recovery)

/-- `claim` of one invocation, and `claim_next` where none is named. -/
def claim (workerId : String) (invocationId : Option String) (leaseMicros : Nat) (clock attemptSuffix
    leaseToken : String) : DbTxn (Option InvocationLease) := do
  let workerId ← Txn.lift (required workerId "worker_id" maxIdentityBytes)
  let invocationId ← Txn.lift (requiredOptional invocationId "invocation_id")
  let (lease, _) ← Txn.atomically
    (claimInTransaction py workerId invocationId leaseMicros clock attemptSuffix leaseToken)
  pure lease

/-! ## The holder of a lease -/

/-- The counts a lease may carry. -/
def leaseCountOk (value : Nat) : Prop := 1 ≤ value ∧ value ≤ maxSqliteInteger

instance (value : Nat) : Decidable (leaseCountOk value) := inferInstanceAs (Decidable (_ ∧ _))

/-- `_require_lease`. -/
def requireLease (lease : InvocationLease) : Except StoreError Unit := do
  let _ ← required lease.invocationId "lease invocation_id" maxIdentityBytes
  let _ ← required lease.sessionId "lease session_id" maxIdentityBytes
  let _ ← required lease.planId "lease plan_id" maxIdentityBytes
  let _ ← required lease.taskId "lease task_id" maxIdentityBytes
  let _ ← required lease.agentId "lease agent_id" maxIdentityBytes
  let _ ← required lease.idempotencyKey "lease idempotency_key" maxIdentityBytes
  let _ ← required lease.attemptId "lease attempt_id" maxIdentityBytes
  let _ ← required lease.workerId "lease worker_id" maxIdentityBytes
  if ¬IsHexDigest lease.payloadDigest then
    .error ⟨.valueError, "lease payload_digest must be canonical SHA-256"⟩
  else if ¬leaseCountOk lease.attemptNumber then
    .error ⟨.valueError, "lease attempt_number is outside its supported range"⟩
  else if ¬leaseCountOk lease.maxAttempts then
    .error ⟨.valueError, "lease max_attempts is outside its supported range"⟩
  else if ¬leaseCountOk lease.leaseEpoch then
    .error ⟨.valueError, "lease lease_epoch is outside its supported range"⟩
  else
    let _ ← required lease.leaseToken "lease_token" maxIdentityBytes
    let claimedAt ← normalizeTimestamp py lease.claimedAt "lease claimed_at"
    let expiresAt ← normalizeTimestamp py lease.leaseExpiresAt "lease lease_expires_at"
    if claimedAt ≠ lease.claimedAt ∨ expiresAt ≠ lease.leaseExpiresAt then
      .error ⟨.valueError, "lease timestamps must be canonical UTC"⟩
    else if ¬claimedAt < expiresAt then
      .error ⟨.valueError, "lease expiry must follow its claim"⟩
    else .ok ()

/-- The fence: running under this worker, token and epoch, and not expired. -/
def isOwned (lease : InvocationLease) (now : String) (row : JobRow) : Bool :=
  row.invocationId = lease.invocationId && row.status = .running &&
    row.leaseOwner = some lease.workerId &&
    row.leaseTokenDigest = some (hexDigest lease.leaseToken) &&
    row.leaseEpoch = lease.leaseEpoch &&
    (match row.leaseExpiresAt with
      | none => false
      | some expiry => now < expiry)

/-- `_active_owned_row`. -/
def activeOwnedRow (lease : InvocationLease) (now : String) : DbTxn (Option JobRow) := do
  match ← Txn.query (fun db => db.jobs.find? (isOwned lease now)) with
  | none => pure none
  | some row =>
    let job ← Txn.lift (rowToJob py row)
    pure (some job)

/-- `_validate_lease_binding`. -/
def validateLeaseBinding (lease : InvocationLease) (job : JobRow) (attempt : AttemptRow) :
    DbTxn Unit :=
  Txn.ensure (lease.invocationId = job.invocationId ∧ lease.sessionId = job.sessionId ∧
      lease.planId = job.planId ∧ lease.taskId = job.taskId ∧ lease.agentId = job.agentId ∧
      lease.idempotencyKey = job.idempotencyKey ∧ lease.payloadDigest = job.payloadDigest ∧
      lease.attemptId = attempt.attemptId ∧ lease.attemptNumber = job.attemptsStarted ∧
      lease.attemptNumber = attempt.attemptNumber ∧ lease.maxAttempts = job.maxAttempts ∧
      lease.leaseEpoch = job.leaseEpoch ∧ lease.leaseEpoch = attempt.leaseEpoch ∧
      lease.workerId = attempt.workerId ∧ lease.claimedAt = attempt.startedAt)
    ⟨.invocationIntegrity, "invocation lease binding differs from durable ownership"⟩

/-- What the holder of a lease proves before it writes: its job, its attempt,
and a clock that did not go back. -/
def ownedAttempt (lease : InvocationLease) (now : String) : DbTxn (Option (JobRow × AttemptRow)) := do
  match ← activeOwnedRow py lease now with
  | none => pure none
  | some job =>
    let (_, _, heartbeat, expiry) ← Txn.lift (leaseColumns job)
    let attempt ← loadRunningAttempt py lease.invocationId job.attemptsStarted lease.leaseEpoch
      (some lease.attemptId)
    validateRunningAttemptOwner attempt lease.invocationId job.attemptsStarted lease.leaseEpoch
      lease.workerId (hexDigest lease.leaseToken) heartbeat expiry (some lease.attemptId)
    validateLeaseBinding lease job attempt
    requireNonRegressingClock now [job.updatedAt, attempt.startedAt, attempt.heartbeatAt]
    pure (some (job, attempt))

/-- The attempt of a lease, as the UPDATEs select it. -/
def isAttemptOf (lease : InvocationLease) (a : AttemptRow) : Bool :=
  a.attemptId = lease.attemptId && a.invocationId = lease.invocationId &&
    a.leaseEpoch = lease.leaseEpoch && a.status = .running

/-- Update the attempt of a lease, which must be there. -/
def updateOwnAttempt (lease : InvocationLease) (f : AttemptRow → AttemptRow) : DbTxn Unit := do
  let count ← updateAttempts (isAttemptOf lease) f
  Txn.ensure (count = 1) ⟨.runtimeError, "owned invocation has no matching running attempt"⟩

/-- `max` of two texts. -/
def laterText (a b : String) : String := if a < b then b else a

def beatenJob (job : JobRow) (now deadline : String) : JobRow :=
  { job with heartbeatAt := some now, leaseExpiresAt := some deadline, updatedAt := now }

/-- `_heartbeat_in_transaction`: the heartbeat and the deadline it wrote. -/
def heartbeatInTransaction (lease : InvocationLease) (leaseMicros : Nat) (clock : String) :
    DbTxn (Option (String × String)) := do
  let now ← Txn.lift (normalizeTimestamp py clock "clock")
  let proposed ← Txn.lift (leaseDeadline py now leaseMicros)
  match ← ownedAttempt py lease now with
  | none => pure none
  | some (job, _) =>
    let deadline := laterText (job.leaseExpiresAt.getD "") proposed
    let count ← updateJobs (fun _ => isOwned lease now) (beatenJob · now deadline)
    if count = 1 then
      updateOwnAttempt lease (fun a => { a with heartbeatAt := now, leaseExpiresAt := deadline })
      pure (some (now, deadline))
    else pure none

/-- `heartbeat`. -/
def heartbeat (lease : InvocationLease) (leaseMicros : Nat) (clock : String) : DbTxn Bool := do
  Txn.lift (requireLease py lease)
  let times ← Txn.atomically (heartbeatInTransaction py lease leaseMicros clock)
  pure times.isSome

/-- A job that ended, its lease cleared. -/
def succeededJob (job : JobRow) (resultRef : Option String) (now : String) : JobRow :=
  { job with
    status := .succeeded
    resultRef := resultRef
    updatedAt := now
    finishedAt := some now
    leaseOwner := none
    leaseTokenDigest := none
    leaseExpiresAt := none
    heartbeatAt := none }

/-- `_required` of a result reference that may be left out. -/
def requiredReference (value : Option String) : Except StoreError (Option String) :=
  match value with
  | none => .ok none
  | some v => (required v "result_ref" maxReferenceBytes).map some

/-- `_complete_in_transaction`: when the job was finished. -/
def completeInTransaction (lease : InvocationLease) (resultRef : Option String) (clock : String) :
    DbTxn (Option String) := do
  let now ← Txn.lift (normalizeTimestamp py clock "clock")
  match ← ownedAttempt py lease now with
  | none => pure none
  | some _ =>
    let count ← updateJobs (fun _ => isOwned lease now) (succeededJob · resultRef now)
    if count = 1 then
      updateOwnAttempt lease (fun a => { a with
        status := .succeeded, finishedAt := some now, resultRef := resultRef })
      pure (some now)
    else pure none

/-- `complete`. -/
def complete (lease : InvocationLease) (resultRef : Option String) (clock : String) : DbTxn Bool := do
  Txn.lift (requireLease py lease)
  let resultRef ← Txn.lift (requiredReference resultRef)
  let finishedAt ← Txn.atomically (completeInTransaction py lease resultRef clock)
  pure finishedAt.isSome

/-- `_stored_error`. -/
def storedError (error : String) : Except StoreError String := do
  let value ← required error "error" maxErrorBytes
  .ok (String.ofList ((strip value).toList.take maxErrorLength))

/-- A job whose attempt failed: queued again, or failed when no attempt is
left. -/
def failedJob (job : JobRow) (error retryAt now : String) : JobRow :=
  let cleared : JobRow := { job with
    lastError := some error
    updatedAt := now
    leaseOwner := none
    leaseTokenDigest := none
    leaseExpiresAt := none
    heartbeatAt := none }
  if job.maxAttempts ≤ job.attemptsStarted then
    { cleared with status := .failed, finishedAt := some now }
  else { cleared with status := .queued, availableAt := retryAt }

/-- `retry_at or normalized_now`: an empty text counts as left out. -/
def retryOr (retryAt : Option String) (now : String) : String :=
  match retryAt with
  | none => now
  | some text => if text = "" then now else text

/-- The status a failure leaves its job in. -/
def failureTarget (job : JobRow) : InvocationStatus :=
  if job.maxAttempts ≤ job.attemptsStarted then .failed else .queued

/-- `_fail_in_transaction`: when the attempt failed, when the job may be
retried, and its status. -/
def failInTransaction (lease : InvocationLease) (error : String) (retryAt : Option String)
    (clock : String) : DbTxn (Option (String × String × InvocationStatus)) := do
  let now ← Txn.lift (normalizeTimestamp py clock "clock")
  let retry ← Txn.lift (normalizeTimestamp py (retryOr retryAt now) "retry_at")
  let retry := laterText now retry
  match ← ownedAttempt py lease now with
  | none => pure none
  | some (job, _) =>
    updateOwnAttempt lease (fun a => { a with
      status := .failed, finishedAt := some now, error := some error })
    let count ← updateJobs (fun _ => isOwned lease now) (failedJob · error retry now)
    Txn.ensure (count = 1)
      ⟨.runtimeError, "invocation lease changed during failure CAS"⟩
    pure (some (now, retry, failureTarget job))

/-- `fail`. -/
def fail (lease : InvocationLease) (error : String) (retryAt : Option String) (clock : String) :
    DbTxn Bool := do
  Txn.lift (requireLease py lease)
  let error ← Txn.lift (storedError error)
  let outcome ← Txn.atomically (failInTransaction py lease error retryAt clock)
  pure outcome.isSome

end QuantumEntanglement.Attempts
