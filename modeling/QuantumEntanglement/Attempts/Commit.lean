import QuantumEntanglement.Attempts.Recovery
import QuantumEntanglement.Lib.FaultyConnection

/-
  Lost acknowledgements — what an operation of the attempt store reports when
  its COMMIT was not acknowledged

  A write whose COMMIT raised while no transaction is open any more may have
  been committed or not. The operation then reads back, in later transactions,
  what its own body meant to write. Other workers may have moved the rows in
  between, so the readback compares what identifies the operation: the lease's
  binding and token digest, its times, its status and result.

  What is proved:
    1. `prepare_exec` — the transaction of a call is the call.
    2. `leaseSnapshot_ok` — what the readback of a lease has read is in the
       tables, under the lease's own token.
    3. `recoveredCommitMatches_ok` — a recovery read back job by job, whatever
       others did between the reads, is present in the tables at the end.
    4. `commit_reconciled` — an operation whose COMMIT was not acknowledged
       reports its effect only where it is present.

  Correspondence (Python ↔ Lean), of `attempts.SQLiteInvocationAttemptStore`:
    `_transaction`, `_start_write_transaction`,
    `_finish_write_transaction`           ↔ `writeTransaction`
    the commit cells of the callers       ↔ `Expected`
  Interrupts are failures of the call they strike. `Readback` says what other
  workers commit before each read, and which reads raise.
-/

namespace QuantumEntanglement.Attempts

open Transaction TransitionSystem FaultyConnection IsoTime Sha256

/-! ## The write transaction -/

/-- A store instance: its connection, and whether it is quarantined. -/
structure Instance where
  connection : Connection Db
  poisoned : Bool

/-- How a write transaction raises. -/
inductive WriteFailure (α : Type) where
  /-- `InvocationStorePoisonedError`. -/
  | poisoned
  /-- `InvocationTransactionError`. -/
  | rolledBack
  /-- `_CommitOutcomeUnknown`, with what the body left where it may be
  reconciled. -/
  | unknown (left : Option α)
  /-- A validation error of the body. -/
  | body (error : StoreError)

/-- `_safe_transaction_body_error`. -/
def isSafeBodyError (e : StoreError) : Bool :=
  e.kind = .clockRegression || e.kind = .invocationConflict || e.kind = .invocationIntegrity ||
    e.kind = .typeError || e.kind = .valueError

variable {α : Type}

/-- What becomes of a BEGIN or COMMIT that raised: `settled` where no
transaction is open, and a ROLLBACK where one is. -/
def settle (faults : Faults) (settled : WriteFailure α) (c : Connection Db) :
    WriteFailure α × Instance :=
  match c.inTransaction faults.probe with
  | none => (.unknown none, ⟨c, true⟩)
  | some false => (settled, ⟨c, false⟩)
  | some true =>
    match c.rollback faults.rollback with
    | (true, c') => (.rolledBack, ⟨c', false⟩)
    | (false, c') => (.unknown none, ⟨c', true⟩)

/-- `_transaction`. -/
def writeTransaction (faults : Faults) (body : DbTxn α) (h : Instance) :
    Except (WriteFailure α) α × Instance :=
  if h.poisoned then (.error .poisoned, h)
  else
    match h.connection.begin faults.begin with
    | (false, c) =>
      let (failure, h') := settle faults .rolledBack c
      (.error failure, h')
    | (true, c) =>
      match c.body body faults.drops with
      | (.error e, c') =>
        match c'.rollback faults.rollback with
        | (false, c'') => (.error (.unknown none), ⟨c'', true⟩)
        | (true, c'') =>
          (.error (if isSafeBodyError e then .body e else .rolledBack), ⟨c'', false⟩)
      | (.ok a, c') =>
        match c'.commit faults.commit with
        | (true, c'') => (.ok a, ⟨c'', false⟩)
        | (false, c'') =>
          let (failure, h') := settle faults (.unknown (some a)) c''
          (.error failure, h')

/-! ## What a body means to write -/

variable (py : PyVersion)

/-- What the readback must find. -/
inductive Expected where
  | nothing
  | enqueued (spec : InvocationJobSpec py)
  | claimed (lease : InvocationLease)
  | recovered (rows : List (String × Bool)) (recoveredAt : String)
  | beaten (lease : InvocationLease) (heartbeatAt deadline : String)
  | completed (lease : InvocationLease) (resultRef : Option String) (finishedAt : String)
  | failed (lease : InvocationLease) (error finishedAt retryAt : String)
      (status : InvocationStatus)

variable {py}

/-- What a claim leaves to be read back. -/
def claimExpected : Option InvocationLease → Option (List (String × Bool) × String) → Expected py
  | some lease, _ => .claimed lease
  | none, some (rows, recoveredAt) => .recovered rows recoveredAt
  | none, none => .nothing

/-- What a recovery leaves to be read back. -/
def recoverExpected (rows : List (String × Bool)) (recoveredAt : String) : Expected py :=
  if rows.isEmpty then .nothing else .recovered rows recoveredAt

/-- What a call checks before BEGIN, and the body of its transaction. -/
def AttemptCall.prepare : AttemptCall py → Except StoreError (DbTxn (AttemptReply × Expected py))
  | .enqueue spec clock => .ok do
    let now ← Txn.lift (normalizeTimestamp py clock "clock")
    let job ← enqueueInTransaction py spec now
    pure (.job job, .enqueued spec)
  | .claim workerId invocationId micros clock suffix token => do
    let workerId ← required workerId "worker_id" maxIdentityBytes
    let invocationId ← requiredOptional invocationId "invocation_id"
    .ok do
      let (lease, recovery) ← claimInTransaction py workerId invocationId micros clock suffix token
      pure (.lease lease, claimExpected lease recovery)
  | .heartbeat lease micros clock => do
    requireLease py lease
    .ok do
      let times ← heartbeatInTransaction py lease micros clock
      pure (.held times.isSome, match times with
        | none => .nothing
        | some (heartbeatAt, deadline) => .beaten lease heartbeatAt deadline)
  | .complete lease resultRef clock => do
    requireLease py lease
    let resultRef ← requiredReference resultRef
    .ok do
      let finished ← completeInTransaction py lease resultRef clock
      pure (.held finished.isSome, match finished with
        | none => .nothing
        | some finishedAt => .completed lease resultRef finishedAt)
  | .fail lease error retryAt clock => do
    requireLease py lease
    let error ← storedError error
    .ok do
      let outcome ← failInTransaction py lease error retryAt clock
      pure (.held outcome.isSome, match outcome with
        | none => .nothing
        | some (finishedAt, retry, status) => .failed lease error finishedAt retry status)
  | .recoverExpired limit clock => do
    checkLimit limit
    .ok do
      let (rows, recoveredAt) ← recoverExpiredInTransaction py limit clock
      pure (.recovered rows, recoverExpected rows recoveredAt)

/-! ## Reading back -/

/-- What other workers commit before each read, and which reads raise. -/
structure Readback (py : PyVersion) where
  others : Nat → List (AttemptCall py)
  raises : Nat → Bool

/-- The state the `n`-th read sees. -/
def Readback.before (readback : Readback py) (n : Nat) (db : Db) : Db :=
  stateAfter (readback.others n) db

/-- `_reconcile_enqueued_job`. -/
def reconcileEnqueuedJob (spec : InvocationJobSpec py) (db : Db) :
    Except StoreError (Option JobRow) :=
  match db.jobs.filter (sharesIdentity spec) with
  | [row] => do
    let same ← existingMatches py row spec
    if same then (rowToJob py row).map some else .ok none
  | _ => .ok none

/-- The fields `_validate_lease_binding` compares. -/
instance (lease : InvocationLease) (job : JobRow) (attempt : AttemptRow) :
    Decidable (Binds lease job attempt) := by
  unfold Binds
  infer_instance

/-- `_lease_snapshot`. -/
def leaseSnapshot (py : PyVersion) (lease : InvocationLease) (db : Db) :
    Except StoreError (Option (JobRow × AttemptRow)) := do
  let snapshot ← (recoverySnapshotForTask py lease.sessionId lease.taskId db).1
  match snapshot.job, snapshot.currentAttempt with
  | some job, some attempt =>
    if ¬Binds lease job attempt then .ok none
    else if attempt.leaseTokenDigest ≠ hexDigest lease.leaseToken then .ok none
    else .ok (some (job, attempt))
  | _, _ => .ok none

/-- The lease whose effect is read back. -/
def Expected.lease? : Expected py → Option InvocationLease
  | .claimed lease | .beaten lease .. | .completed lease .. | .failed lease .. => some lease
  | .nothing | .enqueued _ | .recovered .. => none

/-- What the callers compare with the rows they read back. -/
def Expected.Agrees : Expected py → JobRow → AttemptRow → Prop
  | .claimed lease, job, a =>
    job.status = .running ∧ a.status = .running ∧ job.leaseOwner = some lease.workerId ∧
      job.heartbeatAt = some lease.claimedAt ∧ a.heartbeatAt = lease.claimedAt ∧
      job.updatedAt = lease.claimedAt ∧ job.leaseExpiresAt = some lease.leaseExpiresAt ∧
      a.leaseExpiresAt = lease.leaseExpiresAt
  | .beaten _ heartbeatAt deadline, job, a =>
    job.status = .running ∧ a.status = .running ∧ job.heartbeatAt = some heartbeatAt ∧
      a.heartbeatAt = heartbeatAt ∧ job.updatedAt = heartbeatAt ∧
      job.leaseExpiresAt = some deadline ∧ a.leaseExpiresAt = deadline
  | .completed _ resultRef finishedAt, job, a =>
    job.status = .succeeded ∧ a.status = .succeeded ∧ job.resultRef = resultRef ∧
      a.resultRef = resultRef ∧ job.updatedAt = finishedAt ∧ job.finishedAt = some finishedAt ∧
      a.finishedAt = some finishedAt
  | .failed _ error finishedAt retryAt status, job, a =>
    job.status = status ∧ a.status = .failed ∧ job.lastError = some error ∧ a.error = some error ∧
      job.updatedAt = finishedAt ∧ a.finishedAt = some finishedAt ∧
      (status = .queued → job.availableAt = retryAt ∧ job.finishedAt = none) ∧
      (status = .failed → job.finishedAt = some finishedAt)
  | .nothing, _, _ | .enqueued _, _, _ | .recovered .., _, _ => False

instance (expected : Expected py) (job : JobRow) (a : AttemptRow) :
    Decidable (expected.Agrees job a) := by
  cases expected <;> unfold Expected.Agrees <;> infer_instance

/-- `get`. -/
def getJob (py : PyVersion) (invocationId : String) (db : Db) : Except StoreError (Option JobRow) := do
  let invocationId ← required invocationId "invocation_id" maxIdentityBytes
  match findJob db.jobs invocationId with
  | none => .ok none
  | some row => (rowToJob py row).map some

/-- `attempts`. -/
def attemptsOf (py : PyVersion) (invocationId : String) (db : Db) :
    Except StoreError (List AttemptRow) := do
  let invocationId ← required invocationId "invocation_id" maxIdentityBytes
  ((db.attempts.filter (fun a => a.invocationId = invocationId)).insertionSort
    (fun a b => a.attemptNumber ≤ b.attemptNumber)).mapM (rowToAttempt py)

/-- What `_recovered_commit_matches` compares for one job. -/
def RecoveredRow (exhausted : Bool) (recoveredAt : String) (job : JobRow) (a : AttemptRow) : Prop :=
  a.attemptNumber = job.attemptsStarted ∧ a.leaseEpoch = job.leaseEpoch ∧ a.status = .expired ∧
    a.finishedAt = some recoveredAt ∧ a.error = some recoveryReason ∧
    job.updatedAt = recoveredAt ∧ job.lastError = some recoveryReason ∧
    if exhausted then job.status = .failed ∧ job.finishedAt = some recoveredAt
    else job.status = .queued ∧ job.availableAt = recoveredAt ∧ job.finishedAt = none

instance (exhausted : Bool) (recoveredAt : String) (job : JobRow) (a : AttemptRow) :
    Decidable (RecoveredRow exhausted recoveredAt job a) := by
  unfold RecoveredRow
  infer_instance

/-- `_recovered_commit_matches`, from the `n`-th read on: two reads for each
job. -/
def recoveredCommitMatches (readback : Readback py) (recoveredAt : String) :
    Nat → List (String × Bool) → Db → Bool × Db
  | _, [], db => (true, db)
  | n, (invocationId, exhausted) :: rest, db =>
    let db₁ := readback.before n db
    let db₂ := readback.before (n + 1) db₁
    match getJob py invocationId db₁, attemptsOf py invocationId db₂ with
    | .ok (some job), .ok attempts =>
      match attempts.getLast? with
      | none => (false, db₂)
      | some a =>
        if readback.raises n || readback.raises (n + 1) then (false, db₂)
        else if RecoveredRow exhausted recoveredAt job a then
          recoveredCommitMatches readback recoveredAt (n + 2) rest db₂
        else (false, db₂)
    | _, _ => (false, db₂)

def commitAmbiguous : StoreError :=
  ⟨.invocationAmbiguity, "invocation mutation commit could not be reconciled"⟩

def transactionFailed : StoreError :=
  ⟨.invocationTransaction, "invocation mutation transaction was rolled back"⟩

def storePoisoned : StoreError :=
  ⟨.invocationPoisoned, "invocation attempt store is poisoned and must be reopened"⟩

/-- The handler of an unknown COMMIT: what the call answers after its
readback. -/
def reconcile (readback : Readback py) (reply : AttemptReply) (db : Db) :
    Expected py → AttemptReply × Db
  | .nothing => (reply, db)
  | .enqueued spec =>
    let db := readback.before 0 db
    match readback.raises 0, reconcileEnqueuedJob spec db with
    | false, .ok (some job) => (.job job, db)
    | _, _ => (.raised commitAmbiguous, db)
  | .recovered rows recoveredAt =>
    let ordered := rows.filter (fun r => !r.2) ++ rows.filter (fun r => r.2)
    let (same, db) := recoveredCommitMatches readback recoveredAt 0 ordered db
    if same then (reply, db) else (.raised commitAmbiguous, db)
  | expected@(.claimed lease) | expected@(.beaten lease ..) | expected@(.completed lease ..)
  | expected@(.failed lease ..) =>
    let db := readback.before 0 db
    match readback.raises 0, leaseSnapshot py lease db with
    | false, .ok (some (job, a)) =>
      if expected.Agrees job a then (reply, db) else (.raised commitAmbiguous, db)
    | _, _ => (.raised commitAmbiguous, db)

/-- A call whose transaction may fail. -/
def AttemptCall.execFaulty (faults : Faults) (readback : Readback py) (call : AttemptCall py)
    (h : Instance) : AttemptReply × Instance :=
  match call.prepare with
  | .error e => (.raised e, h)
  | .ok body =>
    match writeTransaction faults body h with
    | (.ok (reply, _), h') => (reply, h')
    | (.error .poisoned, h') => (.raised storePoisoned, h')
    | (.error .rolledBack, h') => (.raised transactionFailed, h')
    | (.error (.body e), h') => (.raised e, h')
    | (.error (.unknown none), h') => (.raised commitAmbiguous, h')
    | (.error (.unknown (some (reply, expected))), h') =>
      let (reply', db) := reconcile readback reply h'.connection.durable expected
      (reply', ⟨⟨db, h'.connection.work⟩, h'.poisoned⟩)

/-! ## The transaction of a call is the call -/

theorem except_ok_inj {β : Type} {a b : β} (h : (Except.ok a : Except StoreError β) = .ok b) : a = b := by
  rwa [Except.ok.injEq] at h

/-- **The transaction of a call is the call**, and ends with an answer. -/
theorem prepare_exec {call : AttemptCall py} {body : DbTxn (AttemptReply × Expected py)}
    {reply : AttemptReply} {expected : Expected py} {db s : Db} (hprepare : call.prepare = .ok body)
    (hbody : body db = (.ok (reply, expected), s)) :
    call.exec db = (reply, s) ∧ ∀ e, reply ≠ .raised e := by
  cases call with
  | enqueue spec clock =>
    obtain rfl := except_ok_inj hprepare
    simp only [Txn.bind_ok, Txn.lift_ok, Txn.pure_ok, Prod.mk.injEq] at hbody
    obtain ⟨now, _, ⟨hnow, rfl⟩, job, s₁, hjob, ⟨rfl, rfl⟩, rfl⟩ := hbody
    have hrun : Attempts.enqueue py spec clock db = (.ok job, s₁) := by
      simp only [Attempts.enqueue, Txn.atomically_ok, Txn.bind_ok, Txn.lift_ok]
      exact ⟨now, db, ⟨hnow, rfl⟩, hjob⟩
    exact ⟨by simp [AttemptCall.exec, hrun, answer], by simp⟩
  | claim workerId invocationId micros clock suffix token =>
    simp only [AttemptCall.prepare, except_bind_ok] at hprepare
    obtain ⟨worker, hworker, named, hnamed, hprepare⟩ := hprepare
    obtain rfl := except_ok_inj hprepare
    simp only [Txn.bind_ok, Txn.pure_ok, Prod.mk.injEq] at hbody
    obtain ⟨⟨lease, recovery⟩, s₁, hclaim, ⟨rfl, -⟩, rfl⟩ := hbody
    have hrun : Attempts.claim py workerId invocationId micros clock suffix token db =
        (.ok lease, s₁) := by
      simp only [Attempts.claim, Txn.atomically_ok, Txn.bind_ok, Txn.lift_ok]
      exact ⟨worker, db, ⟨hworker, rfl⟩, named, db, ⟨hnamed, rfl⟩, _, s₁, hclaim, rfl⟩
    exact ⟨by simp [AttemptCall.exec, hrun, answer], by simp⟩
  | heartbeat lease micros clock =>
    simp only [AttemptCall.prepare, except_bind_ok] at hprepare
    obtain ⟨_, hlease, hprepare⟩ := hprepare
    obtain rfl := except_ok_inj hprepare
    simp only [Txn.bind_ok, Txn.pure_ok, Prod.mk.injEq] at hbody
    obtain ⟨times, s₁, htimes, ⟨rfl, -⟩, rfl⟩ := hbody
    have hrun : Attempts.heartbeat py lease micros clock db = (.ok times.isSome, s₁) := by
      simp only [Attempts.heartbeat, Txn.atomically_ok, Txn.bind_ok, Txn.lift_ok]
      exact ⟨(), db, ⟨hlease, rfl⟩, times, s₁, htimes, rfl⟩
    exact ⟨by simp [AttemptCall.exec, hrun, answer], by simp⟩
  | complete lease resultRef clock =>
    simp only [AttemptCall.prepare, except_bind_ok] at hprepare
    obtain ⟨_, hlease, stored, hstored, hprepare⟩ := hprepare
    obtain rfl := except_ok_inj hprepare
    simp only [Txn.bind_ok, Txn.pure_ok, Prod.mk.injEq] at hbody
    obtain ⟨finished, s₁, hfinished, ⟨rfl, -⟩, rfl⟩ := hbody
    have hrun : Attempts.complete py lease resultRef clock db = (.ok finished.isSome, s₁) := by
      simp only [Attempts.complete, Txn.atomically_ok, Txn.bind_ok, Txn.lift_ok]
      exact ⟨(), db, ⟨hlease, rfl⟩, stored, db, ⟨hstored, rfl⟩, finished, s₁, hfinished, rfl⟩
    exact ⟨by simp [AttemptCall.exec, hrun, answer], by simp⟩
  | fail lease error retryAt clock =>
    simp only [AttemptCall.prepare, except_bind_ok] at hprepare
    obtain ⟨_, hlease, stored, hstored, hprepare⟩ := hprepare
    obtain rfl := except_ok_inj hprepare
    simp only [Txn.bind_ok, Txn.pure_ok, Prod.mk.injEq] at hbody
    obtain ⟨outcome, s₁, houtcome, ⟨rfl, -⟩, rfl⟩ := hbody
    have hrun : Attempts.fail py lease error retryAt clock db = (.ok outcome.isSome, s₁) := by
      simp only [Attempts.fail, Txn.atomically_ok, Txn.bind_ok, Txn.lift_ok]
      exact ⟨(), db, ⟨hlease, rfl⟩, stored, db, ⟨hstored, rfl⟩, outcome, s₁, houtcome, rfl⟩
    exact ⟨by simp [AttemptCall.exec, hrun, answer], by simp⟩
  | recoverExpired limit clock =>
    simp only [AttemptCall.prepare, except_bind_ok] at hprepare
    obtain ⟨_, hlimit, hprepare⟩ := hprepare
    obtain rfl := except_ok_inj hprepare
    simp only [Txn.bind_ok, Txn.pure_ok, Prod.mk.injEq] at hbody
    obtain ⟨⟨rows, recoveredAt⟩, s₁, hrows, ⟨rfl, -⟩, rfl⟩ := hbody
    have hrun : Attempts.recoverExpired py limit clock db = (.ok rows, s₁) := by
      simp only [Attempts.recoverExpired, Txn.atomically_ok, Txn.bind_ok, Txn.lift_ok]
      exact ⟨(), db, ⟨hlimit, rfl⟩, _, s₁, hrows, rfl⟩
    exact ⟨by simp [AttemptCall.exec, hrun, answer], by simp⟩

/-- A body that leaves nothing to be read back wrote nothing. -/
theorem prepare_nothing {call : AttemptCall py} {body : DbTxn (AttemptReply × Expected py)}
    {reply : AttemptReply} {db s : Db} (hinv : TablesInv py db) (hprepare : call.prepare = .ok body)
    (hbody : body db = (.ok (reply, .nothing), s)) : s = db := by
  cases call with
  | enqueue spec clock =>
    obtain rfl := except_ok_inj hprepare
    simp only [Txn.bind_ok, Txn.lift_ok, Txn.pure_ok, Prod.mk.injEq] at hbody
    obtain ⟨now, _, -, job, _, -, ⟨-, hnothing⟩, -⟩ := hbody
    simp at hnothing
  | claim workerId invocationId micros clock suffix token =>
    simp only [AttemptCall.prepare, except_bind_ok] at hprepare
    obtain ⟨worker, -, named, -, hprepare⟩ := hprepare
    obtain rfl := except_ok_inj hprepare
    simp only [Txn.bind_ok, Txn.pure_ok, Prod.mk.injEq] at hbody
    obtain ⟨⟨lease, recovery⟩, _, hclaim, ⟨-, hnothing⟩, rfl⟩ := hbody
    obtain ⟨now, rows, db₁, -, -, hrun, hnone, hcases⟩ := claimInTransaction_ok hinv hclaim
    cases lease with
    | some l => simp [claimExpected] at hnothing
    | none =>
      cases recovery with
      | some r => simp [claimExpected] at hnothing
      | none =>
        rw [hnone rfl] at hrun
        cases hrun
        rcases hcases with ⟨-, hsame⟩ | ⟨_, _, _, _, _, hlease, _⟩
        · exact hsame
        · simp at hlease
  | heartbeat lease micros clock =>
    simp only [AttemptCall.prepare, except_bind_ok] at hprepare
    obtain ⟨_, -, hprepare⟩ := hprepare
    obtain rfl := except_ok_inj hprepare
    simp only [Txn.bind_ok, Txn.pure_ok, Prod.mk.injEq] at hbody
    obtain ⟨times, _, htimes, ⟨-, hnothing⟩, rfl⟩ := hbody
    obtain ⟨_, _, -, -, ⟨-, hsame, -⟩ | ⟨_, _, rfl, -⟩⟩ := heartbeatInTransaction_ok hinv htimes
    · exact hsame
    · simp at hnothing
  | complete lease resultRef clock =>
    simp only [AttemptCall.prepare, except_bind_ok] at hprepare
    obtain ⟨_, -, stored, hstored, hprepare⟩ := hprepare
    obtain rfl := except_ok_inj hprepare
    simp only [Txn.bind_ok, Txn.pure_ok, Prod.mk.injEq] at hbody
    obtain ⟨finished, _, hfinished, ⟨-, hnothing⟩, rfl⟩ := hbody
    obtain ⟨_, -, ⟨-, hsame, -⟩ | ⟨_, _, rfl, -⟩⟩ :=
      completeInTransaction_ok hinv (requiredReference_ok hstored).1 hfinished
    · exact hsame
    · simp at hnothing
  | fail lease error retryAt clock =>
    simp only [AttemptCall.prepare, except_bind_ok] at hprepare
    obtain ⟨_, -, stored, hstored, hprepare⟩ := hprepare
    obtain rfl := except_ok_inj hprepare
    simp only [Txn.bind_ok, Txn.pure_ok, Prod.mk.injEq] at hbody
    obtain ⟨outcome, _, houtcome, ⟨-, hnothing⟩, rfl⟩ := hbody
    obtain ⟨htext, hlength⟩ := storedError_ok hstored
    obtain ⟨_, _, -, -, ⟨-, hsame, -⟩ | ⟨_, _, _, rfl, -⟩⟩ :=
      failInTransaction_ok hinv htext hlength houtcome
    · exact hsame
    · simp at hnothing
  | recoverExpired limit clock =>
    simp only [AttemptCall.prepare, except_bind_ok] at hprepare
    obtain ⟨_, -, hprepare⟩ := hprepare
    obtain rfl := except_ok_inj hprepare
    simp only [Txn.bind_ok, Txn.pure_ok, Prod.mk.injEq] at hbody
    obtain ⟨⟨out, recoveredAt⟩, _, hrows, ⟨-, hnothing⟩, rfl⟩ := hbody
    obtain ⟨-, rows, -, rfl, hrun⟩ := recoverExpiredInTransaction_ok hinv hrows
    cases rows with
    | nil =>
      cases hrun
      rfl
    | cons row rest => simp [recoverExpected] at hnothing

/-! ## What a readback has read -/

/-- What others do before a read is a run. -/
theorem Readback.before_run (readback : Readback py) (n : Nat) (db : Db) :
    Run (attemptSystem py) db (traceOf (readback.others n) db) (readback.before n db) :=
  run_calls _ db

theorem run_tablesInv {ls : List (AttemptCall py × AttemptReply)} {db db' : Db}
    (h : Run (attemptSystem py) db ls db') (hinv : TablesInv py db) : TablesInv py db' :=
  (attempt_traces h hinv).1

/-- The rows of a job that came to its end stay. -/
theorem run_settled {ls : List (AttemptCall py × AttemptReply)} {db db' : Db}
    (h : Run (attemptSystem py) db ls db') (hinv : TablesInv py db) {job : JobRow} {a : AttemptRow}
    (hjob : job ∈ db.jobs) (ha : a ∈ db.attempts) (hid : a.invocationId = job.invocationId)
    (hrunning : job.status ≠ .running) (hstarted : job.attemptsStarted ≠ 0) :
    job ∈ db'.jobs ∧ a ∈ db'.attempts := by
  obtain ⟨-, ts, hrun, -⟩ := attempt_traces h hinv
  exact shifts_settled hrun hinv hjob ha hid hrunning hstarted

/-- A lease whose rows are in the tables, under its own token. -/
def LeaseHeld (lease : InvocationLease) (db : Db) (job : JobRow) (a : AttemptRow) : Prop :=
  job ∈ db.jobs ∧ a ∈ db.attempts ∧ Binds lease job a ∧
    a.leaseTokenDigest = hexDigest lease.leaseToken ∧
    (job.status = .running → job.leaseTokenDigest = some (hexDigest lease.leaseToken))

/-- **The rows a lease's readback found are in the tables**, under the lease's
own token. -/
theorem leaseSnapshot_ok {lease : InvocationLease} {db : Db} {job : JobRow} {a : AttemptRow}
    (hinv : TablesInv py db) (h : leaseSnapshot py lease db = .ok (some (job, a))) :
    LeaseHeld lease db job a := by
  simp only [leaseSnapshot, except_bind_ok] at h
  obtain ⟨snap, hsnap, h⟩ := h
  have hread : recoverySnapshotForTask py lease.sessionId lease.taskId db =
      (.ok snap, (recoverySnapshotForTask py lease.sessionId lease.taskId db).2) := by
    rw [← hsnap]
  have htexts : TextOk maxIdentityBytes lease.sessionId ∧ TextOk maxIdentityBytes lease.taskId := by
    have hread' := hread
    simp only [recoverySnapshotForTask, Txn.bind_ok, Txn.lift_ok, required_ok] at hread'
    obtain ⟨_, _, ⟨⟨hs, -⟩, -⟩, _, _, ⟨⟨ht, -⟩, -⟩, -⟩ := hread'
    exact ⟨hs, ht⟩
  obtain ⟨snap', hsnap', his⟩ := recoverySnapshotForTask_ok hinv htexts.1 htexts.2
  rw [hsnap', Prod.mk.injEq, Except.ok.injEq] at hread
  obtain ⟨rfl, -⟩ := hread
  rcases his with ⟨rfl, -⟩ | ⟨j, hj, -, -, ⟨rfl, -⟩ | ⟨b, hb, rfl, hheld⟩⟩
  · simp at h
  · simp at h
  · simp only at h
    split at h
    · simp at h
    next hbinds =>
      split at h
      · simp at h
      next hdigest =>
        simp only [Except.ok.injEq, Option.some.injEq, Prod.mk.injEq] at h
        obtain ⟨rfl, rfl⟩ := h
        have hdigest := not_not.mp hdigest
        refine ⟨hj, hb, not_not.mp hbinds, hdigest, fun hrunning => ?_⟩
        rw [(hheld.running hrunning).2.2.1, hdigest]

/-- The rows `attempts` reads are rows of the table. -/
theorem mapM_rowToAttempt {rows out : List AttemptRow}
    (h : rows.mapM (rowToAttempt py) = .ok out) : out = rows := by
  induction rows generalizing out with
  | nil =>
    rw [List.mapM_nil] at h
    exact (except_ok_inj h).symm
  | cons row rest ih =>
    rw [List.mapM_cons] at h
    simp only [except_bind_ok, rowToAttempt_ok] at h
    obtain ⟨_, ⟨-, rfl⟩, out', hout, h⟩ := h
    rw [← except_ok_inj h, ih hout]

theorem attemptsOf_ok {invocationId : String} {db : Db} {out : List AttemptRow}
    (h : attemptsOf py invocationId db = .ok out) :
    ∀ a ∈ out, a ∈ db.attempts ∧ a.invocationId = invocationId := by
  simp only [attemptsOf, except_bind_ok, required_ok] at h
  obtain ⟨_, ⟨-, rfl⟩, h⟩ := h
  obtain rfl := mapM_rowToAttempt h
  intro a ha
  have hmem := (List.perm_insertionSort _ _).mem_iff.mp ha
  simpa using List.mem_filter.mp hmem

theorem getJob_ok {invocationId : String} {db : Db} {job : JobRow}
    (h : getJob py invocationId db = .ok (some job)) :
    job ∈ db.jobs ∧ job.invocationId = invocationId := by
  simp only [getJob, except_bind_ok, required_ok] at h
  obtain ⟨_, ⟨-, rfl⟩, h⟩ := h
  split at h
  · simp at h
  next row hrow =>
    cases hread : rowToJob py row with
    | error e => simp [hread, Except.map] at h
    | ok value =>
      obtain ⟨-, rfl⟩ := rowToJob_ok.mp hread
      simp only [hread, Except.map, Except.ok.injEq, Option.some.injEq] at h
      subst h
      exact findJob_mem hrow

/-- A recovered job with its attempt, in the tables. -/
def RecoveredIn (recoveredAt : String) (db : Db) (row : String × Bool) : Prop :=
  ∃ job ∈ db.jobs, ∃ a ∈ db.attempts, job.invocationId = row.1 ∧ a.invocationId = row.1 ∧
    RecoveredRow row.2 recoveredAt job a

/-- A recovered job stays one, whatever others do. -/
theorem RecoveredIn.kept {recoveredAt : String} {db db' : Db} {row : String × Bool}
    {ls : List (AttemptCall py × AttemptReply)} (hinv : TablesInv py db)
    (h : RecoveredIn recoveredAt db row) (hrun : Run (attemptSystem py) db ls db') :
    RecoveredIn recoveredAt db' row := by
  obtain ⟨job, hjob, a, ha, hjid, haid, hrow⟩ := h
  have hheld := hinv.attempts.held hjob ha (haid.trans hjid.symm)
  have hrunning : job.status ≠ .running := by
    obtain ⟨-, -, -, -, -, -, -, hstatus⟩ := hrow
    split at hstatus <;> simp [hstatus.1]
  have hstarted : job.attemptsStarted ≠ 0 := by
    rw [hheld.firstJob.1]
    decide
  obtain ⟨hjob', ha'⟩ := run_settled hrun hinv hjob ha hheld.same hrunning hstarted
  exact ⟨job, hjob', a, ha', hjid, haid, hrow⟩

/-- **A recovery that was read back is present at the end**, whatever others
did between the reads. -/
theorem recoveredCommitMatches_ok {readback : Readback py} {recoveredAt : String}
    (rows : List (String × Bool)) {n : Nat} {db db' : Db} (hinv : TablesInv py db)
    (h : recoveredCommitMatches readback recoveredAt n rows db = (true, db')) :
    (∃ ls, Run (attemptSystem py) db ls db') ∧ ∀ row ∈ rows, RecoveredIn recoveredAt db' row := by
  induction rows generalizing n db with
  | nil =>
    simp only [recoveredCommitMatches, Prod.mk.injEq, true_and] at h
    subst h
    exact ⟨⟨[], .done _⟩, by simp⟩
  | cons row rest ih =>
    obtain ⟨invocationId, exhausted⟩ := row
    simp only [recoveredCommitMatches] at h
    have hrun₁ := readback.before_run n db
    have hinv₁ := run_tablesInv hrun₁ hinv
    have hrun₂ := readback.before_run (n + 1) (readback.before n db)
    have hinv₂ := run_tablesInv hrun₂ hinv₁
    cases hget : getJob py invocationId (readback.before n db) with
    | error e => simp [hget] at h
    | ok found =>
    cases found with
    | none => simp [hget] at h
    | some job =>
    cases hattempts : attemptsOf py invocationId
        (readback.before (n + 1) (readback.before n db)) with
    | error e => simp [hget, hattempts] at h
    | ok attempts =>
    simp only [hget, hattempts] at h
    cases hlast : attempts.getLast? with
    | none => simp [hlast] at h
    | some a =>
    simp only [hlast] at h
    split at h
    · simp at h
    · split at h
      next hrow =>
        obtain ⟨⟨ls, hrest⟩, hall⟩ := ih hinv₂ h
        obtain ⟨hjob, hjid⟩ := getJob_ok hget
        obtain ⟨ha, haid⟩ := attemptsOf_ok hattempts a (List.mem_of_getLast? hlast)
        -- the attempt belongs to one job, so the job it was read against was started
        obtain ⟨owner, howner, hoid⟩ := hinv₂.attempts.owned a ha
        have hnumber := (hinv₂.attempts.held howner ha hoid.symm).firstAttempt.1
        have hstarted : job.attemptsStarted ≠ 0 := by
          rw [← hrow.1, hnumber]
          decide
        have hrunning : job.status ≠ .running := by
          obtain ⟨-, -, -, -, -, -, -, hstatus⟩ := hrow
          split at hstatus <;> simp [hstatus.1]
        obtain ⟨b, hb, hheld⟩ := hinv₁.attempts.started job hjob hstarted
        obtain ⟨hjob₂, -⟩ := run_settled hrun₂ hinv₁ hjob hb hheld.same hrunning hstarted
        have hhere : RecoveredIn recoveredAt (readback.before (n + 1) (readback.before n db))
            (invocationId, exhausted) := ⟨job, hjob₂, a, ha, hjid, haid, hrow⟩
        refine ⟨⟨_, hrun₁.append (hrun₂.append hrest)⟩, fun r hr => ?_⟩
        rcases List.mem_cons.mp hr with rfl | hr
        · exact hhere.kept hinv₂ hrest
        · exact hall r hr
      next => simp at h

theorem recoveredCommitMatches_run {readback : Readback py} {recoveredAt : String}
    (rows : List (String × Bool)) {n : Nat} {db db' : Db} {same : Bool}
    (h : recoveredCommitMatches readback recoveredAt n rows db = (same, db')) :
    ∃ ls, Run (attemptSystem py) db ls db' := by
  induction rows generalizing n db with
  | nil =>
    simp only [recoveredCommitMatches, Prod.mk.injEq] at h
    exact ⟨[], h.2 ▸ .done _⟩
  | cons row rest ih =>
    simp only [recoveredCommitMatches] at h
    have hrun := (readback.before_run n db).append
      (readback.before_run (n + 1) (readback.before n db))
    have hstop : ∀ {b : Bool}, (b, readback.before (n + 1) (readback.before n db)) = (same, db') →
        ∃ ls, Run (attemptSystem py) db ls db' := by
      intro b hb
      rw [Prod.mk.injEq] at hb
      exact ⟨_, hb.2 ▸ hrun⟩
    split at h
    · split at h
      · exact hstop h
      · split at h
        · exact hstop h
        · split at h
          · obtain ⟨ls, hrest⟩ := ih h
            exact ⟨_, hrun.append hrest⟩
          · exact hstop h
    · exact hstop h

/-- What an operation reports is present: the job that was asked for, every
recovered job, or the rows of its own lease as it meant to leave them. -/
def Expected.Present (expected : Expected py) (left reply : AttemptReply) (db : Db) : Prop :=
  match expected with
  | .nothing => False
  | .enqueued spec => ∃ job ∈ db.jobs, reply = .job job ∧ sharesIdentity spec job = true ∧
      existingMatches py job spec = .ok true
  | .recovered rows recoveredAt => reply = left ∧ ∀ row ∈ rows, RecoveredIn recoveredAt db row
  | .claimed lease | .beaten lease .. | .completed lease .. | .failed lease .. =>
    reply = left ∧ ∃ job a, LeaseHeld lease db job a ∧ expected.Agrees job a

theorem reconcileEnqueuedJob_ok {spec : InvocationJobSpec py} {db : Db} {job : JobRow}
    (h : reconcileEnqueuedJob spec db = .ok (some job)) :
    job ∈ db.jobs ∧ sharesIdentity spec job = true ∧ existingMatches py job spec = .ok true := by
  unfold reconcileEnqueuedJob at h
  split at h
  next row hrows =>
    simp only [except_bind_ok] at h
    obtain ⟨same, hsame, h⟩ := h
    split at h
    next htrue =>
      cases hread : rowToJob py row with
      | error e => simp [hread, Except.map] at h
      | ok value =>
        obtain ⟨-, rfl⟩ := rowToJob_ok.mp hread
        simp only [hread, Except.map, Except.ok.injEq, Option.some.injEq] at h
        subst h
        have hmem : value ∈ db.jobs.filter (sharesIdentity spec) := by
          rw [hrows]
          exact List.mem_singleton.mpr rfl
        obtain ⟨hjob, hshares⟩ := List.mem_filter.mp hmem
        exact ⟨hjob, hshares, by rw [hsame, htrue]⟩
    next => simp at h
  next => simp at h

/-- **A readback reports an effect only where it is present**, the ambiguity
otherwise, and the body's own answer where there was nothing to read. -/
theorem reconcile_ok {readback : Readback py} {left reply : AttemptReply} {db db' : Db}
    {expected : Expected py} (hinv : TablesInv py db)
    (h : reconcile readback left db expected = (reply, db')) :
    (∃ ls, Run (attemptSystem py) db ls db') ∧
      (reply = .raised commitAmbiguous ∨ (expected = .nothing ∧ reply = left ∧ db' = db) ∨
        expected.Present left reply db') := by
  have hbefore := readback.before_run 0 db
  have hinv₀ := run_tablesInv hbefore hinv
  have hlease : ∀ {lease : InvocationLease} {e : Expected py}, e.lease? = some lease →
      (match readback.raises 0, leaseSnapshot py lease (readback.before 0 db) with
        | false, .ok (some (job, a)) =>
          if e.Agrees job a then (left, readback.before 0 db)
          else (.raised commitAmbiguous, readback.before 0 db)
        | _, _ => (.raised commitAmbiguous, readback.before 0 db)) = (reply, db') →
      db' = readback.before 0 db ∧ (reply = .raised commitAmbiguous ∨
        (reply = left ∧ ∃ job a, LeaseHeld lease db' job a ∧ e.Agrees job a)) := by
    intro lease e _ hmatch
    split at hmatch
    next job a hraises hsnap =>
      split at hmatch <;> simp only [Prod.mk.injEq] at hmatch <;> obtain ⟨rfl, rfl⟩ := hmatch
      next hagrees => exact ⟨rfl, .inr ⟨rfl, job, a, leaseSnapshot_ok hinv₀ hsnap, hagrees⟩⟩
      next => exact ⟨rfl, .inl rfl⟩
    next =>
      simp only [Prod.mk.injEq] at hmatch
      exact ⟨hmatch.2.symm, .inl hmatch.1.symm⟩
  cases expected with
  | nothing =>
    simp only [reconcile, Prod.mk.injEq] at h
    obtain ⟨rfl, rfl⟩ := h
    exact ⟨⟨[], .done _⟩, .inr (.inl ⟨rfl, rfl, rfl⟩)⟩
  | enqueued spec =>
    simp only [reconcile] at h
    split at h
    next job hraises hjob =>
      simp only [Prod.mk.injEq] at h
      obtain ⟨rfl, rfl⟩ := h
      obtain ⟨hmem, hshares, hmatches⟩ := reconcileEnqueuedJob_ok hjob
      exact ⟨⟨_, hbefore⟩, .inr (.inr ⟨job, hmem, rfl, hshares, hmatches⟩)⟩
    next =>
      simp only [Prod.mk.injEq] at h
      obtain ⟨rfl, rfl⟩ := h
      exact ⟨⟨_, hbefore⟩, .inl rfl⟩
  | recovered rows recoveredAt =>
    simp only [reconcile] at h
    rcases hmatch : recoveredCommitMatches readback recoveredAt 0
      (rows.filter (fun r => !r.2) ++ rows.filter (fun r => r.2)) db with ⟨same, s⟩
    rw [hmatch] at h
    have hrun := recoveredCommitMatches_run _ hmatch
    cases same with
    | false =>
      simp only [Bool.false_eq_true, if_false, Prod.mk.injEq] at h
      obtain ⟨rfl, rfl⟩ := h
      exact ⟨hrun, .inl rfl⟩
    | true =>
      simp only [if_true, Prod.mk.injEq] at h
      obtain ⟨rfl, rfl⟩ := h
      obtain ⟨-, hall⟩ := recoveredCommitMatches_ok _ hinv hmatch
      refine ⟨hrun, .inr (.inr ⟨rfl, fun row hrow => hall row ?_⟩)⟩
      simp only [List.mem_append, List.mem_filter, hrow, true_and]
      cases row.2 <;> simp
  | claimed lease =>
    obtain ⟨rfl, hcase⟩ := hlease (e := .claimed lease) rfl h
    exact ⟨⟨_, hbefore⟩, hcase.imp_right .inr⟩
  | beaten lease heartbeatAt deadline =>
    obtain ⟨rfl, hcase⟩ := hlease (e := .beaten lease heartbeatAt deadline) rfl h
    exact ⟨⟨_, hbefore⟩, hcase.imp_right .inr⟩
  | completed lease resultRef finishedAt =>
    obtain ⟨rfl, hcase⟩ := hlease (e := .completed lease resultRef finishedAt) rfl h
    exact ⟨⟨_, hbefore⟩, hcase.imp_right .inr⟩
  | failed lease error finishedAt retryAt status =>
    obtain ⟨rfl, hcase⟩ := hlease (e := .failed lease error finishedAt retryAt status) rfl h
    exact ⟨⟨_, hbefore⟩, hcase.imp_right .inr⟩

/-- A readback never reports a failed transaction. -/
theorem reconcile_never {readback : Readback py} {left reply : AttemptReply} {db db' : Db}
    {expected : Expected py} (h : reconcile readback left db expected = (reply, db'))
    (hleft : ∀ e, left ≠ .raised e) : reply ≠ .raised transactionFailed := by
  have hamb : AttemptReply.raised commitAmbiguous ≠ .raised transactionFailed := by
    simp [commitAmbiguous, transactionFailed]
  have hreply : reply = .raised commitAmbiguous ∨ reply = left ∨ ∃ job, reply = .job job := by
    cases expected <;> simp only [reconcile] at h <;> repeat' split at h
    all_goals
      simp only [Prod.mk.injEq] at h
      simp [← h.1]
  rcases hreply with rfl | rfl | ⟨job, rfl⟩
  · exact hamb
  · exact hleft _
  · simp

/-! ## What a transaction leaves -/

/-- An instance in use has no open transaction. -/
def Instance.Ready (h : Instance) : Prop :=
  h.poisoned = false → h.connection.work = none

theorem settle_ok {faults : Faults} {settled failure : WriteFailure α} {c : Connection Db}
    {h : Instance} (hsettle : settle faults settled c = (failure, h)) :
    h.connection.durable = c.durable ∧ h.Ready ∧
      (failure = .unknown none ∨
        (failure = settled ∧ h.connection = c ∧ c.work = none) ∨
        (failure = .rolledBack ∧ c.work.isSome = true)) := by
  unfold settle at hsettle
  cases hprobe : c.inTransaction faults.probe with
  | none =>
    simp only [hprobe, Prod.mk.injEq] at hsettle
    obtain ⟨rfl, rfl⟩ := hsettle
    exact ⟨rfl, by simp [Instance.Ready], .inl rfl⟩
  | some isOpen =>
    have htold : c.work.isSome = isOpen := by
      unfold Connection.inTransaction at hprobe
      split at hprobe
      · simpa using hprobe
      · simp at hprobe
      · simp at hprobe
    cases isOpen with
    | false =>
      simp only [hprobe, Prod.mk.injEq] at hsettle
      obtain ⟨rfl, rfl⟩ := hsettle
      have hnone : c.work = none := by simpa using htold
      exact ⟨rfl, fun _ => hnone, .inr (.inl ⟨rfl, rfl, hnone⟩)⟩
    | true =>
      have hdurable := Connection.rollback_durable faults.rollback c
      rcases hrollback : c.rollback faults.rollback with ⟨acked, c'⟩
      rw [hrollback] at hdurable
      simp only [hprobe, hrollback] at hsettle
      cases acked with
      | false =>
        simp only [Prod.mk.injEq] at hsettle
        obtain ⟨rfl, rfl⟩ := hsettle
        exact ⟨hdurable, by simp [Instance.Ready], .inl rfl⟩
      | true =>
        simp only [Prod.mk.injEq] at hsettle
        obtain ⟨rfl, rfl⟩ := hsettle
        exact ⟨hdurable, fun _ => Connection.rollback_acknowledged hrollback,
          .inr (.inr ⟨rfl, htold⟩)⟩

/-- What a write transaction leaves, by what it reports. -/
def WriteOutcome (body : DbTxn α) (h : Instance) :
    Except (WriteFailure α) α → Instance → Prop
  | .ok a, h' => body h.connection.durable = (.ok a, h'.connection.durable)
  | .error (.unknown (some a)), h' => ∃ s, body h.connection.durable = (.ok a, s) ∧
      (h'.connection.durable = h.connection.durable ∨ h'.connection.durable = s)
  | .error (.unknown none), h' => h'.connection.durable = h.connection.durable ∨
      ∃ a, body h.connection.durable = (.ok a, h'.connection.durable)
  | .error .poisoned, h' => h.poisoned = true ∧ h' = h
  | .error .rolledBack, h' | .error (.body _), h' =>
    h'.connection.durable = h.connection.durable

/-- **What a write transaction reports and leaves.** -/
theorem writeTransaction_outcome {faults : Faults} {body : DbTxn α} {h h' : Instance}
    {r : Except (WriteFailure α) α} (hready : h.Ready)
    (hrun : writeTransaction faults body h = (r, h')) : h'.Ready ∧ WriteOutcome body h r h' := by
  unfold writeTransaction at hrun
  by_cases hpoisoned : h.poisoned = true
  · simp only [hpoisoned, if_true, Prod.mk.injEq] at hrun
    obtain ⟨rfl, rfl⟩ := hrun
    exact ⟨hready, hpoisoned, rfl⟩
  have hclean : h.poisoned = false := by simpa using hpoisoned
  simp only [hclean, Bool.false_eq_true, if_false] at hrun
  have hstart := Connection.begin_durable faults.begin h.connection
  rcases hbegin : h.connection.begin faults.begin with ⟨began, c⟩
  rw [hbegin] at hrun hstart
  cases began with
  | false =>
    rcases hsettle : settle faults (.rolledBack : WriteFailure α) c with ⟨failure, i⟩
    simp only [hsettle, Prod.mk.injEq] at hrun
    obtain ⟨rfl, rfl⟩ := hrun
    obtain ⟨hdurable, hready', hcase⟩ := settle_ok hsettle
    refine ⟨hready', ?_⟩
    rcases hcase with rfl | ⟨rfl, -⟩ | ⟨rfl, -⟩
    · exact .inl (hdurable.trans hstart)
    · exact hdurable.trans hstart
    · exact hdurable.trans hstart
  | true =>
    obtain ⟨-, -, rfl⟩ := Connection.begin_acknowledged hbegin
    have hbodyd := Connection.body_durable body faults.drops
      ⟨h.connection.durable, some h.connection.durable⟩
    rcases hbody : Connection.body body faults.drops
      ⟨h.connection.durable, some h.connection.durable⟩ with ⟨result, c⟩
    rw [hbody] at hbodyd
    simp only [hbody] at hrun
    cases result with
    | error e =>
      have hdurable := Connection.rollback_durable faults.rollback c
      rcases hrollback : c.rollback faults.rollback with ⟨acked, c'⟩
      rw [hrollback] at hdurable
      simp only [hrollback] at hrun
      cases acked with
      | false =>
        simp only [Prod.mk.injEq] at hrun
        obtain ⟨rfl, rfl⟩ := hrun
        exact ⟨by simp [Instance.Ready], .inl (hdurable.trans hbodyd)⟩
      | true =>
        simp only [Prod.mk.injEq] at hrun
        obtain ⟨rfl, rfl⟩ := hrun
        refine ⟨fun _ => Connection.rollback_acknowledged hrollback, ?_⟩
        by_cases hsafe : isSafeBodyError e = true <;> simp only [hsafe, if_true] <;>
          exact hdurable.trans hbodyd
    | ok a =>
      obtain ⟨s, hs, rfl⟩ := Connection.body_ok hbody
      change body h.connection.durable = (.ok a, s) at hs
      rcases hcommit : Connection.commit faults.commit ⟨h.connection.durable, some s⟩ with ⟨acked, c⟩
      simp only [hcommit] at hrun
      cases acked with
      | true =>
        obtain ⟨s', hwork, -, rfl⟩ := Connection.commit_acknowledged hcommit
        obtain rfl : s = s' := by simpa using hwork
        simp only [Prod.mk.injEq] at hrun
        obtain ⟨rfl, rfl⟩ := hrun
        exact ⟨fun _ => rfl, hs⟩
      | false =>
        rcases hsettle : settle faults (.unknown (some a)) c with ⟨failure, i⟩
        simp only [hsettle, Prod.mk.injEq] at hrun
        obtain ⟨rfl, rfl⟩ := hrun
        obtain ⟨hdurable, hready', hcase⟩ := settle_ok hsettle
        have hmoved : i.connection.durable = h.connection.durable ∨ i.connection.durable = s := by
          rw [hdurable]
          refine (Connection.commit_durable hcommit).imp_right fun hwork => ?_
          simpa using hwork.symm
        refine ⟨hready', ?_⟩
        rcases hcase with rfl | ⟨rfl, -⟩ | ⟨rfl, hopen⟩
        · rcases hmoved with hsame | hsame
          · exact .inl hsame
          · exact .inr ⟨a, by rw [hsame]; exact hs⟩
        · exact ⟨s, hs, hmoved⟩
        · obtain ⟨-, rfl⟩ := Connection.commit_open hcommit hopen
          exact hdurable

/-- The acknowledgement of a COMMIT is lost: it raised, and no transaction is
open any more. -/
def LostAcknowledgement (faults : Faults) : Prop :=
  faults.begin = .none ∧ (faults.commit = .after ∨ faults.commit = .aborted)

/-- A transaction whose acknowledgement is lost has an unknown outcome. -/
theorem writeTransaction_lost {faults : Faults} {body : DbTxn α} {h h' : Instance}
    {r : Except (WriteFailure α) α} {a : α} {s : Db} (hready : h.Ready) (hclean : h.poisoned = false)
    (hbody : body h.connection.durable = (.ok a, s)) (hlost : LostAcknowledgement faults)
    (hrun : writeTransaction faults body h = (r, h')) :
    r = .error (.unknown (some a)) ∨ r = .error (.unknown none) := by
  obtain ⟨hbegin, hcommit⟩ := hlost
  have hstart : h.connection.begin faults.begin =
      (true, ⟨h.connection.durable, some h.connection.durable⟩) := by
    simp [Connection.begin, hready hclean, hbegin]
  have hwork : Connection.body body faults.drops
      ⟨h.connection.durable, some h.connection.durable⟩ =
      (.ok a, ⟨h.connection.durable, some s⟩) := by
    simp [Connection.body, hbody]
  have hsettled : ∀ c : Connection Db, c.work = none →
      (settle faults (.unknown (some a)) c).1 = .unknown (some a) ∨
        (settle faults (.unknown (some a)) c).1 = .unknown none := by
    intro c hc
    unfold settle
    cases hprobe : faults.probe <;> simp [Connection.inTransaction, hc]
  simp only [writeTransaction, hclean, Bool.false_eq_true, if_false, hstart, hwork] at hrun
  rcases hcommit with hcommit | hcommit <;>
    simp only [hcommit, Connection.commit, Prod.mk.injEq] at hrun <;> obtain ⟨rfl, -⟩ := hrun
  · exact (hsettled ⟨s, none⟩ rfl).imp (congrArg _) (congrArg _)
  · exact (hsettled ⟨h.connection.durable, none⟩ rfl).imp (congrArg _) (congrArg _)

/-- What a call on a faulty connection leaves was left by a run of calls. -/
theorem execFaulty_run {faults : Faults} {readback : Readback py} {call : AttemptCall py}
    {reply : AttemptReply} {h h' : Instance} (hinv : TablesInv py h.connection.durable)
    (hready : h.Ready) (hexec : call.execFaulty faults readback h = (reply, h')) :
    h'.Ready ∧ ∃ ls, Run (attemptSystem py) h.connection.durable ls h'.connection.durable := by
  unfold AttemptCall.execFaulty at hexec
  have hstay : Run (attemptSystem py) h.connection.durable [] h.connection.durable := .done _
  cases hprepare : call.prepare with
  | error e =>
    simp only [hprepare, Prod.mk.injEq] at hexec
    obtain ⟨-, rfl⟩ := hexec
    exact ⟨hready, _, hstay⟩
  | ok body =>
    rcases hwrite : writeTransaction faults body h with ⟨r, i⟩
    obtain ⟨hready', hout⟩ := writeTransaction_outcome hready hwrite
    have hstep : ∀ {left : AttemptReply × Expected py} {s : Db},
        body h.connection.durable = (.ok left, s) →
        Run (attemptSystem py) h.connection.durable [(call, left.1)] s :=
      fun hbody => .single (prepare_exec hprepare hbody).1
    simp only [hprepare, hwrite] at hexec
    cases r with
    | ok left =>
      simp only [Prod.mk.injEq] at hexec
      obtain ⟨-, rfl⟩ := hexec
      exact ⟨hready', _, hstep hout⟩
    | error failure =>
      cases failure with
      | poisoned =>
        simp only [Prod.mk.injEq] at hexec
        obtain ⟨-, rfl⟩ := hexec
        exact ⟨hready', [], hout.2 ▸ hstay⟩
      | rolledBack | body e =>
        simp only [Prod.mk.injEq] at hexec
        obtain ⟨-, rfl⟩ := hexec
        change i.connection.durable = h.connection.durable at hout
        exact ⟨hready', [], hout ▸ hstay⟩
      | unknown left =>
        cases left with
        | none =>
          simp only [Prod.mk.injEq] at hexec
          obtain ⟨-, rfl⟩ := hexec
          rcases hout with hsame | ⟨left, hbody⟩
          · exact ⟨hready', [], hsame ▸ hstay⟩
          · exact ⟨hready', _, hstep hbody⟩
        | some left =>
          obtain ⟨left, expected⟩ := left
          obtain ⟨s, hbody, hmoved⟩ := hout
          rcases hrec : reconcile readback left i.connection.durable expected with ⟨reply', db'⟩
          simp only [hrec, Prod.mk.injEq] at hexec
          obtain ⟨-, rfl⟩ := hexec
          have hfirst : ∃ ls, Run (attemptSystem py) h.connection.durable ls
              i.connection.durable := by
            rcases hmoved with hsame | hsame
            · exact ⟨[], hsame ▸ hstay⟩
            · exact ⟨_, hsame ▸ hstep hbody⟩
          obtain ⟨ls, hrun⟩ := hfirst
          obtain ⟨⟨more, hmore⟩, -⟩ := reconcile_ok (run_tablesInv hrun hinv) hrec
          exact ⟨hready', _, hrun.append hmore⟩

/-- **A lost acknowledgement is reconciled.** Take any state a run of the store
reaches, any instance in use on it, and any call whose body ended with an
answer and whose COMMIT's acknowledgement is lost, committed or not; let other
workers commit anything before each read of the readback, and let any read
raise. The call then reports its effect, and the effect is present in the
tables it ends in; or it reports the ambiguity; or its body wrote nothing, and
it reports the body's answer. A COMMIT that was refused is reported as a failed
transaction only with the tables as they were. What the call leaves was left
by a run of the store. -/
theorem commit_reconciled {ls : List (AttemptCall py × AttemptReply)} {h h' : Instance}
    (hreach : Run (attemptSystem py) Db.empty ls h.connection.durable) (hready : h.Ready)
    (hclean : h.poisoned = false) {faults : Faults} {readback : Readback py}
    {call : AttemptCall py} {reply : AttemptReply}
    (hexec : call.execFaulty faults readback h = (reply, h')) :
    (h'.Ready ∧ ∃ more, Run (attemptSystem py) h.connection.durable more h'.connection.durable) ∧
    (reply = .raised transactionFailed → h'.connection.durable = h.connection.durable) ∧
    ∀ body left expected s, call.prepare = .ok body →
      body h.connection.durable = (.ok (left, expected), s) → LostAcknowledgement faults →
      expected.Present left reply h'.connection.durable ∨
      reply = .raised commitAmbiguous ∨
      (expected = .nothing ∧ s = h.connection.durable ∧ reply = left ∧
        h'.connection.durable = h.connection.durable) := by
  have hinv : TablesInv py h.connection.durable := run_tablesInv hreach (tablesInv_empty py)
  refine ⟨execFaulty_run hinv hready hexec, ?_, ?_⟩
  · rintro rfl
    unfold AttemptCall.execFaulty at hexec
    cases hprepare : call.prepare with
    | error e =>
      simp only [hprepare, Prod.mk.injEq] at hexec
      rw [← hexec.2]
    | ok body =>
      rcases hwrite : writeTransaction faults body h with ⟨r, i⟩
      obtain ⟨-, hout⟩ := writeTransaction_outcome hready hwrite
      simp only [hprepare, hwrite] at hexec
      cases r with
      | ok left =>
        simp only [Prod.mk.injEq] at hexec
        exact absurd hexec.1 ((prepare_exec hprepare hout).2 _)
      | error failure =>
        cases failure with
        | poisoned => simp [transactionFailed, storePoisoned] at hexec
        | rolledBack | body e =>
          simp only [Prod.mk.injEq] at hexec
          rw [← hexec.2]
          exact hout
        | unknown left =>
          cases left with
          | none => simp [transactionFailed, commitAmbiguous] at hexec
          | some left =>
            obtain ⟨left, expected⟩ := left
            obtain ⟨s, hbody, -⟩ := hout
            rcases hrec : reconcile readback left i.connection.durable expected with ⟨reply', db'⟩
            simp only [hrec, Prod.mk.injEq] at hexec
            exact absurd hexec.1 (reconcile_never hrec (prepare_exec hprepare hbody).2)
  · intro body left expected s hprepare hbody hlost
    unfold AttemptCall.execFaulty at hexec
    rcases hwrite : writeTransaction faults body h with ⟨r, i⟩
    obtain ⟨-, hout⟩ := writeTransaction_outcome hready hwrite
    simp only [hprepare, hwrite] at hexec
    rcases writeTransaction_lost hready hclean hbody hlost hwrite with rfl | rfl
    · obtain ⟨s', hbody', hmoved⟩ := hout
      rw [hbody, Prod.mk.injEq] at hbody'
      obtain ⟨-, rfl⟩ := hbody'
      rcases hrec : reconcile readback left i.connection.durable expected with ⟨reply', db'⟩
      simp only [hrec, Prod.mk.injEq] at hexec
      obtain ⟨rfl, rfl⟩ := hexec
      have hinv' : TablesInv py i.connection.durable := by
        rcases hmoved with hsame | hsame
        · rw [hsame]
          exact hinv
        · rw [hsame]
          have hone : call.exec h.connection.durable = (left, s) := (prepare_exec hprepare hbody).1
          exact run_tablesInv (.single (l := (call, left)) hone) hinv
      obtain ⟨-, hamb | ⟨rfl, rfl, hsame⟩ | hpresent⟩ := reconcile_ok hinv' hrec
      · exact .inr (.inl hamb)
      · have hs := prepare_nothing hinv hprepare hbody
        refine .inr (.inr ⟨rfl, hs, rfl, ?_⟩)
        rw [hs] at hmoved
        exact hsame.trans (hmoved.elim id id)
      · exact .inl hpresent
    · simp only [Prod.mk.injEq] at hexec
      exact .inr (.inl hexec.1.symm)

/-! ## A lost acknowledgement -/

/-- The COMMIT takes effect and is not acknowledged. -/
def lostCommit : Faults := ⟨.none, .after, .none, .none, .none, false⟩

/-- Nobody else writes, and no read raises. -/
def quietReadback : Readback .py311 := ⟨fun _ => [], fun _ => false⟩

/-- An instance on an empty store. -/
def freshInstance : Instance := ⟨⟨Db.empty, none⟩, false⟩

theorem commit_reconciled_enqueue :
    ∃ reply h', (AttemptCall.enqueue sampleSpec "2024-01-01T00:00:00Z").execFaulty lostCommit
        quietReadback freshInstance = (reply, h') ∧
      (reply = .raised commitAmbiguous ∨ ∃ job ∈ h'.connection.durable.jobs, reply = .job job) := by
  obtain ⟨body, left, s, hprepare, hbody⟩ : ∃ body left s,
      (AttemptCall.enqueue sampleSpec "2024-01-01T00:00:00Z").prepare = .ok body ∧
      body Db.empty = (.ok (left, .enqueued sampleSpec), s) := by
    have hnow : normalizeTimestamp .py311 "2024-01-01T00:00:00Z" "clock" =
        .ok "2024-01-01T00:00:00.000000Z" := by decide +kernel
    have hjob : ((enqueueInTransaction .py311 sampleSpec "2024-01-01T00:00:00.000000Z") Db.empty).1.isOk
        = true := by decide +kernel
    rcases hrun : (enqueueInTransaction .py311 sampleSpec "2024-01-01T00:00:00.000000Z") Db.empty
      with ⟨r, s⟩
    rw [hrun] at hjob
    cases r with
    | error e => simp [Except.isOk, Except.toBool] at hjob
    | ok job =>
      refine ⟨_, .job job, s, rfl, ?_⟩
      simp only [Txn.bind_ok, Txn.lift_ok, Txn.pure_ok]
      exact ⟨_, _, ⟨hnow, rfl⟩, job, s, hrun, rfl, rfl⟩
  rcases hexec : (AttemptCall.enqueue sampleSpec "2024-01-01T00:00:00Z").execFaulty lostCommit
    quietReadback freshInstance with ⟨reply, h'⟩
  refine ⟨reply, h', rfl, ?_⟩
  have hreach : Run (attemptSystem .py311) Db.empty [] freshInstance.connection.durable := .done _
  have hready : freshInstance.Ready := fun _ => rfl
  have hclean : freshInstance.poisoned = false := rfl
  have hlost := (commit_reconciled hreach hready hclean hexec).2.2
  have hlostCommit : LostAcknowledgement lostCommit := ⟨rfl, .inl rfl⟩
  rcases hlost body left _ s hprepare hbody hlostCommit with hpresent | hamb | ⟨hnothing, -⟩
  · obtain ⟨job, hjob, hreply, -⟩ := hpresent
    exact .inr ⟨job, hjob, hreply⟩
  · exact .inl hamb
  · simp at hnothing

/-- The lease of nobody's job. -/
def staleLease : InvocationLease where
  invocationId := "i"
  sessionId := "s"
  planId := "p"
  taskId := "t"
  agentId := "a"
  idempotencyKey := "k"
  payloadDigest := "0000000000000000000000000000000000000000000000000000000000000000"
  attemptId := "attempt_x"
  attemptNumber := 1
  maxAttempts := 1
  leaseEpoch := 1
  workerId := "w"
  leaseToken := "token"
  claimedAt := "2024-01-01T00:00:00.000000Z"
  leaseExpiresAt := "2024-01-01T00:00:01.000000Z"

/-- A heartbeat whose acknowledgement is lost may report neither its effect nor
the ambiguity: a stale lease is answered false. -/
theorem lost_heartbeat_false :
    ¬∀ (lease : InvocationLease) (micros : Nat) (clock : String) (faults : Faults)
      (readback : Readback .py311) (reply : AttemptReply) (h' : Instance),
      LostAcknowledgement faults →
      (AttemptCall.heartbeat lease micros clock).execFaulty faults readback freshInstance =
        (reply, h') →
      reply = .raised commitAmbiguous ∨
        (reply = .held true ∧ ∃ job a, LeaseHeld lease h'.connection.durable job a) := by
  intro hall
  rcases hexec : (AttemptCall.heartbeat staleLease 1000000 "2024-01-01T00:00:00Z").execFaulty
    lostCommit quietReadback freshInstance with ⟨reply, h'⟩
  have hreply : ((AttemptCall.heartbeat staleLease 1000000 "2024-01-01T00:00:00Z").execFaulty
      lostCommit quietReadback freshInstance).1 = .held false := by decide +kernel
  rw [hexec] at hreply
  change reply = .held false at hreply
  have hcase := hall staleLease 1000000 "2024-01-01T00:00:00Z" lostCommit quietReadback reply h'
    ⟨rfl, .inl rfl⟩ hexec
  rw [hreply] at hcase
  simp at hcase

end QuantumEntanglement.Attempts
