import QuantumEntanglement.Attempts.Runs

/-
  The recovery snapshot — one task's job and attempts, read and checked

  `recoverySnapshotForTask` reads the job of a task and walks its attempts in
  order, checking each against the job and its predecessor; then
  `validateRecoverySnapshot` checks the job against its last attempt. Nothing
  is written.

  What is proved:
    1. `validateRecoverySnapshot_ok` — a started job and its attempt validate.
    2. `recoverySnapshotForTask_ok` — in a state both invariants hold in, the
       snapshot of every task is read without an error, and is its job, its
       attempt and their number.
    3. `attempts_readable` — the rows of every reachable state are read back
       by the strict readers, and every snapshot validates.
-/

namespace QuantumEntanglement.Attempts

open Transaction TransitionSystem IsoTime

/-- `InvocationRecoverySnapshot`: a job, its last attempt, and how many it had. -/
structure RecoverySnapshot where
  job : Option JobRow
  currentAttempt : Option AttemptRow
  attemptCount : Nat
  deriving DecidableEq

/-- Raise an `InvocationIntegrityError` where `c` holds. -/
def rejectIf (c : Prop) [Decidable c] (message : String) : Except StoreError Unit :=
  if c then .error ⟨.invocationIntegrity, message⟩ else .ok ()

theorem rejectIf_ok {c : Prop} [Decidable c] {message : String} {u : Unit} :
    rejectIf c message = .ok u ↔ ¬c := by
  unfold rejectIf
  by_cases h : c <;> simp [h]

/-- An attempt that ended without a result. -/
def IsFailedOrExpired (a : AttemptRow) : Prop := a.status = .failed ∨ a.status = .expired

instance (a : AttemptRow) : Decidable (IsFailedOrExpired a) := inferInstanceAs (Decidable (_ ∨ _))

/-- The status of a job against its last attempt. -/
def validateCurrentStatus (job : JobRow) (current : AttemptRow) : Except StoreError Unit :=
  if job.status = .running then
    rejectIf (current.status ≠ .running ∨ some current.workerId ≠ job.leaseOwner ∨
        some current.leaseTokenDigest ≠ job.leaseTokenDigest ∨
        some current.heartbeatAt ≠ job.heartbeatAt ∨
        some current.leaseExpiresAt ≠ job.leaseExpiresAt)
      "running invocation ownership differs from its current attempt"
  else if current.status = .running then
    .error ⟨.invocationIntegrity, "non-running invocation has a running current attempt"⟩
  else
    match job.status with
    | .succeeded =>
      rejectIf (current.status ≠ .succeeded ∨ current.resultRef ≠ job.resultRef)
        "succeeded invocation differs from its current attempt"
    | .failed => do
      rejectIf (¬IsFailedOrExpired current) "failed invocation has an incompatible attempt"
      rejectIf (current.error ≠ job.lastError) "failed invocation error differs from its attempt"
    | .queued => do
      rejectIf (¬IsFailedOrExpired current) "queued invocation has an incompatible prior attempt"
      rejectIf (current.error ≠ job.lastError) "queued invocation error differs from its attempt"
    | .canceled =>
      rejectIf (current.status ≠ .canceled) "canceled invocation has an incompatible attempt"
    | .running => .ok ()

/-- `_validate_recovery_snapshot`. -/
def validateRecoverySnapshot (job : JobRow) (currentAttempt : Option AttemptRow)
    (attemptCount : Nat) : Except StoreError Unit := do
  rejectIf (attemptCount ≠ job.attemptsStarted)
    "invocation attempt count does not match attempts_started"
  if attemptCount = 0 then
    rejectIf (job.leaseEpoch ≠ 0) "zero-attempt invocation has a nonzero lease epoch"
    rejectIf (currentAttempt ≠ none) "zero-attempt invocation has attempt history"
  else
    match currentAttempt with
    | none => .error ⟨.invocationIntegrity, "invocation current attempt is missing"⟩
    | some current => do
      rejectIf (current.invocationId ≠ job.invocationId ∨
          current.attemptNumber ≠ job.attemptsStarted ∨ current.leaseEpoch ≠ job.leaseEpoch)
        "invocation current attempt identity is inconsistent"
      rejectIf (current.startedAt < job.createdAt) "invocation attempt starts before its job"
      rejectIf (∃ v ∈ current.finishedAt, job.updatedAt < v)
        "invocation job update precedes its current attempt"
      rejectIf (∃ v ∈ job.finishedAt, current.finishedAt ≠ some v)
        "invocation finish differs from its current attempt"
      validateCurrentStatus job current

/-- What the walk over the attempts has seen. -/
structure AttemptWalk where
  count : Nat
  previousEpoch : Nat
  previousFinish : Option String
  current : Option AttemptRow

/-- One attempt of the walk. -/
def walkAttempt (py : PyVersion) (job : JobRow) (walk : AttemptWalk) (row : AttemptRow) :
    Except StoreError AttemptWalk := do
  let count := walk.count + 1
  rejectIf (1000 < count) "invocation attempt history exceeds the recovery limit"
  let attempt ← rowToAttempt py row
  rejectIf (attempt.invocationId ≠ job.invocationId) "invocation attempt crosses its job boundary"
  rejectIf (attempt.startedAt < job.createdAt) "invocation attempt starts before its job"
  rejectIf (attempt.attemptNumber ≠ count) "invocation attempt history is not contiguous"
  rejectIf (attempt.leaseEpoch ≤ walk.previousEpoch)
    "invocation attempt lease epochs are not strictly increasing"
  rejectIf (∃ v ∈ walk.previousFinish, attempt.startedAt < v)
    "invocation attempt history moves backward in time"
  if attempt.attemptNumber < job.attemptsStarted then
    rejectIf (¬IsFailedOrExpired attempt) "historical invocation attempt is not safely terminal"
    .ok ⟨count, attempt.leaseEpoch, attempt.finishedAt, walk.current⟩
  else if attempt.attemptNumber = job.attemptsStarted then
    .ok ⟨count, attempt.leaseEpoch, attempt.finishedAt, some attempt⟩
  else .error ⟨.invocationIntegrity, "invocation attempt history exceeds attempts_started"⟩

def walkAttempts (py : PyVersion) (job : JobRow) :
    AttemptWalk → List AttemptRow → Except StoreError AttemptWalk
  | walk, [] => .ok walk
  | walk, row :: rest => do
    let walk ← walkAttempt py job walk row
    walkAttempts py job walk rest

/-- `recovery_snapshot_for_task`. -/
def recoverySnapshotForTask (py : PyVersion) (sessionId taskId : String) :
    DbTxn RecoverySnapshot := do
  let sessionId ← Txn.lift (required sessionId "session_id" maxIdentityBytes)
  let taskId ← Txn.lift (required taskId "task_id" maxIdentityBytes)
  match ← Txn.query (fun db =>
      (db.jobs.filter (fun j => j.sessionId = sessionId && j.taskId = taskId)).take 2) with
  | [] => pure ⟨none, none, 0⟩
  | [row] =>
    let job ← Txn.lift (rowToJob py row)
    let rows ← Txn.query (fun db =>
      ((db.attempts.filter (fun a => a.invocationId = job.invocationId)).insertionSort
        (fun a b => a.attemptNumber ≤ b.attemptNumber)).take 1001)
    let walk ← Txn.lift (walkAttempts py job ⟨0, 0, none, none⟩ rows)
    Txn.lift (validateRecoverySnapshot job walk.current walk.count)
    pure ⟨some job, walk.current, walk.count⟩
  | _ => Txn.raise ⟨.invocationIntegrity, "task has multiple invocation jobs"⟩

/-! ## Snapshots that validate -/

variable {py : PyVersion} {db : Db}

/-- A job that agrees with its attempt passes the last check. -/
theorem validateCurrentStatus_ok {job : JobRow} {a : AttemptRow} (h : Agrees job a) :
    validateCurrentStatus job a = .ok () := by
  unfold validateCurrentStatus
  unfold Agrees at h
  cases hs : job.status with
  | running =>
    simp only [hs] at h
    obtain ⟨hstatus, howner, hdigest, hbeat, hexpiry⟩ := h
    simp [rejectIf, hstatus, howner, hdigest, hbeat, hexpiry]
  | succeeded =>
    simp only [hs] at h
    simp [rejectIf, h.1, h.2]
  | canceled =>
    simp only [hs] at h
    simp [rejectIf, h]
  | failed =>
    simp only [hs] at h
    have hnot : a.status ≠ .running := by rcases h.1 with e | e <;> simp [e]
    simp [rejectIf, hnot, IsFailedOrExpired, h.1, h.2, bind, Except.bind]
  | queued =>
    simp only [hs] at h
    have hnot : a.status ≠ .running := by rcases h.1 with e | e <;> simp [e]
    simp [rejectIf, hnot, IsFailedOrExpired, h.1, h.2, bind, Except.bind]

/-- **A started job and its attempt validate.** -/
theorem validateRecoverySnapshot_ok {job : JobRow} {a : AttemptRow} (h : Held py job a) :
    validateRecoverySnapshot job (some a) 1 = .ok () := by
  obtain ⟨-, hsame, ⟨hjob, hepoch⟩, ⟨hnumber, hattempt⟩, hstarts, hwithin, hfinish, hagrees⟩ := h
  have hlate : ¬∃ v ∈ a.finishedAt, job.updatedAt < v := fun ⟨v, hv, hlt⟩ => hwithin v hv hlt
  have hdiffer : ¬∃ v ∈ job.finishedAt, a.finishedAt ≠ some v :=
    fun ⟨v, hv, hne⟩ => hne (hfinish v hv)
  simp only [validateRecoverySnapshot, except_bind_ok, rejectIf_ok, validateCurrentStatus_ok hagrees,
    Nat.one_ne_zero, if_false, hjob, hepoch, hsame, hnumber, hattempt]
  exact ⟨(), by simp, (), by simp, (), hstarts, (), hlate, (), hdiffer, trivial⟩

/-- The walk over one attempt that its job holds. -/
theorem walkAttempts_held {job : JobRow} {a : AttemptRow} (h : Held py job a) :
    walkAttempts py job ⟨0, 0, none, none⟩ [a] =
      .ok ⟨1, a.leaseEpoch, a.finishedAt, some a⟩ := by
  obtain ⟨hok, hsame, ⟨hjob, -⟩, ⟨hnumber, hattempt⟩, hstarts, -⟩ := h
  have hread : rowToAttempt py a = .ok a := rowToAttempt_ok.mpr ⟨hok, rfl⟩
  simp [walkAttempts, walkAttempt, rejectIf, hread, hsame, hstarts, hnumber, hattempt, hjob, bind,
    Except.bind]

/-- What a snapshot of a task is in a state the invariants hold in. -/
def IsSnapshotOf (py : PyVersion) (db : Db) (sessionId taskId : String) (snap : RecoverySnapshot) :
    Prop :=
  (snap = ⟨none, none, 0⟩ ∧ ∀ job ∈ db.jobs, ¬(job.sessionId = sessionId ∧ job.taskId = taskId)) ∨
  ∃ job ∈ db.jobs, job.sessionId = sessionId ∧ job.taskId = taskId ∧
    ((snap = ⟨some job, none, 0⟩ ∧ job.attemptsStarted = 0) ∨
      ∃ a ∈ db.attempts, snap = ⟨some job, some a, 1⟩ ∧ Held py job a)

/-- The rows a key selects, where the key is unique. -/
theorem filter_unique {α : Type} {p : α → Bool} {rows : List α} {r : α}
    (hpair : rows.Pairwise (fun a b => ¬(p a = true ∧ p b = true))) (hmem : r ∈ rows)
    (hp : p r = true) : rows.filter p = [r] := by
  have hone : (rows.filter p).length = 1 := by
    rw [← List.countP_eq_length_filter]
    exact countP_unique hpair hmem hp
  obtain ⟨q, hq⟩ := List.length_eq_one_iff.mp hone
  have hr : r ∈ rows.filter p := List.mem_filter.mpr ⟨hmem, hp⟩
  rw [hq, List.mem_singleton] at hr
  rw [hq, hr]

/-- **The snapshot of every task is read without an error**, and is its job
with the attempts it has. -/
theorem recoverySnapshotForTask_ok {sessionId taskId : String} (hinv : TablesInv py db)
    (hsession : TextOk maxIdentityBytes sessionId) (htask : TextOk maxIdentityBytes taskId) :
    ∃ snap, recoverySnapshotForTask py sessionId taskId db = (.ok snap, db) ∧
      IsSnapshotOf py db sessionId taskId snap := by
  have hs : required sessionId "session_id" maxIdentityBytes = .ok sessionId :=
    required_ok.mpr ⟨hsession, rfl⟩
  have ht : required taskId "task_id" maxIdentityBytes = .ok taskId := required_ok.mpr ⟨htask, rfl⟩
  by_cases hjob : ∃ job ∈ db.jobs, job.sessionId = sessionId ∧ job.taskId = taskId
  · obtain ⟨job, hmem, hjs, hjt⟩ := hjob
    have hrows : (db.jobs.filter (fun j => j.sessionId = sessionId && j.taskId = taskId)).take 2 =
        [job] := by
      rw [filter_unique (hinv.jobs.apart.imp fun hab => ?_) hmem (by simp [hjs, hjt])]
      · rfl
      · rintro ⟨hx, hy⟩
        simp only [Bool.and_eq_true, decide_eq_true_eq] at hx hy
        exact hab.2.1 ⟨hx.1.trans hy.1.symm, hx.2.trans hy.2.symm⟩
    have hread : rowToJob py job = .ok job := rowToJob_ok.mpr ⟨hinv.jobs.ok job hmem, rfl⟩
    by_cases hzero : job.attemptsStarted = 0
    · -- no attempt names the job
      have hnone : db.attempts.filter (fun a => decide (a.invocationId = job.invocationId)) = [] := by
        rw [List.filter_eq_nil_iff]
        intro a ha
        simpa using (hinv.attempts.waiting job hmem hzero).2 a ha
      have hepoch : job.leaseEpoch = 0 := (hinv.jobs.ok job hmem).counts.2.2.2.2.1 hzero
      refine ⟨⟨some job, none, 0⟩, ?_, .inr ⟨job, hmem, hjs, hjt, .inl ⟨rfl, hzero⟩⟩⟩
      have hvalid : validateRecoverySnapshot job none 0 = .ok () := by
        simp [validateRecoverySnapshot, rejectIf, hzero, hepoch, bind, Except.bind]
      simp only [recoverySnapshotForTask, Txn.bind_ok, Txn.lift_ok, Txn.query_ok]
      refine ⟨_, _, ⟨hs, rfl⟩, _, _, ⟨ht, rfl⟩, [job], _, ⟨hrows, rfl⟩, ?_⟩
      simp only [Txn.bind_ok, Txn.lift_ok, Txn.query_ok, Txn.pure_ok]
      refine ⟨job, _, ⟨hread, rfl⟩, [], _, ⟨?_, rfl⟩, ⟨0, 0, none, none⟩, _, ⟨rfl, rfl⟩, (), _,
        ⟨hvalid, rfl⟩, rfl, rfl⟩
      rw [hnone]
      rfl
    · obtain ⟨a, ha, hheld⟩ := hinv.attempts.started job hmem hzero
      have hone : db.attempts.filter (fun b => decide (b.invocationId = job.invocationId)) = [a] := by
        refine filter_unique (hinv.attempts.single.imp fun hab => ?_) ha (by simp [hheld.same])
        rintro ⟨hx, hy⟩
        simp only [decide_eq_true_eq] at hx hy
        exact hab (hx.trans hy.symm)
      refine ⟨⟨some job, some a, 1⟩, ?_, .inr ⟨job, hmem, hjs, hjt, .inr ⟨a, ha, rfl, hheld⟩⟩⟩
      simp only [recoverySnapshotForTask, Txn.bind_ok, Txn.lift_ok, Txn.query_ok]
      refine ⟨_, _, ⟨hs, rfl⟩, _, _, ⟨ht, rfl⟩, [job], _, ⟨hrows, rfl⟩, ?_⟩
      simp only [Txn.bind_ok, Txn.lift_ok, Txn.query_ok, Txn.pure_ok]
      refine ⟨job, _, ⟨hread, rfl⟩, [a], _, ⟨?_, rfl⟩, _, _, ⟨walkAttempts_held hheld, rfl⟩, (), _,
        ⟨validateRecoverySnapshot_ok hheld, rfl⟩, rfl, rfl⟩
      rw [hone]
      rfl
  · refine ⟨⟨none, none, 0⟩, ?_, .inl ⟨rfl, fun job hmem hsame => hjob ⟨job, hmem, hsame⟩⟩⟩
    have hrows : db.jobs.filter (fun j => j.sessionId = sessionId && j.taskId = taskId) = [] := by
      rw [List.filter_eq_nil_iff]
      intro job hmem hboth
      simp only [Bool.and_eq_true, decide_eq_true_eq] at hboth
      exact hjob ⟨job, hmem, hboth⟩
    simp only [recoverySnapshotForTask, Txn.bind_ok, Txn.lift_ok, Txn.query_ok]
    refine ⟨_, _, ⟨hs, rfl⟩, _, _, ⟨ht, rfl⟩, [], _, ⟨?_, rfl⟩, rfl⟩
    rw [hrows]
    rfl

/-- **Writers and readers agree.** In every state a run reaches, the readers
accept every stored row, and the snapshot of every task validates. -/
theorem attempts_readable {ls : List (AttemptCall py × AttemptReply)}
    (h : Run (attemptSystem py) Db.empty ls db) :
    (∀ job ∈ db.jobs, rowToJob py job = .ok job) ∧
    (∀ a ∈ db.attempts, rowToAttempt py a = .ok a) ∧
    ∀ sessionId taskId, TextOk maxIdentityBytes sessionId → TextOk maxIdentityBytes taskId →
      ∃ snap, recoverySnapshotForTask py sessionId taskId db = (.ok snap, db) := by
  obtain ⟨hinv, -⟩ := attempt_traces h (tablesInv_empty py)
  refine ⟨fun job hjob => ?_, fun a ha => ?_, fun sessionId taskId hsession htask => ?_⟩
  · exact rowToJob_ok.mpr ⟨hinv.jobs.ok job hjob, rfl⟩
  · obtain ⟨job, hjob, hid⟩ := hinv.attempts.owned a ha
    exact rowToAttempt_ok.mpr ⟨(hinv.attempts.held hjob ha hid.symm).ok, rfl⟩
  · obtain ⟨snap, hsnap, -⟩ := recoverySnapshotForTask_ok hinv hsession htask
    exact ⟨snap, hsnap⟩

/-- The failed job of an expired lease is read back. -/
theorem attempts_readable_expired :
    ∃ job ∈ (stateAfter expiredCalls Db.empty).jobs,
      job.status = .failed ∧ rowToJob .py311 job = .ok job := by
  obtain ⟨hjobs, -, -⟩ := attempts_readable (run_calls expiredCalls Db.empty)
  obtain ⟨job, hjob, -, hfailed⟩ := expiredCalls_job
  exact ⟨job, hjob, hfailed, hjobs job hjob⟩

end QuantumEntanglement.Attempts
