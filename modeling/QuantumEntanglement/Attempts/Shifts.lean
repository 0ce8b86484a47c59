import QuantumEntanglement.Lib.SingleDispatch
import QuantumEntanglement.Attempts.JobInvariant

/-
  Shifts — the steps of the job and attempt tables

  A job that was started has one attempt, and the two rows tell one story:
  `Held`. `Shift` lists what a statement of the store can do to the two
  tables, one job at a time: insert a job, start it with its attempt, or
  rewrite both rows of a running job. Every operation is a run of shifts, so
  an invariant is checked once for each shift and not once for each operation.

  What is proved:
    1. `Held.opened`, `.beaten`, `.succeeded`, `.ended` — each pair of rows an
       operation writes is held again.
    2. `Shift.inv` — a shift keeps `JobInv` and `AttemptInv`.
    3. `Shift.view_self`, `Shift.view_other` — a shift is one step of
       `SingleDispatch.life` for its job, and no step for another.
    4. `Shift.settled` — a job that is not waiting or running keeps its rows.
-/

namespace QuantumEntanglement.Attempts

open Transaction TransitionSystem SingleDispatch IsoTime Sha256

/-! ## A job and its attempt -/

/-- The status of a job and what its attempt says. -/
def Agrees (job : JobRow) (attempt : AttemptRow) : Prop :=
  match job.status with
  | .running => attempt.status = .running ∧ job.leaseOwner = some attempt.workerId ∧
      job.leaseTokenDigest = some attempt.leaseTokenDigest ∧
      job.heartbeatAt = some attempt.heartbeatAt ∧
      job.leaseExpiresAt = some attempt.leaseExpiresAt
  | .succeeded => attempt.status = .succeeded ∧ attempt.resultRef = job.resultRef
  | .failed | .queued =>
      (attempt.status = .failed ∨ attempt.status = .expired) ∧ attempt.error = job.lastError
  | .canceled => attempt.status = .canceled

/-- A started job and its one attempt. -/
structure Held (py : PyVersion) (job : JobRow) (attempt : AttemptRow) : Prop where
  ok : AttemptOk py attempt
  same : attempt.invocationId = job.invocationId
  firstJob : job.attemptsStarted = 1 ∧ job.leaseEpoch = 1
  firstAttempt : attempt.attemptNumber = 1 ∧ attempt.leaseEpoch = 1
  starts : ¬attempt.startedAt < job.createdAt
  within : ∀ v ∈ attempt.finishedAt, ¬job.updatedAt < v
  finish : ∀ v ∈ job.finishedAt, attempt.finishedAt = some v
  agrees : Agrees job attempt

/-- What ties the attempts to the jobs. -/
structure AttemptInv (py : PyVersion) (db : Db) : Prop where
  waiting : ∀ job ∈ db.jobs, job.attemptsStarted = 0 →
    job.status = .queued ∧ ∀ a ∈ db.attempts, a.invocationId ≠ job.invocationId
  started : ∀ job ∈ db.jobs, job.attemptsStarted ≠ 0 → ∃ a ∈ db.attempts, Held py job a
  owned : ∀ a ∈ db.attempts, ∃ job ∈ db.jobs, job.invocationId = a.invocationId
  single : db.attempts.Pairwise (fun a b => a.invocationId ≠ b.invocationId)

theorem attemptInv_empty (py : PyVersion) : AttemptInv py Db.empty :=
  ⟨by simp [Db.empty], by simp [Db.empty], by simp [Db.empty], by simp [Db.empty]⟩

/-- A job has one attempt at most. -/
theorem AttemptInv.eq_of_id {py : PyVersion} {db : Db} (h : AttemptInv py db) {a b : AttemptRow}
    (ha : a ∈ db.attempts) (hb : b ∈ db.attempts) (hid : a.invocationId = b.invocationId) :
    a = b := by
  by_contra hne
  have hsymm : Std.Symm (fun a b : AttemptRow => a.invocationId ≠ b.invocationId) :=
    ⟨fun _ _ hab e => hab e.symm⟩
  exact h.single.forall ha hb hne hid

/-- The attempt of a started job is held by it. -/
theorem AttemptInv.held {py : PyVersion} {db : Db} (h : AttemptInv py db) {job : JobRow}
    {a : AttemptRow} (hjob : job ∈ db.jobs) (ha : a ∈ db.attempts)
    (hid : a.invocationId = job.invocationId) : Held py job a := by
  by_cases hzero : job.attemptsStarted = 0
  · exact absurd hid ((h.waiting job hjob hzero).2 a ha)
  · obtain ⟨b, hb, hheld⟩ := h.started job hjob hzero
    rw [h.eq_of_id ha hb (hid.trans hheld.same.symm)]
    exact hheld

variable {py : PyVersion}

/-! ## What the statements write -/

theorem Held.opened {job : JobRow} {attemptId workerId leaseToken now expiry : String}
    (hfirst : job.attemptsStarted = 0) (hepoch : job.leaseEpoch = 0)
    (hjob : TextOk maxIdentityBytes job.invocationId)
    (hattempt : TextOk maxIdentityBytes attemptId) (hworker : TextOk maxIdentityBytes workerId)
    (hnow : PersistedTimestamp py now) (hexpiry : PersistedTimestamp py expiry)
    (hlt : now < expiry) (hclock : ¬now < job.createdAt) :
    Held py (startedJob job workerId (hexDigest leaseToken) expiry now)
      (openedAttempt job attemptId workerId (hexDigest leaseToken) now expiry) := by
  have hmax : 1 ≤ maxSqliteInteger := by decide
  refine ⟨?_, rfl, ?_, ?_, hclock, ?_, ?_, ?_⟩
  · simp only [AttemptOk, openedAttempt, hfirst, hepoch]
    refine ⟨⟨by decide, hmax⟩, ⟨by decide, hmax⟩, by decide, by simp, by simp, by simp, by simp,
      by simp, hnow, hnow, hexpiry, lt_irrefl _, hlt, by simp, by simp, by simp, hattempt, hjob,
      hworker, persistedDigest_hexDigest _⟩
  · exact ⟨by simp [startedJob, hfirst], by simp [startedJob, hepoch]⟩
  · exact ⟨by simp [openedAttempt, hfirst], by simp [openedAttempt, hepoch]⟩
  · simp [openedAttempt]
  · simp [startedJob]
  · exact ⟨rfl, rfl, rfl, rfl, rfl⟩

/-- What a running job says about its attempt. -/
theorem Held.running {job : JobRow} {a : AttemptRow} (h : Held py job a)
    (hrunning : job.status = .running) : a.status = .running ∧ job.leaseOwner = some a.workerId ∧
      job.leaseTokenDigest = some a.leaseTokenDigest ∧ job.heartbeatAt = some a.heartbeatAt ∧
      job.leaseExpiresAt = some a.leaseExpiresAt := by
  have hagrees := h.agrees
  rw [Agrees, hrunning] at hagrees
  exact hagrees

/-- The attempt a heartbeat writes. -/
def beatenAttempt (a : AttemptRow) (now deadline : String) : AttemptRow :=
  { a with heartbeatAt := now, leaseExpiresAt := deadline }

/-- The attempt of a job that succeeded. -/
def succeededAttempt (a : AttemptRow) (resultRef : Option String) (now : String) : AttemptRow :=
  { a with status := .succeeded, finishedAt := some now, resultRef := resultRef }

/-- The attempt of a job that failed, or whose lease expired. -/
def endedAttempt (a : AttemptRow) (status : AttemptStatus) (error now : String) : AttemptRow :=
  { a with status := status, finishedAt := some now, error := some error }

theorem Held.beaten {job : JobRow} {a : AttemptRow} {now deadline : String} (h : Held py job a)
    (hrunning : job.status = .running) (hnow : PersistedTimestamp py now)
    (hdeadline : PersistedTimestamp py deadline) (hlt : now < deadline)
    (hclock : ¬now < a.startedAt) :
    Held py (beatenJob job now deadline) (beatenAttempt a now deadline) := by
  obtain ⟨hstatus, howner, hdigest, -, -⟩ := h.running hrunning
  obtain ⟨h₁, h₂, h₃, h₄, h₅, h₆, h₇, h₈, h₉, -, -, -, -, -, h₁₅, h₁₆, h₁₇⟩ := h.ok
  have hnone : a.finishedAt = none := h₅.mp hstatus
  refine ⟨?_, h.same, h.firstJob, h.firstAttempt, h.starts, ?_, h.finish, ?_⟩
  · refine ⟨h₁, h₂, h₃, h₄, h₅, h₆, h₇, h₈, h₉, hnow, hdeadline, hclock, hlt, ?_, h₁₅, h₁₆, h₁₇⟩
    simp [beatenAttempt, hnone]
  · simp [beatenAttempt, hnone]
  · show Agrees (beatenJob job now deadline) (beatenAttempt a now deadline)
    have hbeaten : (beatenJob job now deadline).status = .running := hrunning
    rw [Agrees, hbeaten]
    exact ⟨hstatus, howner, hdigest, rfl, rfl⟩

theorem Held.succeeded {job : JobRow} {a : AttemptRow} {resultRef : Option String} {now : String}
    (h : Held py job a) (hrunning : job.status = .running) (hnow : PersistedTimestamp py now)
    (hresult : ∀ v ∈ resultRef, TextOk maxReferenceBytes v) (hstart : ¬now < a.startedAt)
    (hbeat : ¬now < a.heartbeatAt) (hlive : now < a.leaseExpiresAt) :
    Held py (succeededJob job resultRef now) (succeededAttempt a resultRef now) := by
  obtain ⟨hstatus, -⟩ := h.running hrunning
  obtain ⟨h₁, h₂, h₃, -, -, h₆, h₇, -, h₉, h₁₀, h₁₁, h₁₂, h₁₃, -, -, -, h₁₇⟩ := h.ok
  refine ⟨?_, h.same, h.firstJob, h.firstAttempt, h.starts, ?_, ?_, rfl, rfl⟩
  · have herror := h₇ (.inl hstatus)
    refine ⟨h₁, h₂, h₃, by simpa [succeededAttempt] using hnow, by simp [succeededAttempt], h₆,
      fun _ => herror, by simp [succeededAttempt], h₉, h₁₀, h₁₁, h₁₂, h₁₃, ?_, hresult,
      fun _ => rfl, h₁₇⟩
    simp only [succeededAttempt, Option.mem_def, Option.some.injEq]
    rintro v rfl
    exact ⟨hstart, hbeat, fun _ => hlive, by simp⟩
  · simp only [succeededAttempt, succeededJob, Option.mem_def, Option.some.injEq]
    rintro v rfl
    exact lt_irrefl _
  · simp only [succeededAttempt, succeededJob, Option.mem_def, Option.some.injEq]
    rintro v rfl
    rfl

/-- The end of an attempt without a result: reported while the lease was live,
or fenced after it. -/
theorem Held.ended {job : JobRow} {a : AttemptRow} {status : AttemptStatus}
    {error availableAt now : String} (h : Held py job a) (hrunning : job.status = .running)
    (hnow : PersistedTimestamp py now) (herror : TextOk maxErrorBytes error)
    (hlength : error.length ≤ maxErrorLength) (hstart : ¬now < a.startedAt)
    (hbeat : ¬now < a.heartbeatAt)
    (hlive : (status = .failed ∧ now < a.leaseExpiresAt) ∨
      (status = .expired ∧ ¬now < a.leaseExpiresAt)) :
    Held py (failedJob job error availableAt now) (endedAttempt a status error now) := by
  have hended : (failedJob job error availableAt now).updatedAt = now ∧
      (failedJob job error availableAt now).createdAt = job.createdAt ∧
      (failedJob job error availableAt now).invocationId = job.invocationId ∧
      (failedJob job error availableAt now).attemptsStarted = job.attemptsStarted ∧
      (failedJob job error availableAt now).leaseEpoch = job.leaseEpoch ∧
      (failedJob job error availableAt now).lastError = some error ∧
      ((failedJob job error availableAt now).finishedAt = some now ∨
        (failedJob job error availableAt now).finishedAt = job.finishedAt) ∧
      ((failedJob job error availableAt now).status = .failed ∨
        (failedJob job error availableAt now).status = .queued) := by
    unfold failedJob
    split <;> simp
  obtain ⟨hupdated, hcreated, hid, hattempts, hepoch, hlast, hfinished, hstatus⟩ := hended
  obtain ⟨hwas, -⟩ := h.running hrunning
  obtain ⟨h₁, h₂, h₃, -, h₅, -, -, -, h₉, h₁₀, h₁₁, h₁₂, h₁₃, -, h₁₅, h₁₆, h₁₇⟩ := h.ok
  have hnoResult : a.resultRef = none := by
    cases hr : a.resultRef with
    | none => rfl
    | some v =>
      rw [hr] at h₁₆
      rw [h₁₆ rfl] at hwas
      simp at hwas
  have hnotRunning : status ≠ .running ∧ status ≠ .succeeded := by
    rcases hlive with ⟨rfl, -⟩ | ⟨rfl, -⟩ <;> simp
  refine ⟨?_, ?_, ?_, h.firstAttempt, ?_, ?_, ?_, ?_⟩
  · refine ⟨h₁, h₂, h₃, by simpa [endedAttempt] using hnow, ?_, ?_, ?_, by simp [endedAttempt], h₉,
      h₁₀, h₁₁, h₁₂, h₁₃, ?_, h₁₅, ?_, h₁₇⟩
    · simp [endedAttempt, hnotRunning.1]
    · simpa [endedAttempt] using ⟨herror, hlength⟩
    · simp [endedAttempt, hnotRunning.1, hnotRunning.2]
    · simp only [endedAttempt, Option.mem_def, Option.some.injEq]
      rintro v rfl
      refine ⟨hstart, hbeat, fun hs => ?_, fun hs => ?_⟩
      · rcases hlive with ⟨-, hlt⟩ | ⟨rfl, -⟩
        · exact hlt
        · simp at hs
      · rcases hlive with ⟨rfl, -⟩ | ⟨-, hlt⟩
        · simp at hs
        · exact hlt
    · simp [endedAttempt, hnoResult]
  · rw [hid]
    exact h.same
  · rw [hattempts, hepoch]
    exact h.firstJob
  · rw [hcreated]
    exact h.starts
  · simp only [endedAttempt, Option.mem_def, Option.some.injEq]
    rintro v rfl
    rw [hupdated]
    exact lt_irrefl _
  · intro v hv
    rcases hfinished with hf | hf
    · rw [hf] at hv
      exact hv
    · rw [hf] at hv
      have hnone := (h.finish v hv).symm.trans (h₅.mp hwas)
      simp at hnone
  · have hagree : ((endedAttempt a status error now).status = .failed ∨
        (endedAttempt a status error now).status = .expired) ∧
        (endedAttempt a status error now).error = (failedJob job error availableAt now).lastError := by
      refine ⟨?_, hlast.symm⟩
      rcases hlive with ⟨rfl, -⟩ | ⟨rfl, -⟩ <;> simp [endedAttempt]
    unfold Agrees
    rcases hstatus with hs | hs <;> rw [hs] <;> exact hagree

/-! ## The life of a job -/

/-- How a job stands when it is neither waiting nor running. -/
structure Outcome where
  status : InvocationStatus
  resultRef : Option String
  lastError : Option String
  deriving DecidableEq

/-- A row as the state of a job. A job that failed and has attempts left is
queued again, but no claim selects it: it ended. -/
def dispatchOf (job : JobRow) : Dispatch String String Outcome :=
  match job.status with
  | .running => .leased (job.leaseTokenDigest.getD "") (job.leaseExpiresAt.getD "")
  | _ =>
    if job.attemptsStarted = 0 then .ready
    else .ended ⟨job.status, job.resultRef, job.lastError⟩

/-- The state of an invocation in the tables. -/
def lifeOf (db : Db) (invocationId : String) : Option (Dispatch String String Outcome) :=
  (findJob db.jobs invocationId).map dispatchOf

/-- Both rows of an invocation rewritten. -/
def changed (db : Db) (invocationId : String) (f : JobRow → JobRow) (g : AttemptRow → AttemptRow) :
    Db :=
  { db with
    jobs := updateWhere (fun j => j.invocationId = invocationId) f db.jobs
    attempts := updateWhere (fun a => a.invocationId = invocationId) g db.attempts }

/-- A job started: its row rewritten, its attempt inserted. -/
def opened (db : Db) (job : JobRow) (attemptId workerId digest now expiry : String) : Db :=
  { db with
    jobs := updateWhere (fun j => j.invocationId = job.invocationId)
      (startedJob · workerId digest expiry now) db.jobs
    attempts := db.attempts ++ [openedAttempt job attemptId workerId digest now expiry] }

/-- **What the store does to its two tables**, one job at a time. -/
inductive Shift (py : PyVersion) (db : Db) :
    String → SingleDispatch.Signal String String Outcome → Db → Prop where
  | insert (job : JobRow) (apart : ∀ r ∈ db.jobs, Apart (workOf r) (workOf job))
      (ok : JobOk py job) (queued : job.status = .queued) (first : job.attemptsStarted = 0) :
      Shift py db job.invocationId .enqueued { db with jobs := db.jobs ++ [job] }
  | start (job : JobRow) (attemptId workerId digest now expiry : String) (mem : job ∈ db.jobs)
      (first : job.attemptsStarted = 0) (ok : JobOk py (startedJob job workerId digest expiry now))
      (held : Held py (startedJob job workerId digest expiry now)
        (openedAttempt job attemptId workerId digest now expiry)) :
      Shift py db job.invocationId (.granted digest expiry)
        (opened db job attemptId workerId digest now expiry)
  | change (job : JobRow) (a : AttemptRow) (f : JobRow → JobRow) (g : AttemptRow → AttemptRow)
      (s : SingleDispatch.Signal String String Outcome) (memJob : job ∈ db.jobs)
      (memAttempt : a ∈ db.attempts) (running : job.status = .running) (held : Held py job a)
      (work : ∀ j, workOf (f j) = workOf j) (same : ∀ b, (g b).invocationId = b.invocationId)
      (ok : JobOk py (f job)) (held' : Held py (f job) (g a))
      (step : SingleDispatch.Step (some (dispatchOf job)) s (some (dispatchOf (f job)))) :
      Shift py db job.invocationId s (changed db job.invocationId f g)

theorem invocationId_of_workOf {a b : JobRow} (h : workOf a = workOf b) :
    a.invocationId = b.invocationId := congrArg InvocationWork.invocationId h

section

variable {db db' : Db} {i : String} {s : SingleDispatch.Signal String String Outcome}

/-- **A shift keeps the jobs' invariant and leaves the other tables alone.** -/
theorem Shift.moves (h : Shift py db i s db') (hinv : JobInv py db) : JobMoves py db db' := by
  cases h with
  | insert job apart ok queued first =>
    refine ⟨⟨?_, ?_⟩, rfl, rfl, rfl, rfl, rfl, id, [job], fun _ => rfl, by simp⟩
    · intro j hj
      rcases List.mem_append.mp hj with hj | hj
      · exact hinv.ok j hj
      · rw [List.mem_singleton.mp hj]
        exact ok
    · refine List.pairwise_append.mpr ⟨hinv.apart, by simp, fun a ha b hb => ?_⟩
      rw [List.mem_singleton.mp hb]
      exact apart a ha
  | start job attemptId workerId digest now expiry mem first ok held =>
    have hjobs : JobMoves py db { db with
        jobs := updateWhere (fun j => j.invocationId = job.invocationId)
          (startedJob · workerId digest expiry now) db.jobs } := by
      refine .update hinv (fun j => rfl) (fun j hj hp => ?_)
      obtain rfl := hinv.eq_of_id hj mem (by simpa using hp)
      exact ok
    exact hjobs.trans (.attempts hjobs.inv _)
  | change job a f g s memJob memAttempt running held work same ok held' step =>
    have hjobs : JobMoves py db { db with
        jobs := updateWhere (fun j => j.invocationId = job.invocationId) f db.jobs } := by
      refine .update hinv work (fun j hj hp => ?_)
      obtain rfl := hinv.eq_of_id hj memJob (by simpa using hp)
      exact ok
    exact hjobs.trans (.attempts hjobs.inv _)

/-- **A shift keeps the attempts' invariant.** -/
theorem Shift.attempts (h : Shift py db i s db') (hinv : JobInv py db) (hatt : AttemptInv py db) :
    AttemptInv py db' := by
  cases h with
  | insert job apart ok queued first =>
    have hfresh : ∀ a ∈ db.attempts, a.invocationId ≠ job.invocationId := by
      intro a ha
      obtain ⟨r, hr, hid⟩ := hatt.owned a ha
      rw [← hid]
      exact (apart r hr).1
    refine ⟨?_, ?_, ?_, hatt.single⟩
    · intro j hj hzero
      rcases List.mem_append.mp hj with hj | hj
      · exact hatt.waiting j hj hzero
      · rw [List.mem_singleton.mp hj]
        exact ⟨queued, hfresh⟩
    · intro j hj hstarted
      rcases List.mem_append.mp hj with hj | hj
      · exact hatt.started j hj hstarted
      · rw [List.mem_singleton.mp hj] at hstarted
        exact absurd first hstarted
    · intro a ha
      obtain ⟨r, hr, hid⟩ := hatt.owned a ha
      exact ⟨r, List.mem_append_left _ hr, hid⟩
  | start job attemptId workerId digest now expiry mem first ok held =>
    obtain ⟨-, hfresh⟩ := hatt.waiting job mem first
    refine ⟨?_, ?_, ?_, ?_⟩
    · intro j hj hzero
      obtain ⟨q, hq, rfl⟩ := mem_updateWhere.mp hj
      by_cases hid : q.invocationId = job.invocationId
      · simp [hid, startedJob] at hzero
      · simp only [hid, decide_false, Bool.false_eq_true, if_false] at hzero ⊢
        refine ⟨(hatt.waiting q hq hzero).1, fun a ha => ?_⟩
        rcases List.mem_append.mp ha with ha | ha
        · exact (hatt.waiting q hq hzero).2 a ha
        · rw [List.mem_singleton.mp ha]
          exact fun e => hid e.symm
    · intro j hj hstarted
      obtain ⟨q, hq, rfl⟩ := mem_updateWhere.mp hj
      by_cases hid : q.invocationId = job.invocationId
      · obtain rfl := hinv.eq_of_id hq mem hid
        simp only [decide_true, if_true]
        exact ⟨_, List.mem_append_right _ (List.mem_singleton.mpr rfl), held⟩
      · simp only [hid, decide_false, Bool.false_eq_true, if_false] at hstarted ⊢
        obtain ⟨a, ha, hheld⟩ := hatt.started q hq hstarted
        exact ⟨a, List.mem_append_left _ ha, hheld⟩
    · intro a ha
      have hkept : ∀ q ∈ db.jobs, ∃ r ∈ (opened db job attemptId workerId digest now expiry).jobs,
          r.invocationId = q.invocationId := by
        intro q hq
        refine ⟨_, mem_updateWhere.mpr ⟨q, hq, rfl⟩, ?_⟩
        split <;> rfl
      rcases List.mem_append.mp ha with ha | ha
      · obtain ⟨q, hq, hid⟩ := hatt.owned a ha
        obtain ⟨r, hr, hrid⟩ := hkept q hq
        exact ⟨r, hr, hrid.trans hid⟩
      · rw [List.mem_singleton.mp ha]
        exact hkept job mem
    · refine List.pairwise_append.mpr ⟨hatt.single, by simp, fun a ha b hb => ?_⟩
      rw [List.mem_singleton.mp hb]
      exact hfresh a ha
  | change job a f g s memJob memAttempt running held work same ok held' step =>
    have hids : ∀ q, (if decide (q.invocationId = job.invocationId) = true then g q else q).invocationId =
        q.invocationId := by
      intro q
      split
      · exact same q
      · rfl
    have hfid : ∀ q, (f q).invocationId = q.invocationId := fun q => invocationId_of_workOf (work q)
    have hstarts : (f job).attemptsStarted ≠ 0 := by
      rw [held'.firstJob.1]
      decide
    refine ⟨?_, ?_, ?_, ?_⟩
    · intro j hj hzero
      obtain ⟨q, hq, rfl⟩ := mem_updateWhere.mp hj
      by_cases hid : q.invocationId = job.invocationId
      · obtain rfl := hinv.eq_of_id hq memJob hid
        simp only [decide_true, if_true] at hzero
        exact absurd hzero hstarts
      · simp only [hid, decide_false, Bool.false_eq_true, if_false] at hzero ⊢
        refine ⟨(hatt.waiting q hq hzero).1, fun b hb => ?_⟩
        obtain ⟨c, hc, rfl⟩ := mem_updateWhere.mp hb
        rw [hids]
        exact (hatt.waiting q hq hzero).2 c hc
    · intro j hj hstarted
      obtain ⟨q, hq, rfl⟩ := mem_updateWhere.mp hj
      by_cases hid : q.invocationId = job.invocationId
      · obtain rfl := hinv.eq_of_id hq memJob hid
        simp only [decide_true, if_true]
        refine ⟨g a, mem_updateWhere.mpr ⟨a, memAttempt, ?_⟩, held'⟩
        simp [held.same]
      · simp only [hid, decide_false, Bool.false_eq_true, if_false] at hstarted ⊢
        obtain ⟨b, hb, hheld⟩ := hatt.started q hq hstarted
        refine ⟨b, mem_updateWhere.mpr ⟨b, hb, ?_⟩, hheld⟩
        have hne : b.invocationId ≠ job.invocationId := by
          rw [hheld.same]
          exact hid
        simp [hne]
    · intro b hb
      obtain ⟨c, hc, rfl⟩ := mem_updateWhere.mp hb
      obtain ⟨q, hq, hid⟩ := hatt.owned c hc
      refine ⟨_, mem_updateWhere.mpr ⟨q, hq, rfl⟩, ?_⟩
      rw [hids, ← hid]
      split
      · exact hfid q
      · rfl
    · refine List.pairwise_map.mpr (hatt.single.imp (fun {x y} hxy => ?_))
      rw [hids, hids]
      exact hxy

theorem findJob_opened (job : JobRow) (attemptId workerId digest now expiry m : String) :
    findJob (opened db job attemptId workerId digest now expiry).jobs m =
      if m = job.invocationId then
        (findJob db.jobs m).map (startedJob · workerId digest expiry now)
      else findJob db.jobs m :=
  findJob_updateWhere (f := (startedJob · workerId digest expiry now)) (fun _ => rfl) db.jobs _ m

theorem findJob_changed {f : JobRow → JobRow} (hf : ∀ j, workOf (f j) = workOf j)
    (g : AttemptRow → AttemptRow) (i m : String) :
    findJob (changed db i f g).jobs m =
      if m = i then (findJob db.jobs m).map f else findJob db.jobs m :=
  findJob_updateWhere (fun j => invocationId_of_workOf (hf j)) db.jobs i m

theorem dispatchOf_ready {job : JobRow} (hqueued : job.status = .queued)
    (hfirst : job.attemptsStarted = 0) : dispatchOf job = .ready := by
  simp [dispatchOf, hqueued, hfirst]

/-- **A shift is one step of its job's life.** -/
theorem Shift.view_self (h : Shift py db i s db') (hinv : JobInv py db) (hatt : AttemptInv py db) :
    SingleDispatch.Step (lifeOf db i) s (lifeOf db' i) := by
  have hinv' := (h.moves hinv).inv
  cases h with
  | insert job apart ok queued first =>
    have hnone : findJob db.jobs job.invocationId = none := by
      refine List.find?_eq_none.mpr fun r hr => ?_
      have hne : r.invocationId ≠ job.invocationId := (apart r hr).1
      simp [hne]
    have hsome := hinv'.findJob (List.mem_append_right db.jobs (List.mem_singleton.mpr rfl))
    simp only [lifeOf, hnone, hsome, Option.map_some, Option.map_none,
      dispatchOf_ready queued first]
    exact .enqueue
  | start job attemptId workerId digest now expiry mem first ok held =>
    obtain ⟨hqueued, -⟩ := hatt.waiting job mem first
    simp only [lifeOf, findJob_opened, if_true, hinv.findJob mem, Option.map_some,
      dispatchOf_ready hqueued first]
    exact .grant _ _
  | change job a f g s memJob memAttempt running held work same ok held' step =>
    simp only [lifeOf, findJob_changed work, if_true, hinv.findJob memJob, Option.map_some]
    exact step

/-- A shift is no step for another job. -/
theorem Shift.view_other (h : Shift py db i s db') {m : String} (hm : m ≠ i) :
    lifeOf db' m = lifeOf db m := by
  cases h with
  | insert job apart ok queued first =>
    have hne : ¬job.invocationId = m := fun e => hm e.symm
    simp [lifeOf, findJob, List.find?_append, hne]
  | start job attemptId workerId digest now expiry mem first ok held =>
    rw [lifeOf, lifeOf, findJob_opened, if_neg hm]
  | change job a f g s memJob memAttempt running held work same ok held' step =>
    rw [lifeOf, lifeOf, findJob_changed work, if_neg hm]

/-- **The row of a job that is neither waiting nor running stays as it is.** -/
theorem Shift.settled (h : Shift py db i s db') (hinv : JobInv py db) {job : JobRow}
    (hjob : job ∈ db.jobs) (hrunning : job.status ≠ .running) (hstarted : job.attemptsStarted ≠ 0) :
    job ∈ db'.jobs := by
  cases h with
  | insert => exact List.mem_append_left _ hjob
  | start q attemptId workerId digest now expiry mem first ok held =>
    have hne : job.invocationId ≠ q.invocationId := by
      intro e
      obtain rfl := hinv.eq_of_id hjob mem e
      exact hstarted first
    exact mem_updateWhere.mpr ⟨job, hjob, by simp [hne]⟩
  | change q a f g s memJob memAttempt running held work same ok held' step =>
    have hne : job.invocationId ≠ q.invocationId := by
      intro e
      obtain rfl := hinv.eq_of_id hjob memJob e
      exact hrunning running
    exact mem_updateWhere.mpr ⟨job, hjob, by simp [hne]⟩

/-- The attempt of such a job stays as it is, too. -/
theorem Shift.settled_attempt (h : Shift py db i s db') (hinv : JobInv py db)
    {job : JobRow} {a : AttemptRow} (hjob : job ∈ db.jobs) (ha : a ∈ db.attempts)
    (hid : a.invocationId = job.invocationId) (hrunning : job.status ≠ .running) :
    a ∈ db'.attempts := by
  cases h with
  | insert => exact ha
  | start => exact List.mem_append_left _ ha
  | change q b f g s memJob memAttempt running held work same ok held' step =>
    have hne : a.invocationId ≠ q.invocationId := by
      intro e
      obtain rfl := hinv.eq_of_id hjob memJob (hid.symm.trans e)
      exact hrunning running
    exact mem_updateWhere.mpr ⟨a, ha, by simp [hne]⟩

end

/-! ## Runs of shifts -/

/-- The two tables as a system: its labels name the job a shift is about. -/
def shifts (py : PyVersion) : System Db (String × SingleDispatch.Signal String String Outcome) :=
  ⟨fun db => db = Db.empty, fun db l db' => Shift py db l.1 l.2 db'⟩

theorem Shift.run {db db' : Db} {i : String} {s : SingleDispatch.Signal String String Outcome}
    (h : Shift py db i s db') : TransitionSystem.Run (shifts py) db [(i, s)] db' :=
  .next (show (shifts py).step db (i, s) db' from h) (.done db')

/-- The signals of one job. -/
def signalsFor (invocationId : String)
    (ls : List (String × SingleDispatch.Signal String String Outcome)) :
    List (SingleDispatch.Signal String String Outcome) :=
  (ls.filter (fun l => l.1 = invocationId)).map (·.2)

/-- What an invariant of both tables says. -/
structure TablesInv (py : PyVersion) (db : Db) : Prop where
  jobs : JobInv py db
  attempts : AttemptInv py db

theorem tablesInv_empty (py : PyVersion) : TablesInv py Db.empty :=
  ⟨jobInv_empty py, attemptInv_empty py⟩

theorem TablesInv.shift {db db' : Db} {i : String}
    {s : SingleDispatch.Signal String String Outcome} (hinv : TablesInv py db)
    (h : Shift py db i s db') : TablesInv py db' :=
  ⟨(h.moves hinv.jobs).inv, h.attempts hinv.jobs hinv.attempts⟩

/-- **What a run of shifts keeps, and what it leaves alone.** -/
theorem shifts_run {db db' : Db} {ls : List (String × SingleDispatch.Signal String String Outcome)}
    (h : TransitionSystem.Run (shifts py) db ls db') (hinv : TablesInv py db) :
    TablesInv py db' ∧ OnlyJobs db db' := by
  induction h with
  | done db => exact ⟨hinv, .refl db⟩
  | next hs _ ih =>
    obtain ⟨hinv', honly⟩ := ih (hinv.shift hs)
    exact ⟨hinv', (Shift.moves hs hinv.jobs).only.trans honly⟩

/-- **A run of shifts is a run of each job's life.** -/
theorem shifts_life {db db' : Db} {ls : List (String × SingleDispatch.Signal String String Outcome)}
    (h : TransitionSystem.Run (shifts py) db ls db') (hinv : TablesInv py db) (i : String) :
    TransitionSystem.Run SingleDispatch.life (lifeOf db i) (signalsFor i ls) (lifeOf db' i) := by
  induction h with
  | done db => exact .done _
  | @next s s' s'' l ls hs _ ih =>
    have hrest := ih (hinv.shift hs)
    by_cases hi : l.1 = i
    · have hone : signalsFor i (l :: ls) = l.2 :: signalsFor i ls := by simp [signalsFor, hi]
      rw [hone]
      subst hi
      exact .next (Shift.view_self hs hinv.jobs hinv.attempts) hrest
    · have hnone : signalsFor i (l :: ls) = signalsFor i ls := by simp [signalsFor, hi]
      rw [hnone, ← Shift.view_other hs (fun e => hi e.symm)]
      exact hrest

/-- **A settled job and its attempt stay as they are along a run.** -/
theorem shifts_settled {db db' : Db}
    {ls : List (String × SingleDispatch.Signal String String Outcome)}
    (h : TransitionSystem.Run (shifts py) db ls db') (hinv : TablesInv py db) {job : JobRow}
    {a : AttemptRow} (hjob : job ∈ db.jobs) (ha : a ∈ db.attempts)
    (hid : a.invocationId = job.invocationId) (hrunning : job.status ≠ .running)
    (hstarted : job.attemptsStarted ≠ 0) : job ∈ db'.jobs ∧ a ∈ db'.attempts := by
  induction h with
  | done db => exact ⟨hjob, ha⟩
  | next hs _ ih =>
    exact ih (hinv.shift hs) (Shift.settled hs hinv.jobs hjob hrunning hstarted)
      (Shift.settled_attempt hs hinv.jobs hjob ha hid hrunning)

end QuantumEntanglement.Attempts
