import QuantumEntanglement.Attempts.Store

/-
  The job invariant — every stored job is one the reader accepts

  Each operation of the attempt store keeps two facts about the jobs: a row
  passes `rowToJob`, and no two rows share an invocation, a session and task,
  or a session and key. It rewrites no column of the request a row was
  inserted for, and no other table than the jobs and the attempts.

  What is proved:
    1. `JobOk.started`, `.beaten`, `.succeeded`, `.ended` — what each UPDATE
       writes is accepted again, given what its guard checked.
    2. `enqueueInTransaction_ok` — a request is inserted, or matches a row.
    3. `JobMoves` — what a step may move; `JobMoves.update` is the rule for an
       UPDATE of the jobs.
-/

namespace QuantumEntanglement.Attempts

open Transaction PyText IsoTime Sha256

/-! ## The request a job was inserted for -/

/-- The columns no operation rewrites. -/
structure InvocationWork where
  invocationId : String
  sessionId : String
  planId : String
  taskId : String
  agentId : String
  idempotencyKey : String
  payloadDigest : String
  priority : Nat
  maxAttempts : Nat
  requestedAvailableAt : Option String
  createdAt : String
  deriving DecidableEq

def workOf (row : JobRow) : InvocationWork :=
  { invocationId := row.invocationId
    sessionId := row.sessionId
    planId := row.planId
    taskId := row.taskId
    agentId := row.agentId
    idempotencyKey := row.idempotencyKey
    payloadDigest := row.payloadDigest
    priority := row.priority
    maxAttempts := row.maxAttempts
    requestedAvailableAt := row.requestedAvailableAt
    createdAt := row.createdAt }

/-- The UNIQUE constraints of `invocation_jobs` on a request. -/
def Apart (a b : InvocationWork) : Prop :=
  a.invocationId ≠ b.invocationId ∧
  ¬(a.sessionId = b.sessionId ∧ a.taskId = b.taskId) ∧
  ¬(a.sessionId = b.sessionId ∧ a.idempotencyKey = b.idempotencyKey)

theorem Apart.symm {a b : InvocationWork} (h : Apart a b) : Apart b a :=
  ⟨fun e => h.1 e.symm, fun e => h.2.1 ⟨e.1.symm, e.2.symm⟩,
    fun e => h.2.2 ⟨e.1.symm, e.2.symm⟩⟩

/-- What the jobs of a database satisfy. -/
structure JobInv (py : PyVersion) (db : Db) : Prop where
  ok : ∀ job ∈ db.jobs, JobOk py job
  apart : db.jobs.Pairwise (fun a b => Apart (workOf a) (workOf b))

theorem jobInv_empty (py : PyVersion) : JobInv py Db.empty :=
  ⟨by simp [Db.empty], by simp [Db.empty]⟩

theorem JobInv.congr {py : PyVersion} {db db' : Db} (h : JobInv py db)
    (hjobs : db'.jobs = db.jobs) : JobInv py db' :=
  ⟨by rw [hjobs]; exact h.ok, by rw [hjobs]; exact h.apart⟩

/-- Two jobs that share an identity are one. -/
theorem JobInv.eq_of_not_apart {py : PyVersion} {db : Db} (h : JobInv py db) {a b : JobRow}
    (ha : a ∈ db.jobs) (hb : b ∈ db.jobs) (hsame : ¬Apart (workOf a) (workOf b)) : a = b := by
  by_contra hne
  have hsymm : Std.Symm (fun a b : JobRow => Apart (workOf a) (workOf b)) :=
    ⟨fun _ _ hab => hab.symm⟩
  exact hsame (h.apart.forall ha hb hne)

theorem JobInv.eq_of_id {py : PyVersion} {db : Db} (h : JobInv py db) {a b : JobRow}
    (ha : a ∈ db.jobs) (hb : b ∈ db.jobs) (hid : a.invocationId = b.invocationId) : a = b :=
  h.eq_of_not_apart ha hb (fun hapart => hapart.1 hid)

/-! ## What an operation may move -/

/-- Jobs keep their place and their request; new ones come after them. -/
def JobsKept (db db' : Db) : Prop :=
  ∃ (f : JobRow → JobRow) (more : List JobRow), (∀ j, workOf (f j) = workOf j) ∧
    db'.jobs = db.jobs.map f ++ more

/-- An operation of the attempt store leaves every other table alone. -/
structure OnlyJobs (db db' : Db) : Prop where
  events : db'.events = db.events
  outbox : db'.outbox = db.outbox
  inbox : db'.inbox = db.inbox
  ambiguities : db'.ambiguities = db.ambiguities
  admissions : db'.admissions = db.admissions
  jobs : JobsKept db db'

theorem JobsKept.refl (db : Db) : JobsKept db db :=
  ⟨id, [], fun _ => rfl, by simp⟩

theorem JobsKept.trans {a b c : Db} (h : JobsKept a b) (h' : JobsKept b c) : JobsKept a c := by
  obtain ⟨f, more, hf, hb⟩ := h
  obtain ⟨g, more', hg, hc⟩ := h'
  refine ⟨g ∘ f, more.map g ++ more', fun j => (hg _).trans (hf j), ?_⟩
  rw [hc, hb]
  simp

theorem JobsKept.of_eq {db db' : Db} (h : db'.jobs = db.jobs) : JobsKept db db' :=
  ⟨id, [], fun _ => rfl, by simp [h]⟩

theorem OnlyJobs.refl (db : Db) : OnlyJobs db db :=
  ⟨rfl, rfl, rfl, rfl, rfl, .refl db⟩

theorem OnlyJobs.trans {a b c : Db} (h : OnlyJobs a b) (h' : OnlyJobs b c) : OnlyJobs a c :=
  ⟨h'.events.trans h.events, h'.outbox.trans h.outbox, h'.inbox.trans h.inbox,
    h'.ambiguities.trans h.ambiguities, h'.admissions.trans h.admissions, h.jobs.trans h'.jobs⟩

/-- A step of an operation: the invariant is kept, the rest left alone. -/
structure JobMoves (py : PyVersion) (db db' : Db) : Prop where
  inv : JobInv py db'
  only : OnlyJobs db db'

theorem JobMoves.trans {py : PyVersion} {a b c : Db} (h : JobMoves py a b) (h' : JobMoves py b c) :
    JobMoves py a c :=
  ⟨h'.inv, h.only.trans h'.only⟩

/-! ## The row of an invocation -/

theorem findJob_mem {jobs : List JobRow} {invocationId : String} {job : JobRow}
    (h : findJob jobs invocationId = some job) : job ∈ jobs ∧ job.invocationId = invocationId :=
  ⟨List.mem_of_find?_eq_some h, by simpa using List.find?_some h⟩

theorem JobInv.findJob {py : PyVersion} {db : Db} (h : JobInv py db) {job : JobRow}
    (hmem : job ∈ db.jobs) : findJob db.jobs job.invocationId = some job := by
  cases hfind : Attempts.findJob db.jobs job.invocationId with
  | none =>
    have hnot := List.find?_eq_none.mp hfind job hmem
    simp at hnot
  | some found =>
    obtain ⟨hfound, hid⟩ := findJob_mem hfind
    rw [h.eq_of_id hfound hmem hid]

theorem findJob_updateWhere {f : JobRow → JobRow} (hf : ∀ j, (f j).invocationId = j.invocationId)
    (rows : List JobRow) (i m : String) :
    findJob (updateWhere (fun r => r.invocationId = i) f rows) m =
      if m = i then (findJob rows m).map f else findJob rows m := by
  induction rows with
  | nil => simp [findJob, updateWhere]
  | cons r rest ih =>
    have hid : (if decide (r.invocationId = i) = true then f r else r).invocationId =
        r.invocationId := by
      split
      · exact hf r
      · rfl
    simp only [findJob, updateWhere, List.map_cons, List.find?_cons, hid] at ih ⊢
    cases hm : decide (r.invocationId = m) with
    | false => exact ih
    | true =>
      obtain rfl := of_decide_eq_true hm
      by_cases hmi : r.invocationId = i <;> simp [hmi]

/-! ## Statements -/

theorem updateJobs_ok {p : Db → JobRow → Bool} {f : JobRow → JobRow} {n : Nat} {db db' : Db} :
    updateJobs p f db = (.ok n, db') ↔
      n = db.jobs.countP (p db) ∧ db' = { db with jobs := updateWhere (p db) f db.jobs } := by
  simp only [updateJobs, Txn.bind_ok, Txn.query_ok, Txn.update_ok, Txn.pure_ok]
  constructor
  · rintro ⟨_, _, ⟨rfl, rfl⟩, _, _, rfl, rfl, rfl⟩
    exact ⟨rfl, rfl⟩
  · rintro ⟨rfl, rfl⟩
    exact ⟨_, _, ⟨rfl, rfl⟩, (), _, rfl, rfl, rfl⟩

theorem updateAttempts_ok {p : AttemptRow → Bool} {f : AttemptRow → AttemptRow} {n : Nat}
    {db db' : Db} :
    updateAttempts p f db = (.ok n, db') ↔
      n = db.attempts.countP p ∧ db' = { db with attempts := updateWhere p f db.attempts } := by
  simp only [updateAttempts, Txn.bind_ok, Txn.query_ok, Txn.update_ok, Txn.pure_ok]
  constructor
  · rintro ⟨_, _, ⟨rfl, rfl⟩, _, _, rfl, rfl, rfl⟩
    exact ⟨rfl, rfl⟩
  · rintro ⟨rfl, rfl⟩
    exact ⟨_, _, ⟨rfl, rfl⟩, (), _, rfl, rfl, rfl⟩

/-- An UPDATE that writes accepted rows and keeps their requests. -/
theorem JobMoves.update {py : PyVersion} {db : Db} {p : JobRow → Bool} {f : JobRow → JobRow}
    (hinv : JobInv py db) (hwork : ∀ j, workOf (f j) = workOf j)
    (hok : ∀ j ∈ db.jobs, p j = true → JobOk py (f j)) :
    JobMoves py db { db with jobs := updateWhere p f db.jobs } := by
  have hkept : ∀ j, workOf (if p j then f j else j) = workOf j := by
    intro j
    split
    · exact hwork j
    · rfl
  refine ⟨⟨?_, ?_⟩, rfl, rfl, rfl, rfl, rfl, fun j => if p j then f j else j, [], hkept, ?_⟩
  · intro job hmem
    obtain ⟨q, hq, rfl⟩ := mem_updateWhere.mp hmem
    split
    next hp => exact hok q hq hp
    next => exact hinv.ok q hq
  · refine List.pairwise_map.mpr (hinv.apart.imp ?_)
    intro a b hab
    rw [hkept, hkept]
    exact hab
  · simp [updateWhere]

/-- The attempts are no part of it. -/
theorem JobMoves.attempts {py : PyVersion} {db : Db} (hinv : JobInv py db)
    (attempts : List AttemptRow) : JobMoves py db { db with attempts := attempts } :=
  ⟨hinv.congr rfl, rfl, rfl, rfl, rfl, rfl, .of_eq rfl⟩

theorem requireNonRegressingClock_ok {now : String} {times : List String} {u : Unit} {db db' : Db} :
    requireNonRegressingClock now times db = (.ok u, db') ↔ (∀ t ∈ times, ¬now < t) ∧ db = db' := by
  simp only [requireNonRegressingClock, Txn.ensure_ok]

theorem laterText_cases (a b : String) :
    (laterText a b = a ∧ ¬a < b) ∨ (laterText a b = b ∧ a < b) := by
  unfold laterText
  split
  next h => exact .inr ⟨rfl, h⟩
  next h => exact .inl ⟨rfl, h⟩

theorem lt_laterText {now a b : String} (ha : now < a) (hb : now < b) : now < laterText a b := by
  rcases laterText_cases a b with ⟨heq, -⟩ | ⟨heq, -⟩ <;> rw [heq] <;> assumption

theorem laterText_persisted {py : PyVersion} {a b : String} (ha : PersistedTimestamp py a)
    (hb : PersistedTimestamp py b) : PersistedTimestamp py (laterText a b) := by
  rcases laterText_cases a b with ⟨heq, -⟩ | ⟨heq, -⟩ <;> rw [heq] <;> assumption

/-! ## What the UPDATEs write -/

variable {py : PyVersion}

theorem JobOk.started {job : JobRow} {workerId leaseToken expiry now : String} (h : JobOk py job)
    (hfirst : job.attemptsStarted = 0) (huntouched : isUntouched job = true)
    (hworker : TextOk maxIdentityBytes workerId) (hnow : PersistedTimestamp py now)
    (hexpiry : PersistedTimestamp py expiry) (hlt : now < expiry) (hclock : ¬now < job.createdAt) :
    JobOk py (startedJob job workerId (hexDigest leaseToken) expiry now) := by
  obtain ⟨⟨hmax, -, -, -, -, -, -, -, -, hpriority⟩, -, -, ⟨hreq, havail, hcreated, -⟩, htexts⟩ := h
  simp only [isUntouched, Bool.and_eq_true, decide_eq_true_eq, Option.isNone_iff_eq_none]
    at huntouched
  obtain ⟨⟨hepoch, hresult⟩, herror⟩ := huntouched
  refine ⟨?_, ?_, ?_, ?_, htexts⟩
  · have hone : 1 ≤ maxSqliteInteger := by decide
    simp [JobCountsOk, startedJob, hfirst, hepoch, hmax, hpriority, hone]
  · simp [JobLeaseOk, startedJob, hworker, persistedDigest_hexDigest, hnow, hexpiry]
  · simp [JobOutcomeOk, startedJob, hresult, herror, hfirst]
  · refine ⟨hreq, havail, hcreated, hnow, hclock, by simp [startedJob], fun _ => ⟨?_, ?_⟩⟩
    · rintro v ⟨⟩
      refine ⟨hclock, lt_irrefl now, ?_⟩
      rintro e ⟨⟩
      exact hlt
    · rintro e ⟨⟩
      exact hlt

theorem JobOk.beaten {job : JobRow} {deadline now : String} (h : JobOk py job)
    (hrunning : job.status = .running) (hnow : PersistedTimestamp py now)
    (hdeadline : PersistedTimestamp py deadline) (hlt : now < deadline)
    (hclock : ¬now < job.updatedAt) : JobOk py (beatenJob job now deadline) := by
  obtain ⟨hcounts, hlease, houtcome, ⟨hreq, havail, hcreated, hupdated, hafter, hfinished, -⟩,
    htexts⟩ := h
  have hcreatedNow : ¬now < job.createdAt := fun hbad => hafter (lt_of_le_of_lt (not_lt.mp hclock) hbad)
  refine ⟨hcounts, ?_, houtcome, ?_, htexts⟩
  · obtain ⟨howner, hdigest, -, -, hset, -⟩ := hlease
    refine ⟨howner, hdigest, ?_, ?_, ?_, ?_⟩
    · simpa [beatenJob] using hdeadline
    · simpa [beatenJob] using hnow
    · intro _
      have := hset hrunning
      simp [beatenJob, this.1, this.2.1]
    · intro hne
      exact absurd hrunning hne
  · have hnone : job.finishedAt = none := by
      have hiff := houtcome.2.1
      rw [hrunning] at hiff
      simpa using hiff
    refine ⟨hreq, havail, hcreated, hnow, hcreatedNow, ?_, ?_⟩
    · intro v hv
      simp [beatenJob, hnone] at hv
    · refine fun _ => ⟨?_, ?_⟩
      · rintro v ⟨⟩
        refine ⟨hcreatedNow, lt_irrefl now, ?_⟩
        rintro e ⟨⟩
        exact hlt
      · rintro e ⟨⟩
        exact hlt

theorem JobOk.succeeded {job : JobRow} {resultRef : Option String} {now : String} (h : JobOk py job)
    (hrunning : job.status = .running) (hnow : PersistedTimestamp py now)
    (hresult : ∀ v ∈ resultRef, TextOk maxReferenceBytes v) (hclock : ¬now < job.updatedAt) :
    JobOk py (succeededJob job resultRef now) := by
  obtain ⟨⟨hmax, hle, hepoch, hepochs, hzero, -, -, hstarted, -, hpriority⟩, -,
    ⟨-, -, herror, hnoError, -, -, -⟩, ⟨hreq, havail, hcreated, -, hafter, -, -⟩, htexts⟩ := h
  have hcreatedNow : ¬now < job.createdAt := fun hbad => hafter (lt_of_le_of_lt (not_lt.mp hclock) hbad)
  refine ⟨?_, ?_, ?_, ?_, htexts⟩
  · simp [JobCountsOk, succeededJob, hmax, hle, hepoch, hepochs, hstarted hrunning, hpriority]
  · simp [JobLeaseOk, succeededJob]
  · exact ⟨by simpa [succeededJob] using hnow, by simp [succeededJob], herror, hnoError,
      by simp [succeededJob], hresult, by simp [succeededJob]⟩
  · refine ⟨hreq, havail, hcreated, hnow, hcreatedNow, ?_, by simp [succeededJob]⟩
    rintro v ⟨⟩
    exact ⟨hcreatedNow, lt_irrefl now⟩

/-- A job whose attempt ended without a result: failed, or queued again. -/
theorem JobOk.ended {job : JobRow} {error availableAt now : String} (h : JobOk py job)
    (hrunning : job.status = .running) (hnow : PersistedTimestamp py now)
    (hretry : PersistedTimestamp py availableAt) (herror : TextOk maxErrorBytes error)
    (hlength : error.length ≤ maxErrorLength) (hclock : ¬now < job.createdAt) :
    JobOk py (failedJob job error availableAt now) := by
  obtain ⟨⟨hmax, hle, hepoch, hepochs, hzero, -, -, hstarted, -, hpriority⟩, -,
    ⟨-, hfinal, -, -, -, -, hresult⟩, ⟨hreq, havail, hcreated, -, hafter, -, -⟩, htexts⟩ := h
  have hnone : job.finishedAt = none := by
    rw [hrunning] at hfinal
    simpa using hfinal
  have hnoResult : job.resultRef = none := by
    rw [hrunning] at hresult
    simpa using hresult
  have hstarted' := hstarted hrunning
  unfold failedJob
  split
  next hlast =>
    have heq : job.attemptsStarted = job.maxAttempts := Nat.le_antisymm hle hlast
    refine ⟨?_, ?_, ?_, ?_, htexts⟩
    · simp [JobCountsOk, hmax, hepoch, hpriority, heq]
      omega
    · simp [JobLeaseOk]
    · simp [JobOutcomeOk, hnow, herror, hlength, hstarted', hnoResult]
    · refine ⟨hreq, havail, hcreated, hnow, hclock, ?_, by simp⟩
      rintro v ⟨⟩
      exact ⟨hclock, lt_irrefl now⟩
  next hleft =>
    refine ⟨?_, ?_, ?_, ?_, htexts⟩
    · simp [JobCountsOk, hmax, hle, hepoch, hepochs, hstarted', hpriority]
      omega
    · simp [JobLeaseOk]
    · simp [JobOutcomeOk, hnone, herror, hlength, hstarted', hnoResult]
    · exact ⟨hreq, hretry, hcreated, hnow, hclock, by simp [hnone], by simp⟩

/-- An expired lease ends its attempt like a failure at that moment. -/
theorem expiredJob_eq (job : JobRow) (now : String) :
    expiredJob job now = failedJob job recoveryReason now now := rfl

/-! ## Enqueueing -/

/-- What `enqueueInTransaction` did: it found the row of the same request, or
inserted a row that shares no identity with another. -/
theorem enqueueInTransaction_ok {spec : InvocationJobSpec py} {now : String} {job : JobRow}
    {db db' : Db} (h : enqueueInTransaction py spec now db = (.ok job, db')) :
    (db' = db ∧ job ∈ db.jobs ∧ existingMatches py job spec = .ok true) ∨
    (∃ requested availableAt created,
      spec.requestedAvailableAt = .ok requested ∧ normalizeTimestamp py now "now" = .ok created ∧
      job = queuedRow spec requested availableAt created ∧
      (∀ r ∈ db.jobs, Apart (workOf r) (workOf job)) ∧ JobOk py job ∧
      db' = { db with jobs := db.jobs ++ [job] }) := by
  simp only [enqueueInTransaction, Txn.bind_ok, Txn.lift_ok, Txn.query_ok] at h
  obtain ⟨created, _, ⟨hcreated, rfl⟩, availableAt, _, ⟨havailable, rfl⟩, rows, _, ⟨hrows, rfl⟩, h⟩ := h
  split at h
  next =>
    simp only [Txn.bind_ok, Txn.lift_ok, Txn.query_ok, Txn.update_ok] at h
    obtain ⟨requested, _, ⟨hrequested, rfl⟩, _, _, rfl, found, _, ⟨hfound, rfl⟩, h⟩ := h
    have hnone : ∀ r ∈ db.jobs, sharesIdentity spec r = false := by
      intro r hr
      simpa using List.filter_eq_nil_iff.mp hrows r hr
    have hapart : ∀ r ∈ db.jobs,
        Apart (workOf r) (workOf (queuedRow spec requested availableAt created)) := by
      intro r hr
      have hfalse := hnone r hr
      simp only [sharesIdentity, Bool.or_eq_false_iff, Bool.and_eq_false_iff,
        decide_eq_false_iff_not] at hfalse
      obtain ⟨⟨hid, htask⟩, hkey⟩ := hfalse
      exact ⟨hid, not_and_or.mpr htask, not_and_or.mpr hkey⟩
    split at h
    · simp at h
    next row =>
      have hrow : row = queuedRow spec requested availableAt created := by
        have hbefore : db.jobs.find? (fun r => decide (r.invocationId = spec.invocationId)) = none := by
          rw [List.find?_eq_none]
          intro r hr
          have hid : r.invocationId ≠ spec.invocationId := (hapart r hr).1
          simpa using hid
        simpa [findJob, List.find?_append, hbefore, queuedRow, eq_comm] using hfound
      simp only [Txn.lift_ok, rowToJob_ok] at h
      obtain ⟨⟨hok, rfl⟩, rfl⟩ := h
      subst hrow
      exact .inr ⟨requested, availableAt, created, hrequested, hcreated, rfl, hapart, hok, rfl⟩
  next row =>
    simp only [Txn.bind_ok, Txn.lift_ok] at h
    obtain ⟨same, _, ⟨hsame, rfl⟩, h⟩ := h
    split at h
    next htrue =>
      simp only [Txn.lift_ok, rowToJob_ok] at h
      obtain ⟨⟨-, rfl⟩, rfl⟩ := h
      have hmem : job ∈ db.jobs.filter (sharesIdentity spec) := by rw [hrows]; simp
      rw [htrue] at hsame
      exact .inl ⟨rfl, (List.mem_filter.mp hmem).1, hsame⟩
    next => simp [Txn.raise_ok] at h
  next => simp at h

/-! ## Claiming -/

theorem firstToClaim_mem {rows : List JobRow} {job : JobRow} (h : firstToClaim rows = some job) :
    job ∈ rows := by
  have hmem := List.mem_of_mem_head? h
  exact (List.perm_insertionSort _ rows).mem_iff.mp hmem

theorem requiredOptional_ok {value v : Option String} {name : String} :
    requiredOptional value name = .ok v ↔ (∀ t ∈ value, TextOk maxIdentityBytes t) ∧ v = value := by
  cases value with
  | none => simp [requiredOptional, eq_comm]
  | some t =>
    simp only [requiredOptional]
    cases hreq : required t name maxIdentityBytes with
    | ok u =>
      obtain ⟨htext, rfl⟩ := required_ok.mp hreq
      simp [Except.map, htext, eq_comm]
    | error e =>
      have hnot : ¬TextOk maxIdentityBytes t := by
        intro htext
        rw [required_ok.mpr ⟨htext, rfl⟩] at hreq
        simp at hreq
      simp [Except.map, hnot]

/-- The candidate of a first claim: untouched, due, and not ahead of the
clock. -/
theorem selectFirstClaim_ok {workerId now : String} {invocationId : Option String}
    {found : Option JobRow} {db db' : Db}
    (h : selectFirstClaim py workerId invocationId now db = (.ok found, db')) :
    db' = db ∧ ∀ job ∈ found, job ∈ db.jobs ∧ JobOk py job ∧ job.status = .queued ∧
      job.attemptsStarted = 0 ∧ isUntouched job = true ∧
      (∀ i ∈ invocationId, job.invocationId = i) ∧
      ∃ t, normalizeTimestamp py now "now" = .ok t ∧ ¬t < job.availableAt ∧ ¬t < job.createdAt := by
  simp only [selectFirstClaim, Txn.bind_ok, Txn.lift_ok, Txn.query_ok] at h
  obtain ⟨_, _, ⟨-, rfl⟩, i, _, ⟨hi, rfl⟩, t, _, ⟨ht, rfl⟩, first, _, ⟨hfirst, rfl⟩, h⟩ := h
  obtain ⟨-, rfl⟩ := requiredOptional_ok.mp hi
  split at h
  · simp only [Txn.pure_ok] at h
    obtain ⟨rfl, rfl⟩ := h
    simp
  next row =>
    simp only [Txn.bind_ok, Txn.lift_ok, Txn.query_ok, Txn.ensure_ok] at h
    obtain ⟨candidate, _, ⟨-, rfl⟩, started, _, ⟨hstarted, rfl⟩, _, _, ⟨-, rfl⟩, again, _,
      ⟨hagain, rfl⟩, h⟩ := h
    split at h
    · simp at h
    next row' =>
      simp only [Txn.bind_ok, Txn.lift_ok, Txn.ensure_ok, Txn.pure_ok, rowToJob_ok,
        requireNonRegressingClock_ok] at h
      obtain ⟨job, _, ⟨⟨hok, rfl⟩, rfl⟩, _, _, ⟨-, rfl⟩, _, _, ⟨hclock, rfl⟩, _, _, ⟨-, rfl⟩, _, _,
        ⟨-, rfl⟩, rfl, rfl⟩ := h
      have hmem := List.mem_filter.mp (firstToClaim_mem hagain)
      simp only [isFirstClaim, Bool.and_eq_true, decide_eq_true_eq, Bool.not_eq_true',
        decide_eq_false_iff_not] at hmem
      obtain ⟨hjob, ⟨⟨⟨hqueued, hzero⟩, hdue⟩, hnamed⟩, huntouched⟩ := hmem
      refine ⟨rfl, ?_⟩
      rintro j ⟨⟩
      refine ⟨hjob, hok, hqueued, hzero, huntouched, ?_, t, ht, hdue, hclock _ (by simp)⟩
      rintro i ⟨⟩
      simpa using hnamed

/-! ## The holder of a lease -/

theorem isOwned_running {lease : InvocationLease} {now : String} {job : JobRow}
    (h : isOwned lease now job = true) : job.status = .running ∧
      ∃ e, job.leaseExpiresAt = some e ∧ now < e := by
  simp only [isOwned, Bool.and_eq_true, decide_eq_true_eq] at h
  obtain ⟨⟨⟨⟨⟨-, hrunning⟩, -⟩, -⟩, -⟩, hexpiry⟩ := h
  refine ⟨hrunning, ?_⟩
  split at hexpiry
  · simp at hexpiry
  next e he => exact ⟨e, he, by simpa using hexpiry⟩

theorem updateOwnAttempt_ok {lease : InvocationLease} {f : AttemptRow → AttemptRow} {u : Unit}
    {db db' : Db} (h : updateOwnAttempt lease f db = (.ok u, db')) :
    db' = { db with attempts := updateWhere (isAttemptOf lease) f db.attempts } := by
  simp only [updateOwnAttempt, Txn.bind_ok, Txn.ensure_ok, updateAttempts_ok] at h
  obtain ⟨_, _, ⟨-, rfl⟩, -, rfl⟩ := h
  rfl

theorem requiredReference_ok {value v : Option String} (h : requiredReference value = .ok v) :
    (∀ t ∈ v, TextOk maxReferenceBytes t) ∧ value = v := by
  cases value with
  | none =>
    cases h
    simp
  | some t =>
    rw [requiredReference] at h
    cases hreq : required t "result_ref" maxReferenceBytes with
    | error e => simp [hreq, Except.map] at h
    | ok u =>
      simp only [hreq, Except.map, Except.ok.injEq] at h
      obtain ⟨htext, rfl⟩ := required_ok.mp hreq
      subst h
      simpa using htext

/-- The first characters of a text's inside are a text again. -/
theorem storedError_ok {error stored : String} (h : storedError error = .ok stored) :
    TextOk maxErrorBytes stored ∧ stored.length ≤ maxErrorLength := by
  simp only [storedError, except_bind_ok, required_ok, Except.ok.injEq] at h
  obtain ⟨value, ⟨⟨hblank, hsize, hcontrol⟩, hvalue⟩, rfl⟩ := h
  subst hvalue
  have hsub : ((strip value).toList.take maxErrorLength).Sublist value.toList :=
    (List.take_sublist _ _).trans (strip_sublist value)
  refine ⟨⟨?_, ?_, ?_⟩, ?_⟩
  · obtain ⟨c, rest, hstrip, hc⟩ := strip_head hblank
    rw [isBlank, String.toList_ofList, hstrip, show maxErrorLength = 4095 + 1 from rfl,
      List.take_succ_cons, List.all_cons, hc, Bool.false_and]
  · have hle := utf8ByteSize_sublist hsub
    rw [String.ofList_toList] at hle
    exact hle.trans hsize
  · rw [String.toList_ofList, List.any_eq_false]
    intro c hc
    exact List.any_eq_false.mp hcontrol c (hsub.subset hc)
  · rw [String.length_ofList, List.length_take]
    exact Nat.min_le_left _ _

end QuantumEntanglement.Attempts
