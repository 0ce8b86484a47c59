import QuantumEntanglement.Attempts.Shifts

/-
  The operations of the attempt store, as shifts

  Each operation that returned is taken apart once, into the shifts it made
  and what it answered. `Owns` is what the holder of a lease has proved when
  it writes.

  What is proved:
    1. `claimFirst_ok`, `claim_ok` — a claim fences expired leases and then
       starts one job, or none.
    2. `recoverRow_ok`, `recoverRows_ok`, `recoverExpired_ok` — only leases
       past their deadline are fenced.
    3. `heartbeat_ok`, `complete_ok`, `fail_ok` — the holder of a live lease
       changes both of its rows and is told so; anyone else is told false and
       changes nothing.
-/

namespace QuantumEntanglement.Attempts

open Transaction TransitionSystem SingleDispatch IsoTime Sha256

variable {py : PyVersion} {db db' : Db}

/-! ## Enqueueing -/

/-- A request is answered by the row it has, or by the row it gets. -/
theorem enqueueInTransaction_shift {spec : InvocationJobSpec py} {now : String} {job : JobRow}
    (h : enqueueInTransaction py spec now db = (.ok job, db')) :
    (db' = db ∧ job ∈ db.jobs ∧ existingMatches py job spec = .ok true) ∨
      (Shift py db job.invocationId .enqueued db' ∧ db' = { db with jobs := db.jobs ++ [job] }) := by
  rcases enqueueInTransaction_ok h with hold | ⟨_, _, _, -, -, heq, hapart, hok, rfl⟩
  · exact .inl hold
  · refine .inr ⟨.insert job hapart hok ?_ ?_, rfl⟩
    · rw [heq]
      rfl
    · rw [heq]
      rfl

theorem enqueue_ok {spec : InvocationJobSpec py} {clock : String} {job : JobRow}
    (h : enqueue py spec clock db = (.ok job, db')) :
    (db' = db ∧ job ∈ db.jobs ∧ existingMatches py job spec = .ok true) ∨
      (Shift py db job.invocationId .enqueued db' ∧ db' = { db with jobs := db.jobs ++ [job] }) := by
  simp only [enqueue, Txn.atomically_ok, Txn.bind_ok, Txn.lift_ok] at h
  obtain ⟨now, _, ⟨-, rfl⟩, h⟩ := h
  exact enqueueInTransaction_shift h

/-! ## Claiming -/

theorem insertAttempt_ok {row : AttemptRow} {u : Unit} :
    insertAttempt row db = (.ok u, db') ↔
      AttemptFresh db.attempts row ∧ db' = { db with attempts := db.attempts ++ [row] } := by
  simp only [insertAttempt, Txn.bind_ok, Txn.query_ok, Txn.ensure_ok, Txn.update_ok]
  constructor
  · rintro ⟨_, _, ⟨rfl, rfl⟩, _, _, ⟨hfresh, rfl⟩, rfl⟩
    exact ⟨hfresh, rfl⟩
  · rintro ⟨hfresh, rfl⟩
    exact ⟨_, _, ⟨rfl, rfl⟩, (), _, ⟨hfresh, rfl⟩, rfl⟩

/-- **A first claim starts one waiting job, or changes nothing.** -/
theorem claimFirst_ok {workerId now deadline attemptId leaseToken : String}
    {invocationId : Option String} {lease : Option InvocationLease} (hinv : TablesInv py db)
    (h : claimFirst py workerId invocationId now deadline attemptId leaseToken db =
      (.ok lease, db')) :
    (lease = none ∧ db' = db) ∨
      ∃ job t e, normalizeTimestamp py now "now" = .ok t ∧
        normalizeTimestamp py deadline "lease deadline" = .ok e ∧ job ∈ db.jobs ∧
        (∀ i ∈ invocationId, job.invocationId = i) ∧ job.attemptsStarted = 0 ∧
        lease = some (leaseOf job attemptId workerId leaseToken t e) ∧
        db' = opened db job attemptId workerId (hexDigest leaseToken) t e ∧
        Shift py db job.invocationId (.granted (hexDigest leaseToken) e) db' := by
  simp only [claimFirst, Txn.bind_ok, Txn.lift_ok, Txn.ensure_ok, required_ok] at h
  obtain ⟨worker, _, ⟨⟨hworker, rfl⟩, rfl⟩, t, _, ⟨ht, rfl⟩, e, _, ⟨he, rfl⟩, _, _, ⟨hlt, rfl⟩,
    attempt, _, ⟨⟨hattempt, rfl⟩, rfl⟩, token, _, ⟨⟨-, rfl⟩, rfl⟩, found, s, hfound, h⟩ := h
  obtain ⟨hs, hjob⟩ := selectFirstClaim_ok hfound
  rw [hs] at h
  split at h
  · simp only [Txn.pure_ok] at h
    exact .inl ⟨h.1.symm, h.2.symm⟩
  next job =>
    obtain ⟨hmem, hok, hqueued, hzero, huntouched, hnamed, t', ht', -, hclock⟩ := hjob job rfl
    rw [normalizeTimestamp_idem ht, Except.ok.injEq] at ht'
    subst ht'
    simp only [Txn.bind_ok, Txn.query_ok, Txn.ensure_ok, Txn.pure_ok, updateJobs_ok,
      insertAttempt_ok] at h
    obtain ⟨_, _, ⟨-, rfl⟩, _, _, ⟨-, rfl⟩, _, _, ⟨-, rfl⟩, _, _, ⟨-, rfl⟩, _, _, ⟨-, rfl⟩, rfl, rfl⟩ := h
    have hfresh := (hinv.attempts.waiting job hmem hzero).2
    have hopened : ({ db with
        jobs := updateWhere (isClaimTarget job.invocationId db)
          (startedJob · worker (hexDigest token) e t) db.jobs
        attempts := db.attempts ++ [openedAttempt job attempt worker (hexDigest token) t e] } : Db) =
        opened db job attempt worker (hexDigest token) t e := by
      rw [opened, updateWhere_congr (q := fun j => decide (j.invocationId = job.invocationId))]
      intro j hj
      by_cases hid : j.invocationId = job.invocationId
      · obtain rfl := hinv.jobs.eq_of_id hj hmem hid
        have hnone : db.attempts.any (fun a => decide (a.invocationId = j.invocationId)) = false := by
          rw [List.any_eq_false]
          intro a ha
          simpa using hfresh a ha
        simp [isClaimTarget, hqueued, hzero, huntouched, hnone]
      · simp [isClaimTarget, hid]
    have hstarted : JobOk py (startedJob job worker (hexDigest token) e t) :=
      hok.started hzero huntouched hworker (persisted_of_normalized ht)
        (persisted_of_normalized he) hlt hclock
    have hepoch : job.leaseEpoch = 0 := hok.counts.2.2.2.2.1 hzero
    refine .inr ⟨job, t, e, ht, he, hmem, hnamed, hzero, rfl, hopened, ?_⟩
    rw [hopened]
    exact .start job attempt worker (hexDigest token) t e hmem hzero hstarted
      (.opened hzero hepoch hok.texts.1 hattempt hworker (persisted_of_normalized ht)
        (persisted_of_normalized he) hlt hclock)

/-! ## Recovery -/

/-- The attempt a statement is about: running, under this number and epoch. -/
theorem loadRunningAttempt_ok {invocationId : String} {attemptNumber leaseEpoch : Nat}
    {attemptId : Option String} {attempt : AttemptRow}
    (h : loadRunningAttempt py invocationId attemptNumber leaseEpoch attemptId db =
      (.ok attempt, db')) :
    db' = db ∧ attempt ∈ db.attempts ∧ attempt.invocationId = invocationId ∧
      attempt.attemptNumber = attemptNumber ∧ attempt.leaseEpoch = leaseEpoch ∧
      attempt.status = .running := by
  simp only [loadRunningAttempt, Txn.bind_ok, Txn.query_ok] at h
  obtain ⟨rows, _, ⟨hrows, rfl⟩, h⟩ := h
  split at h
  next row =>
    simp only [Txn.lift_ok, rowToAttempt_ok] at h
    obtain ⟨⟨-, rfl⟩, rfl⟩ := h
    have hmem : attempt ∈ db.attempts.filter (fun a => a.invocationId = invocationId &&
        a.attemptNumber = attemptNumber && a.leaseEpoch = leaseEpoch && a.status = .running &&
          attemptId.all (· = a.attemptId)) := by
      rw [hrows]
      simp
    simp only [List.mem_filter, Bool.and_eq_true, decide_eq_true_eq] at hmem
    obtain ⟨hmem, ⟨⟨⟨hid, hnumber⟩, hepoch⟩, hstatus⟩, -⟩ := hmem
    exact ⟨rfl, hmem, hid, hnumber, hepoch, hstatus⟩
  · simp at h

/-- The rows of a running job. -/
structure Running (py : PyVersion) (db : Db) (job : JobRow) (a : AttemptRow) : Prop where
  memJob : job ∈ db.jobs
  memAttempt : a ∈ db.attempts
  running : job.status = .running
  held : Held py job a

/-- An UPDATE of the job of an invocation, and one of its attempt, each behind
a guard the rows pass. -/
theorem changed_eq {job : JobRow} {a : AttemptRow} (hinv : TablesInv py db)
    (h : Running py db job a) {p : JobRow → Bool} {q : AttemptRow → Bool} {f : JobRow → JobRow}
    {g : AttemptRow → AttemptRow} (hp : p job = true) (hq : q a = true)
    (hpid : ∀ j, p j = true → j.invocationId = job.invocationId)
    (hqid : ∀ b, q b = true → b.invocationId = job.invocationId) :
    ({ db with jobs := updateWhere p f db.jobs, attempts := updateWhere q g db.attempts } : Db) =
      changed db job.invocationId f g := by
  have hjobs : updateWhere p f db.jobs =
      updateWhere (fun j => decide (j.invocationId = job.invocationId)) f db.jobs := by
    refine updateWhere_congr fun j hj => ?_
    by_cases hid : j.invocationId = job.invocationId
    · obtain rfl := hinv.jobs.eq_of_id hj h.memJob hid
      simp [hp]
    · have hfalse : p j = false := by
        rw [← Bool.not_eq_true]
        exact fun htrue => hid (hpid j htrue)
      simp [hid, hfalse]
  have hattempts : updateWhere q g db.attempts =
      updateWhere (fun b => decide (b.invocationId = job.invocationId)) g db.attempts := by
    refine updateWhere_congr fun b hb => ?_
    by_cases hid : b.invocationId = job.invocationId
    · obtain rfl := hinv.attempts.eq_of_id hb h.memAttempt (hid.trans h.held.same.symm)
      simp [hq, hid]
    · have hfalse : q b = false := by
        rw [← Bool.not_eq_true]
        exact fun htrue => hid (hqid b htrue)
      simp [hid, hfalse]
  rw [changed, hjobs, hattempts]

theorem workOf_failedJob (job : JobRow) (error retryAt now : String) :
    workOf (failedJob job error retryAt now) = workOf job := by
  unfold failedJob
  split <;> rfl

theorem dispatchOf_failedJob {job : JobRow} (hstarted : job.attemptsStarted ≠ 0)
    (error retryAt now : String) :
    ∃ o, dispatchOf (failedJob job error retryAt now) = .ended o ∧ o.lastError = some error ∧
      o.resultRef = job.resultRef ∧ (o.status = .failed ∨ o.status = .queued) := by
  unfold failedJob
  split <;> simp [dispatchOf, hstarted]

/-- A running row as a lease. -/
theorem dispatchOf_running {job : JobRow} {a : AttemptRow} (h : Held py job a)
    (hrunning : job.status = .running) :
    dispatchOf job = .leased a.leaseTokenDigest a.leaseExpiresAt := by
  obtain ⟨-, -, hdigest, -, hexpiry⟩ := h.running hrunning
  simp [dispatchOf, hrunning, hdigest, hexpiry]

/-- A running lease past its deadline at `now`. -/
def PastDeadline (now : String) (job : JobRow) : Prop :=
  job.status = .running ∧ ∃ e, job.leaseExpiresAt = some e ∧ ¬now < e

/-- What fencing a job leaves behind. -/
def fencedAs (job : JobRow) (now : String) : Outcome :=
  ⟨(expiredJob job now).status, (expiredJob job now).resultRef, (expiredJob job now).lastError⟩

/-- **One turn of the recovery fences one lease, past its deadline.** -/
theorem recoverRow_ok {now : String} {row : JobRow} {out : String × Bool} (hinv : TablesInv py db)
    (hnow : PersistedTimestamp py now) (hmem : row ∈ db.jobs) (hpast : PastDeadline now row)
    (h : recoverRow py now row db = (.ok out, db')) :
    out = (row.invocationId, decide (row.maxAttempts ≤ row.attemptsStarted)) ∧
      db' = changed db row.invocationId (expiredJob · now)
        (endedAttempt · .expired recoveryReason now) ∧
      Shift py db row.invocationId (.fenced now (fencedAs row now)) db' := by
  simp only [recoverRow, Txn.bind_ok, Txn.lift_ok, rowToJob_ok, validateRunningAttemptOwner,
    Txn.ensure_ok, Txn.pure_ok, updateAttempts_ok, updateJobs_ok] at h
  obtain ⟨job, _, ⟨⟨hok, rfl⟩, rfl⟩, lease, _, ⟨-, rfl⟩, attempt, _, hattempt, _, _, ⟨-, rfl⟩,
    _, _, ⟨-, rfl⟩, _, _, ⟨-, rfl⟩, _, _, ⟨-, rfl⟩, _, _, ⟨-, rfl⟩, rfl, rfl⟩ := h
  obtain ⟨rfl, hattempt, hid, hnumber, hepoch, hstatus⟩ := loadRunningAttempt_ok hattempt
  obtain ⟨hrunning, e, he, hexpired⟩ := hpast
  have hheld := hinv.attempts.held hmem hattempt hid
  obtain ⟨-, -, -, -, hexpiry⟩ := hheld.running hrunning
  have heq : e = attempt.leaseExpiresAt := by
    rw [he, Option.some.injEq] at hexpiry
    exact hexpiry
  subst heq
  have hshape := changed_eq hinv (f := (expiredJob · now))
    (g := (endedAttempt · .expired recoveryReason now)) ⟨hmem, hattempt, hrunning, hheld⟩
    (p := isRunningAt job.invocationId job.leaseEpoch)
    (q := fun a => a.invocationId = job.invocationId && a.attemptNumber = job.attemptsStarted &&
      a.leaseEpoch = job.leaseEpoch && a.status = .running)
    (by simp [isRunningAt, hrunning]) (by simp [hid, hnumber, hepoch, hstatus])
    (fun j hj => by
      simp only [isRunningAt, Bool.and_eq_true, decide_eq_true_eq] at hj
      exact hj.1.1)
    (fun b hb => by
      simp only [Bool.and_eq_true, decide_eq_true_eq] at hb
      exact hb.1.1.1)
  suffices hshift : Shift py _ job.invocationId (.fenced now (fencedAs job now))
      (changed _ job.invocationId (expiredJob · now) (endedAttempt · .expired recoveryReason now)) by
    refine ⟨rfl, hshape, ?_⟩
    rw [← hshape] at hshift
    exact hshift
  -- the deadline is after every other time of the two rows
  have hbeat : ¬now < attempt.heartbeatAt := fun hbad =>
    hexpired (hbad.trans hheld.ok.2.2.2.2.2.2.2.2.2.2.2.2.1)
  have hstart : ¬now < attempt.startedAt := fun hbad =>
    hheld.ok.2.2.2.2.2.2.2.2.2.2.2.1 (lt_of_le_of_lt (not_lt.mp hbeat) hbad)
  have hcreated : ¬now < job.createdAt := fun hbad =>
    hheld.starts (lt_of_le_of_lt (not_lt.mp hstart) hbad)
  have hreason : TextOk maxErrorBytes recoveryReason := by decide +kernel
  have hstarted : job.attemptsStarted ≠ 0 := by
    rw [hheld.firstJob.1]
    decide
  refine .change job attempt _ _ _ hmem hattempt hrunning hheld
    (fun j => by rw [expiredJob_eq]; exact workOf_failedJob ..) (fun _ => rfl) ?_ ?_ ?_
  · rw [expiredJob_eq]
    exact hok.ended hrunning hnow hnow hreason (by decide) hcreated
  · rw [expiredJob_eq]
    exact hheld.ended hrunning hnow hreason (by decide) hstart hbeat (.inr ⟨rfl, hexpired⟩)
  · have hended : dispatchOf (expiredJob job now) = .ended (fencedAs job now) := by
      rw [fencedAs, expiredJob_eq]
      unfold failedJob
      split <;> simp [dispatchOf, hstarted]
    rw [dispatchOf_running hheld hrunning, hended]
    exact .fence _ _ _ _ hexpired

/-- The shift that fences a job. -/
def fenceOf (now : String) (job : JobRow) :
    String × SingleDispatch.Signal String String Outcome :=
  (job.invocationId, .fenced now (fencedAs job now))

/-- The recovery's loop, over rows of different jobs. -/
theorem recoverAll_ok {now : String} (hnow : PersistedTimestamp py now) {rows : List JobRow}
    {out : List (String × Bool)} (hinv : TablesInv py db)
    (hpair : rows.Pairwise (fun a b => a.invocationId ≠ b.invocationId))
    (hrows : ∀ row ∈ rows, row ∈ db.jobs ∧ PastDeadline now row)
    (h : Txn.forEach (recoverRow py now) rows db = (.ok out, db')) :
    out = rows.map (fun r => (r.invocationId, decide (r.maxAttempts ≤ r.attemptsStarted))) ∧
      Run (shifts py) db (rows.map (fenceOf now)) db' := by
  induction rows generalizing db out with
  | nil =>
    obtain ⟨rfl, rfl⟩ := Txn.forEach_nil_ok.mp h
    exact ⟨rfl, .done _⟩
  | cons row rest ih =>
    obtain ⟨b, db₁, bs, hrow, hrest, rfl⟩ := Txn.forEach_cons_ok.mp h
    obtain ⟨hmem, hpast⟩ := hrows row (by simp)
    obtain ⟨hout, hchanged, hshift⟩ := recoverRow_ok hinv hnow hmem hpast hrow
    obtain ⟨hne, hpair⟩ := List.pairwise_cons.mp hpair
    -- the rows that are left belong to other jobs
    have hleft : ∀ r ∈ rest, r ∈ db₁.jobs ∧ PastDeadline now r := by
      intro r hr
      obtain ⟨hrmem, hrpast⟩ := hrows r (by simp [hr])
      refine ⟨?_, hrpast⟩
      rw [hchanged]
      refine mem_updateWhere.mpr ⟨r, hrmem, ?_⟩
      have hrne : r.invocationId ≠ row.invocationId := fun e => hne r hr e.symm
      simp [hrne]
    obtain ⟨hmore, hrun⟩ := ih (hinv.shift hshift) hpair hleft hrest
    refine ⟨?_, .next hshift hrun⟩
    rw [hout, hmore]
    rfl

theorem mem_limited {α : Type} {limit : Option Nat} {rows : List α} :
    (limited limit rows).Sublist rows := by
  unfold limited
  split
  · exact List.Sublist.refl _
  · exact List.take_sublist _ _

/-- The rows a recovery is about: expired, each of another job. -/
theorem expired_rows (hinv : TablesInv py db) (now : String) (invocationId : Option String)
    (limit : Option Nat) :
    (∀ row ∈ limited limit ((db.jobs.filter (isExpired now invocationId)).insertionSort
        (fun a b => expiresBefore a b = true)), row ∈ db.jobs ∧ PastDeadline now row) ∧
      (limited limit ((db.jobs.filter (isExpired now invocationId)).insertionSort
        (fun a b => expiresBefore a b = true))).Pairwise (fun a b => a.invocationId ≠ b.invocationId) := by
  constructor
  · intro row hrow
    have hmem := (List.perm_insertionSort _ _).mem_iff.mp (mem_limited.subset hrow)
    obtain ⟨hmem, hexpired⟩ := List.mem_filter.mp hmem
    simp only [isExpired, Bool.and_eq_true, decide_eq_true_eq] at hexpired
    obtain ⟨⟨hrunning, hexpiry⟩, -⟩ := hexpired
    refine ⟨hmem, hrunning, ?_⟩
    split at hexpiry
    · simp at hexpiry
    next e he => exact ⟨e, he, by simpa using hexpiry⟩
  · have hids : db.jobs.Pairwise (fun a b => a.invocationId ≠ b.invocationId) :=
      hinv.jobs.apart.imp (fun hab => hab.1)
    refine List.Pairwise.sublist mem_limited ?_
    have hsymm : Std.Symm (fun a b : JobRow => a.invocationId ≠ b.invocationId) :=
      ⟨fun _ _ hab e => hab e.symm⟩
    exact (List.perm_insertionSort _ _).pairwise_iff (fun hab e => hab e.symm) |>.mpr (hids.filter _)

/-- **A recovery fences leases past their deadline, each of another job.** -/
theorem recoverRows_ok {now : String} {invocationId : Option String} {limit : Option Nat}
    {out : List (String × Bool)} (hinv : TablesInv py db) (hnow : PersistedTimestamp py now)
    (h : recoverRows py now invocationId limit db = (.ok out, db')) :
    ∃ rows : List JobRow, (∀ row ∈ rows, row ∈ db.jobs ∧ PastDeadline now row) ∧
      out = rows.map (fun r => (r.invocationId, decide (r.maxAttempts ≤ r.attemptsStarted))) ∧
      Run (shifts py) db (rows.map (fenceOf now)) db' := by
  simp only [recoverRows, Txn.bind_ok, Txn.query_ok] at h
  obtain ⟨_, _, ⟨rfl, rfl⟩, h⟩ := h
  obtain ⟨hmem, hpair⟩ := expired_rows hinv now invocationId limit
  exact ⟨_, hmem, recoverAll_ok hnow hinv hpair hmem h⟩

theorem recoverExpiredInTransaction_ok {limit : Int} {clock at' : String}
    {out : List (String × Bool)} (hinv : TablesInv py db)
    (h : recoverExpiredInTransaction py limit clock db = (.ok (out, at'), db')) :
    normalizeTimestamp py clock "clock" = .ok at' ∧
      ∃ rows : List JobRow, (∀ row ∈ rows, row ∈ db.jobs ∧ PastDeadline at' row) ∧
        out = rows.map (fun r => (r.invocationId, decide (r.maxAttempts ≤ r.attemptsStarted))) ∧
        Run (shifts py) db (rows.map (fenceOf at')) db' := by
  simp only [recoverExpiredInTransaction, Txn.bind_ok, Txn.lift_ok, Txn.pure_ok,
    Prod.mk.injEq] at h
  obtain ⟨now, _, ⟨hnow, rfl⟩, rows, s, hrows, ⟨rfl, rfl⟩, rfl⟩ := h
  exact ⟨hnow, recoverRows_ok hinv (persisted_of_normalized hnow) hrows⟩

theorem recoverExpired_ok {limit : Int} {clock : String} {out : List (String × Bool)}
    (hinv : TablesInv py db) (h : recoverExpired py limit clock db = (.ok out, db')) :
    ∃ now, normalizeTimestamp py clock "clock" = .ok now ∧
      ∃ rows : List JobRow, (∀ row ∈ rows, row ∈ db.jobs ∧ PastDeadline now row) ∧
        out = rows.map (fun r => (r.invocationId, decide (r.maxAttempts ≤ r.attemptsStarted))) ∧
        Run (shifts py) db (rows.map (fenceOf now)) db' := by
  simp only [recoverExpired, Txn.bind_ok, Txn.atomically_ok, Txn.lift_ok] at h
  obtain ⟨_, _, ⟨-, rfl⟩, ⟨rows, at'⟩, _, hrec, h⟩ := h
  obtain ⟨rfl, rfl⟩ := Txn.pure_ok.mp h
  exact ⟨at', recoverExpiredInTransaction_ok hinv hrec⟩

/-- What the transaction of a claim leaves, and what it reports. -/
theorem claimInTransaction_ok {workerId clock suffix token : String} {invocationId : Option String}
    {leaseMicros : Nat} {lease : Option InvocationLease}
    {recovery : Option (List (String × Bool) × String)} (hinv : TablesInv py db)
    (h : claimInTransaction py workerId invocationId leaseMicros clock suffix token db =
      (.ok (lease, recovery), db')) :
    ∃ (now : String) (rows : List JobRow) (db₁ : Db),
      normalizeTimestamp py clock "clock" = .ok now ∧
      (∀ row ∈ rows, row ∈ db.jobs ∧ PastDeadline now row) ∧
      Run (shifts py) db (rows.map (fenceOf now)) db₁ ∧
      (recovery = none → rows = []) ∧
      ((lease = none ∧ db' = db₁) ∨
        ∃ job e, job ∈ db₁.jobs ∧ job.attemptsStarted = 0 ∧
          (∀ i ∈ invocationId, job.invocationId = i) ∧
          lease = some (leaseOf job ("attempt_" ++ suffix) workerId token now e) ∧
          db' = opened db₁ job ("attempt_" ++ suffix) workerId (hexDigest token) now e ∧
          Shift py db₁ job.invocationId (.granted (hexDigest token) e) db') := by
  simp only [claimInTransaction, Txn.bind_ok, Txn.lift_ok] at h
  obtain ⟨now, _, ⟨hnow, rfl⟩, deadline, _, ⟨hdeadline, rfl⟩, out, db₁, hrecover, candidate, s,
    hselect, h⟩ := h
  obtain ⟨rows, hrows, hout, hrun⟩ := recoverRows_ok hinv (persisted_of_normalized hnow) hrecover
  obtain ⟨hs, hcandidate⟩ := selectFirstClaim_ok hselect
  rw [hs] at h
  have hnone : (if out.isEmpty then none else some (out, now)) = none → rows = [] := by
    intro hempty
    split at hempty
    next hnil =>
      rw [hout, List.isEmpty_iff, List.map_eq_nil_iff] at hnil
      exact hnil
    next => simp at hempty
  refine ⟨now, rows, db₁, hnow, hrows, hrun, ?_⟩
  split at h
  · simp only [Txn.pure_ok, Prod.mk.injEq] at h
    obtain ⟨⟨rfl, rfl⟩, rfl⟩ := h
    exact ⟨hnone, .inl ⟨rfl, rfl⟩⟩
  next c =>
    simp only [Txn.bind_ok] at h
    obtain ⟨claimed, _, hclaim, h⟩ := h
    split at h
    · simp at h
    next l =>
      simp only [Txn.bind_ok, Txn.ensure_ok, Txn.pure_ok, Prod.mk.injEq] at h
      obtain ⟨_, _, ⟨-, rfl⟩, ⟨rfl, rfl⟩, rfl⟩ := h
      refine ⟨hnone, ?_⟩
      rcases claimFirst_ok (shifts_run hrun hinv).1 hclaim with ⟨hnone, -⟩ |
        ⟨job, t, e, ht, -, hmem, hnamed, hzero, hlease, hopened, hshift⟩
      · simp at hnone
      · rw [normalizeTimestamp_idem hnow, Except.ok.injEq] at ht
        subst ht
        have hsame : job.invocationId = c.invocationId := hnamed _ rfl
        obtain ⟨-, -, -, -, -, hnamed', -⟩ := hcandidate c rfl
        exact .inr ⟨job, e, hmem, hzero, fun i hi => hsame.trans (hnamed' i hi), hlease, hopened,
          hshift⟩

/-- **A claim fences expired leases, and then starts one job or none.** -/
theorem claim_ok {workerId clock suffix token : String} {invocationId : Option String}
    {leaseMicros : Nat} {lease : Option InvocationLease} (hinv : TablesInv py db)
    (h : claim py workerId invocationId leaseMicros clock suffix token db = (.ok lease, db')) :
    ∃ (now : String) (rows : List JobRow) (db₁ : Db),
      normalizeTimestamp py clock "clock" = .ok now ∧
      (∀ row ∈ rows, row ∈ db.jobs ∧ PastDeadline now row) ∧
      Run (shifts py) db (rows.map (fenceOf now)) db₁ ∧
      ((lease = none ∧ db' = db₁) ∨
        ∃ job e, job ∈ db₁.jobs ∧ job.attemptsStarted = 0 ∧
          (∀ i ∈ invocationId, job.invocationId = i) ∧
          lease = some (leaseOf job ("attempt_" ++ suffix) workerId token now e) ∧
          db' = opened db₁ job ("attempt_" ++ suffix) workerId (hexDigest token) now e ∧
          Shift py db₁ job.invocationId (.granted (hexDigest token) e) db') := by
  simp only [claim, Txn.bind_ok, Txn.atomically_ok, Txn.lift_ok, required_ok,
    requiredOptional_ok] at h
  obtain ⟨_, _, ⟨⟨-, rfl⟩, rfl⟩, _, _, ⟨⟨-, rfl⟩, rfl⟩, ⟨found, recovery⟩, _, hclaim, h⟩ := h
  obtain ⟨rfl, rfl⟩ := Txn.pure_ok.mp h
  obtain ⟨now, rows, db₁, hnow, hrows, hrun, -, hcases⟩ := claimInTransaction_ok hinv hclaim
  exact ⟨now, rows, db₁, hnow, hrows, hrun, hcases⟩

/-! ## The holder of a lease -/

/-- The lease names what both rows name. -/
def Binds (lease : InvocationLease) (job : JobRow) (attempt : AttemptRow) : Prop :=
  lease.invocationId = job.invocationId ∧ lease.sessionId = job.sessionId ∧
    lease.planId = job.planId ∧ lease.taskId = job.taskId ∧ lease.agentId = job.agentId ∧
    lease.idempotencyKey = job.idempotencyKey ∧ lease.payloadDigest = job.payloadDigest ∧
    lease.attemptId = attempt.attemptId ∧ lease.attemptNumber = job.attemptsStarted ∧
    lease.attemptNumber = attempt.attemptNumber ∧ lease.maxAttempts = job.maxAttempts ∧
    lease.leaseEpoch = job.leaseEpoch ∧ lease.leaseEpoch = attempt.leaseEpoch ∧
    lease.workerId = attempt.workerId ∧ lease.claimedAt = attempt.startedAt

/-- What the holder of a lease has proved when it writes. -/
structure Owns (py : PyVersion) (db : Db) (lease : InvocationLease) (now : String) (job : JobRow)
    (a : AttemptRow) : Prop extends Running py db job a where
  owned : isOwned lease now job = true
  ok : JobOk py job
  binds : Binds lease job a
  clock : ¬now < job.updatedAt ∧ ¬now < a.startedAt ∧ ¬now < a.heartbeatAt

/-- Nobody owns the job of a lease at a time. -/
def Unowned (db : Db) (lease : InvocationLease) (now : String) : Prop :=
  ∀ job ∈ db.jobs, isOwned lease now job = false

theorem ownedAttempt_ok {lease : InvocationLease} {now : String}
    {found : Option (JobRow × AttemptRow)} (hinv : TablesInv py db)
    (h : ownedAttempt py lease now db = (.ok found, db')) :
    db' = db ∧ ((found = none ∧ Unowned db lease now) ∨
      ∃ job a, found = some (job, a) ∧ Owns py db lease now job a) := by
  simp only [ownedAttempt, activeOwnedRow, Txn.bind_ok, Txn.query_ok] at h
  obtain ⟨active, s, ⟨row, _, ⟨hfind, rfl⟩, hactive⟩, h⟩ := h
  cases row with
  | none =>
    simp only [Txn.pure_ok] at hactive
    obtain ⟨rfl, rfl⟩ := hactive
    simp only [Txn.pure_ok] at h
    refine ⟨h.2.symm, .inl ⟨h.1.symm, fun job hjob => ?_⟩⟩
    simpa using List.find?_eq_none.mp hfind job hjob
  | some row =>
    simp only [Txn.bind_ok, Txn.lift_ok, rowToJob_ok, Txn.pure_ok] at hactive
    obtain ⟨job, _, ⟨⟨hok, rfl⟩, rfl⟩, rfl, rfl⟩ := hactive
    simp only [Txn.bind_ok, Txn.lift_ok, validateRunningAttemptOwner, validateLeaseBinding,
      Txn.ensure_ok, requireNonRegressingClock_ok, Txn.pure_ok] at h
    obtain ⟨_, _, ⟨-, rfl⟩, a, _, hload, _, _, ⟨-, rfl⟩, _, _, ⟨hbinds, rfl⟩, _, _, ⟨hclock, rfl⟩,
      rfl, rfl⟩ := h
    obtain ⟨rfl, hattempt, hid, -⟩ := loadRunningAttempt_ok hload
    have hmem : job ∈ _ := List.mem_of_find?_eq_some hfind
    have hown := List.find?_some hfind
    have hsame : a.invocationId = job.invocationId := hid.trans hbinds.1
    refine ⟨rfl, .inr ⟨job, a, rfl, ⟨hmem, hattempt, (isOwned_running hown).1,
      hinv.attempts.held hmem hattempt hsame⟩, hown, hok, hbinds, ?_⟩⟩
    exact ⟨hclock _ (by simp), hclock _ (by simp), hclock _ (by simp)⟩

/-- What the guards of the holder's UPDATEs select. -/
theorem Owns.selects {lease : InvocationLease} {now : String} {job : JobRow} {a : AttemptRow}
    (hinv : TablesInv py db) (h : Owns py db lease now job a) (f : JobRow → JobRow)
    (g : AttemptRow → AttemptRow) :
    ({ db with
        jobs := updateWhere (isOwned lease now) f db.jobs
        attempts := updateWhere (isAttemptOf lease) g db.attempts } : Db) =
      changed db job.invocationId f g := by
  have hbinds := h.binds
  refine changed_eq hinv h.toRunning h.owned ?_ (fun j hj => ?_) (fun b hb => ?_)
  · have hstatus := (h.held.running h.running).1
    simp [isAttemptOf, hbinds.1, hbinds.2.2.2.2.2.2.2.1, hbinds.2.2.2.2.2.2.2.2.2.2.2.2.1,
      h.held.same, hstatus]
  · simp only [isOwned, Bool.and_eq_true, decide_eq_true_eq] at hj
    exact hj.1.1.1.1.1.trans hbinds.1
  · simp only [isAttemptOf, Bool.and_eq_true, decide_eq_true_eq] at hb
    exact hb.1.1.2.trans hbinds.1

/-- The deadline of a live lease is ahead. -/
theorem Owns.live {lease : InvocationLease} {now : String} {job : JobRow} {a : AttemptRow}
    (h : Owns py db lease now job a) : now < a.leaseExpiresAt := by
  obtain ⟨-, e, he, hlt⟩ := isOwned_running h.owned
  obtain ⟨-, -, -, -, hexpiry⟩ := h.held.running h.running
  rw [he, Option.some.injEq] at hexpiry
  exact hexpiry ▸ hlt

/-- The digest of the lease's token is the one both rows hold. -/
theorem Owns.digest {lease : InvocationLease} {now : String} {job : JobRow} {a : AttemptRow}
    (h : Owns py db lease now job a) : a.leaseTokenDigest = hexDigest lease.leaseToken := by
  obtain ⟨-, -, hdigest, -⟩ := h.held.running h.running
  have howned := h.owned
  simp only [isOwned, Bool.and_eq_true, decide_eq_true_eq] at howned
  rw [howned.1.1.2, Option.some.injEq] at hdigest
  exact hdigest.symm

/-- The holder's UPDATE changes one row. -/
theorem Owns.one {lease : InvocationLease} {now : String} {job : JobRow} {a : AttemptRow}
    (hinv : TablesInv py db) (h : Owns py db lease now job a) :
    db.jobs.countP (isOwned lease now) = 1 := by
  refine countP_unique (hinv.jobs.apart.imp ?_) h.memJob h.owned
  rintro x y hxy ⟨hx, hy⟩
  simp only [isOwned, Bool.and_eq_true, decide_eq_true_eq] at hx hy
  exact hxy.1 (hx.1.1.1.1.1.trans hy.1.1.1.1.1.symm)

/-- A rewrite of both rows by the holder is a shift. -/
theorem Owns.shift {lease : InvocationLease} {now : String} {job : JobRow} {a : AttemptRow}
    {f : JobRow → JobRow} {g : AttemptRow → AttemptRow}
    {s : SingleDispatch.Signal String String Outcome} (h : Owns py db lease now job a)
    (hwork : ∀ j, workOf (f j) = workOf j) (hsame : ∀ b, (g b).invocationId = b.invocationId)
    (hok : JobOk py (f job)) (hheld : Held py (f job) (g a))
    (hstep : SingleDispatch.Step (some (.leased a.leaseTokenDigest a.leaseExpiresAt)) s
      (some (dispatchOf (f job)))) :
    Shift py db lease.invocationId s (changed db job.invocationId f g) := by
  rw [h.binds.1]
  refine .change job a f g s h.memJob h.memAttempt h.running h.held hwork hsame hok hheld ?_
  rw [dispatchOf_running h.held h.running]
  exact hstep

/-- What the transaction of a heartbeat leaves, and what it reports. -/
theorem heartbeatInTransaction_ok {lease : InvocationLease} {leaseMicros : Nat} {clock : String}
    {times : Option (String × String)} (hinv : TablesInv py db)
    (h : heartbeatInTransaction py lease leaseMicros clock db = (.ok times, db')) :
    ∃ now proposed, normalizeTimestamp py clock "clock" = .ok now ∧
      leaseDeadline py now leaseMicros = .ok proposed ∧
      ((times = none ∧ db' = db ∧ Unowned db lease now) ∨
        ∃ job a, times = some (now, laterText a.leaseExpiresAt proposed) ∧
          Owns py db lease now job a ∧
          db' = changed db job.invocationId (beatenJob · now (laterText a.leaseExpiresAt proposed))
            (beatenAttempt · now (laterText a.leaseExpiresAt proposed)) ∧
          Shift py db lease.invocationId (.extended (hexDigest lease.leaseToken) now
            (laterText a.leaseExpiresAt proposed)) db') := by
  simp only [heartbeatInTransaction, Txn.bind_ok, Txn.lift_ok] at h
  obtain ⟨now, _, ⟨hnow, rfl⟩, proposed, _, ⟨hproposed, rfl⟩, found, s, howned, h⟩ := h
  obtain ⟨hs, hfound⟩ := ownedAttempt_ok hinv howned
  rw [hs] at h
  refine ⟨now, proposed, hnow, hproposed, ?_⟩
  rcases hfound with ⟨rfl, hunowned⟩ | ⟨job, a, rfl, hown⟩
  · obtain ⟨rfl, rfl⟩ := Txn.pure_ok.mp h
    exact .inl ⟨rfl, rfl, hunowned⟩
  · obtain ⟨-, -, -, -, hexpiry⟩ := hown.held.running hown.running
    have hget : job.leaseExpiresAt.getD "" = a.leaseExpiresAt := by
      rw [hexpiry]
      rfl
    simp only [Txn.bind_ok, updateJobs_ok, hget, hown.one hinv] at h
    obtain ⟨count, _, ⟨rfl, rfl⟩, h⟩ := h
    simp only [if_true, Txn.bind_ok, Txn.pure_ok] at h
    obtain ⟨_, _, hattempt, rfl, rfl⟩ := h
    obtain ⟨hlater, hdeadline⟩ := leaseDeadline_ok hproposed
    have hold : PersistedTimestamp py a.leaseExpiresAt := hown.held.ok.2.2.2.2.2.2.2.2.2.2.1
    have hlt := lt_laterText hown.live hlater
    have hbeaten := hown.held.beaten hown.running (persisted_of_normalized hnow)
      (laterText_persisted hold hdeadline) hlt hown.clock.2.1
    have hshape := (updateOwnAttempt_ok hattempt).trans (hown.selects hinv
      (beatenJob · now (laterText a.leaseExpiresAt proposed))
      (beatenAttempt · now (laterText a.leaseExpiresAt proposed)))
    refine .inr ⟨job, a, rfl, hown, hshape, ?_⟩
    rw [hshape, ← hown.digest]
    refine hown.shift (fun _ => rfl) (fun _ => rfl)
      (hown.ok.beaten hown.running (persisted_of_normalized hnow)
        (laterText_persisted hold hdeadline) hlt hown.clock.1) hbeaten ?_
    rw [dispatchOf_running hbeaten hown.running]
    exact .extend _ _ _ _ hown.live

/-- **A heartbeat extends the lease of its holder, or changes nothing.** -/
theorem heartbeat_ok {lease : InvocationLease} {leaseMicros : Nat} {clock : String} {held : Bool}
    (hinv : TablesInv py db) (h : heartbeat py lease leaseMicros clock db = (.ok held, db')) :
    ∃ now proposed, normalizeTimestamp py clock "clock" = .ok now ∧
      leaseDeadline py now leaseMicros = .ok proposed ∧
      ((held = false ∧ db' = db ∧ Unowned db lease now) ∨
        ∃ job a, held = true ∧ Owns py db lease now job a ∧
          db' = changed db job.invocationId (beatenJob · now (laterText a.leaseExpiresAt proposed))
            (beatenAttempt · now (laterText a.leaseExpiresAt proposed)) ∧
          Shift py db lease.invocationId (.extended (hexDigest lease.leaseToken) now
            (laterText a.leaseExpiresAt proposed)) db') := by
  simp only [heartbeat, Txn.bind_ok, Txn.atomically_ok, Txn.lift_ok] at h
  obtain ⟨_, _, ⟨-, rfl⟩, times, _, hbody, h⟩ := h
  obtain ⟨rfl, rfl⟩ := Txn.pure_ok.mp h
  obtain ⟨now, proposed, hnow, hproposed, ⟨rfl, hsame, hunowned⟩ | ⟨job, a, rfl, hown⟩⟩ :=
    heartbeatInTransaction_ok hinv hbody
  · exact ⟨now, proposed, hnow, hproposed, .inl ⟨rfl, hsame, hunowned⟩⟩
  · exact ⟨now, proposed, hnow, hproposed, .inr ⟨job, a, rfl, hown⟩⟩

/-- What the transaction of a completion leaves, and what it reports. -/
theorem completeInTransaction_ok {lease : InvocationLease} {resultRef : Option String} {clock : String}
    {finishedAt : Option String} (hinv : TablesInv py db)
    (hresult : ∀ text, resultRef = some text → TextOk maxReferenceBytes text)
    (h : completeInTransaction py lease resultRef clock db = (.ok finishedAt, db')) :
    ∃ now, normalizeTimestamp py clock "clock" = .ok now ∧
      ((finishedAt = none ∧ db' = db ∧ Unowned db lease now) ∨
        ∃ job a, finishedAt = some now ∧ Owns py db lease now job a ∧
          db' = changed db job.invocationId (succeededJob · resultRef now)
            (succeededAttempt · resultRef now) ∧
          Shift py db lease.invocationId (.finished (hexDigest lease.leaseToken) now
            ⟨.succeeded, resultRef, job.lastError⟩) db') := by
  simp only [completeInTransaction, Txn.bind_ok, Txn.lift_ok] at h
  obtain ⟨now, _, ⟨hnow, rfl⟩, found, s, howned, h⟩ := h
  obtain ⟨hs, hfound⟩ := ownedAttempt_ok hinv howned
  rw [hs] at h
  refine ⟨now, hnow, ?_⟩
  rcases hfound with ⟨rfl, hunowned⟩ | ⟨job, a, rfl, hown⟩
  · obtain ⟨rfl, rfl⟩ := Txn.pure_ok.mp h
    exact .inl ⟨rfl, rfl, hunowned⟩
  · simp only [Txn.bind_ok, updateJobs_ok, hown.one hinv] at h
    obtain ⟨count, _, ⟨rfl, rfl⟩, h⟩ := h
    simp only [if_true, Txn.bind_ok, Txn.pure_ok] at h
    obtain ⟨_, _, hattempt, rfl, rfl⟩ := h
    have hshape := (updateOwnAttempt_ok hattempt).trans (hown.selects hinv
      (succeededJob · resultRef now) (succeededAttempt · resultRef now))
    refine .inr ⟨job, a, rfl, hown, hshape, ?_⟩
    rw [hshape, ← hown.digest]
    refine hown.shift (fun _ => rfl) (fun _ => rfl)
      (hown.ok.succeeded hown.running (persisted_of_normalized hnow) hresult hown.clock.1)
      (hown.held.succeeded hown.running (persisted_of_normalized hnow) hresult hown.clock.2.1
        hown.clock.2.2 hown.live) ?_
    have hended : dispatchOf (succeededJob job resultRef now) =
        .ended ⟨.succeeded, resultRef, job.lastError⟩ := by
      simp [dispatchOf, succeededJob, hown.held.firstJob.1]
    rw [hended]
    exact .finish _ _ _ _ hown.live

/-- **A completion ends the job of its holder with a result, or changes
nothing.** -/
theorem complete_ok {lease : InvocationLease} {resultRef : Option String} {clock : String}
    {done : Bool} (hinv : TablesInv py db)
    (h : complete py lease resultRef clock db = (.ok done, db')) :
    ∃ now, normalizeTimestamp py clock "clock" = .ok now ∧
      ((done = false ∧ db' = db ∧ Unowned db lease now) ∨
        ∃ job a, done = true ∧ Owns py db lease now job a ∧
          db' = changed db job.invocationId (succeededJob · resultRef now)
            (succeededAttempt · resultRef now) ∧
          Shift py db lease.invocationId (.finished (hexDigest lease.leaseToken) now
            ⟨.succeeded, resultRef, job.lastError⟩) db') := by
  simp only [complete, Txn.bind_ok, Txn.atomically_ok, Txn.lift_ok] at h
  obtain ⟨_, _, ⟨-, rfl⟩, resultRef', _, ⟨hstored, rfl⟩, finishedAt, _, hbody, h⟩ := h
  obtain ⟨rfl, rfl⟩ := Txn.pure_ok.mp h
  obtain ⟨hresult, rfl⟩ := requiredReference_ok hstored
  obtain ⟨now, hnow, ⟨rfl, hsame, hunowned⟩ | ⟨job, a, rfl, hown⟩⟩ :=
    completeInTransaction_ok hinv hresult hbody
  · exact ⟨now, hnow, .inl ⟨rfl, hsame, hunowned⟩⟩
  · exact ⟨now, hnow, .inr ⟨job, a, rfl, hown⟩⟩

/-- What the transaction of a failure leaves, and what it reports. -/
theorem failInTransaction_ok {lease : InvocationLease} {stored clock : String} {retryAt : Option String}
    {outcome : Option (String × String × InvocationStatus)} (hinv : TablesInv py db)
    (htext : TextOk maxErrorBytes stored) (hlength : stored.length ≤ maxErrorLength)
    (h : failInTransaction py lease stored retryAt clock db = (.ok outcome, db')) :
    ∃ now retry, normalizeTimestamp py clock "clock" = .ok now ∧
      normalizeTimestamp py (retryOr retryAt now) "retry_at" = .ok retry ∧
      ((outcome = none ∧ db' = db ∧ Unowned db lease now) ∨
        ∃ job a o, outcome = some (now, laterText now retry, failureTarget job) ∧
          Owns py db lease now job a ∧
          db' = changed db job.invocationId (failedJob · stored (laterText now retry) now)
            (endedAttempt · .failed stored now) ∧
          o.lastError = some stored ∧ o.resultRef = job.resultRef ∧
          (o.status = .failed ∨ o.status = .queued) ∧
          Shift py db lease.invocationId (.finished (hexDigest lease.leaseToken) now o) db') := by
  simp only [failInTransaction, Txn.bind_ok, Txn.lift_ok] at h
  obtain ⟨now, _, ⟨hnow, rfl⟩, retry, _, ⟨hretry, rfl⟩, found, s, howned, h⟩ := h
  obtain ⟨hs, hfound⟩ := ownedAttempt_ok hinv howned
  rw [hs] at h
  refine ⟨now, retry, hnow, hretry, ?_⟩
  rcases hfound with ⟨rfl, hunowned⟩ | ⟨job, a, rfl, hown⟩
  · obtain ⟨rfl, rfl⟩ := Txn.pure_ok.mp h
    exact .inl ⟨rfl, rfl, hunowned⟩
  · simp only [Txn.bind_ok, Txn.ensure_ok, Txn.pure_ok, updateJobs_ok] at h
    obtain ⟨_, s₁, hattempt, count, _, ⟨-, rfl⟩, _, _, ⟨-, rfl⟩, rfl, rfl⟩ := h
    obtain rfl := updateOwnAttempt_ok hattempt
    have hshape := hown.selects hinv (failedJob · stored (laterText now retry) now)
      (endedAttempt · .failed stored now)
    have hcreated : ¬now < job.createdAt := fun hbad =>
      hown.ok.times.2.2.2.2.1 (lt_of_le_of_lt (not_lt.mp hown.clock.1) hbad)
    have hstarted : job.attemptsStarted ≠ 0 := by
      rw [hown.held.firstJob.1]
      decide
    obtain ⟨o, ho, herror, hresult, hstatus⟩ :=
      dispatchOf_failedJob hstarted stored (laterText now retry) now
    have hshift : Shift py db lease.invocationId (.finished (hexDigest lease.leaseToken) now o)
        (changed db job.invocationId (failedJob · stored (laterText now retry) now)
          (endedAttempt · .failed stored now)) := by
      rw [← hown.digest]
      refine hown.shift (fun _ => workOf_failedJob ..) (fun _ => rfl)
        (hown.ok.ended hown.running (persisted_of_normalized hnow)
          (laterText_persisted (persisted_of_normalized hnow) (persisted_of_normalized hretry))
          htext hlength hcreated)
        (hown.held.ended hown.running (persisted_of_normalized hnow) htext hlength hown.clock.2.1
          hown.clock.2.2 (.inl ⟨rfl, hown.live⟩)) ?_
      rw [ho]
      exact .finish _ _ _ _ hown.live
    refine .inr ⟨job, a, o, rfl, hown, hshape, herror, hresult, hstatus, ?_⟩
    rw [← hshape] at hshift
    exact hshift

/-- **A failure ends the job of its holder with an error, or changes
nothing.** -/
theorem fail_ok {lease : InvocationLease} {error clock : String} {retryAt : Option String}
    {done : Bool} (hinv : TablesInv py db)
    (h : fail py lease error retryAt clock db = (.ok done, db')) :
    ∃ now stored retry, normalizeTimestamp py clock "clock" = .ok now ∧
      storedError error = .ok stored ∧
      normalizeTimestamp py (retryOr retryAt now) "retry_at" = .ok retry ∧
      ((done = false ∧ db' = db ∧ Unowned db lease now) ∨
        ∃ job a o, done = true ∧ Owns py db lease now job a ∧
          db' = changed db job.invocationId (failedJob · stored (laterText now retry) now)
            (endedAttempt · .failed stored now) ∧
          o.lastError = some stored ∧ o.resultRef = job.resultRef ∧
          (o.status = .failed ∨ o.status = .queued) ∧
          Shift py db lease.invocationId (.finished (hexDigest lease.leaseToken) now o) db') := by
  simp only [fail, Txn.bind_ok, Txn.atomically_ok, Txn.lift_ok] at h
  obtain ⟨_, _, ⟨-, rfl⟩, stored, _, ⟨hstored, rfl⟩, outcome, _, hbody, h⟩ := h
  obtain ⟨rfl, rfl⟩ := Txn.pure_ok.mp h
  obtain ⟨htext, hlength⟩ := storedError_ok hstored
  obtain ⟨now, retry, hnow, hretry, ⟨rfl, hsame, hunowned⟩ | ⟨job, a, o, rfl, hown⟩⟩ :=
    failInTransaction_ok hinv htext hlength hbody
  · exact ⟨now, stored, retry, hnow, hstored, hretry, .inl ⟨rfl, hsame, hunowned⟩⟩
  · exact ⟨now, stored, retry, hnow, hstored, hretry, .inr ⟨job, a, o, rfl, hown⟩⟩

end QuantumEntanglement.Attempts
