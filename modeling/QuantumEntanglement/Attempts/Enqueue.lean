import QuantumEntanglement.Attempts.Commit

/-
  Enqueueing again — which requests are answered from a row

  Three identities may already be taken: the invocation, the task of a session
  and the key of a session. A request that meets one row and asks for the same
  work is answered with that row, whatever became of it since; a request that
  meets a row of other work, or two rows, is a conflict. The readback after an
  unacknowledged commit makes the same comparison on a later state.

  What is proved:
    1. `existingMatches_eq` — the comparison, on a row that reads.
    2. `enqueue_repeats`, `enqueue_conflicts` — the two answers.
    3. `reconcileEnqueuedJob_iff` — what the readback reports.
    4. `enqueue_laws` — the laws of every reachable state.
-/

namespace QuantumEntanglement.Attempts

open Transaction TransitionSystem IsoTime

variable {py : PyVersion} {db : Db}

/-! ## The comparison -/

/-- A job and a request for the same work; the invocation is not compared. -/
structure SameWork (job : JobRow) (spec : InvocationJobSpec py) : Prop where
  sessionId : job.sessionId = spec.sessionId
  planId : job.planId = spec.planId
  taskId : job.taskId = spec.taskId
  agentId : job.agentId = spec.agentId
  idempotencyKey : job.idempotencyKey = spec.idempotencyKey
  payloadDigest : job.payloadDigest = spec.payloadDigest
  priority : job.priority = spec.priority
  maxAttempts : job.maxAttempts = spec.maxAttempts
  availableAt : spec.requestedAvailableAt = .ok job.requestedAvailableAt

/-- The requested time of a request has a normal form. -/
theorem requestedAvailableAt_ok (spec : InvocationJobSpec py) :
    ∃ requested, spec.requestedAvailableAt = .ok requested := by
  unfold InvocationJobSpec.requestedAvailableAt
  split
  · exact ⟨none, rfl⟩
  next text htext =>
    obtain ⟨t, ht⟩ := spec.ok.availableAt text htext
    exact ⟨some t, by rw [ht]; rfl⟩

/-- **What the comparison says** of a row that reads. -/
theorem existingMatches_eq {job : JobRow} (hok : JobOk py job) (spec : InvocationJobSpec py) :
    ∃ same, existingMatches py job spec = .ok same ∧ (same = true ↔ SameWork job spec) := by
  obtain ⟨requested, hrequested⟩ := requestedAvailableAt_ok spec
  have hread : rowToJob py job = .ok job := rowToJob_ok.mpr ⟨hok, rfl⟩
  refine ⟨_, by rw [existingMatches, hread, hrequested]; rfl, ?_⟩
  simp only [Bool.and_eq_true, decide_eq_true_eq]
  constructor
  · rintro ⟨⟨⟨⟨⟨⟨⟨⟨h₁, h₂⟩, h₃⟩, h₄⟩, h₅⟩, h₆⟩, h₇⟩, h₈⟩, h₉⟩
    exact ⟨h₁, h₂, h₃, h₄, h₅, h₆, h₇, h₈, by rw [hrequested, h₉]⟩
  · intro h
    have hsame := h.availableAt
    rw [hrequested, Except.ok.injEq] at hsame
    exact ⟨⟨⟨⟨⟨⟨⟨⟨h.sessionId, h.planId⟩, h.taskId⟩, h.agentId⟩, h.idempotencyKey⟩, h.payloadDigest⟩,
      h.priority⟩, h.maxAttempts⟩, hsame.symm⟩

theorem SameWork.shares {job : JobRow} {spec : InvocationJobSpec py} (h : SameWork job spec) :
    sharesIdentity spec job = true := by
  simp [sharesIdentity, h.sessionId, h.taskId]

/-! ## The rows a request meets -/

/-- A request carries an invocation of its own, or that of the job. -/
def FreshFor (db : Db) (spec : InvocationJobSpec py) (job : JobRow) : Prop :=
  ∀ r ∈ db.jobs, r.invocationId = spec.invocationId → r = job

/-- A pairwise distinct list filtered down to one of its members. -/
theorem filter_eq_singleton {α : Type} {p : α → Bool} {x : α} : ∀ {xs : List α}, xs.Nodup → x ∈ xs →
    p x = true → (∀ y ∈ xs, p y = true → y = x) → xs.filter p = [x]
  | [], _, hx, _, _ => absurd hx List.not_mem_nil
  | y :: ys, hnodup, hx, hpx, hone => by
    obtain ⟨hy, hys⟩ := List.nodup_cons.mp hnodup
    have hrest : ∀ z ∈ ys, p z = true → z = x := fun z hz => hone z (List.mem_cons_of_mem _ hz)
    rcases List.mem_cons.mp hx with rfl | hx
    · have hnone : ys.filter p = [] := by
        rw [List.filter_eq_nil_iff]
        intro z hz hpz
        exact hy (hrest z hz hpz ▸ hz)
      rw [List.filter_cons_of_pos hpx, hnone]
    · have hpy : ¬p y = true := fun hpy => hy (hone y (by simp) hpy ▸ hx)
      rw [List.filter_cons_of_neg hpy]
      exact filter_eq_singleton hys hx hpx hrest

theorem JobInv.nodup (h : JobInv py db) : db.jobs.Nodup :=
  h.apart.imp fun hab heq => hab.1 (congrArg (fun j => (workOf j).invocationId) heq)

/-- A request for the work of a job meets that row alone. -/
theorem shared_rows (hinv : JobInv py db) {job : JobRow} {spec : InvocationJobSpec py}
    (hjob : job ∈ db.jobs) (hsame : SameWork job spec) (hfresh : FreshFor db spec job) :
    db.jobs.filter (sharesIdentity spec) = [job] := by
  apply filter_eq_singleton hinv.nodup hjob hsame.shares
  intro r hr hshares
  simp only [sharesIdentity, Bool.or_eq_true, Bool.and_eq_true, decide_eq_true_eq] at hshares
  rcases hshares with (hid | htask) | hkey
  · exact hfresh r hr hid
  · apply hinv.eq_of_not_apart hr hjob
    intro hapart
    exact hapart.2.1 ⟨htask.1.trans hsame.sessionId.symm, htask.2.trans hsame.taskId.symm⟩
  · apply hinv.eq_of_not_apart hr hjob
    intro hapart
    exact hapart.2.2 ⟨hkey.1.trans hsame.sessionId.symm, hkey.2.trans hsame.idempotencyKey.symm⟩

/-! ## The answers -/

/-- Where the clock reads, both timestamps of an enqueue have a normal form. -/
theorem enqueue_times (spec : InvocationJobSpec py) {clock now : String}
    (hclock : normalizeTimestamp py clock "clock" = .ok now) :
    normalizeTimestamp py now "now" = .ok now ∧
      ∃ availableAt, normalizeTimestamp py (spec.availableAt.getD now) "available_at" = .ok availableAt := by
  refine ⟨normalizeTimestamp_idem hclock _, ?_⟩
  cases havailable : spec.availableAt with
  | none => exact ⟨now, normalizeTimestamp_idem hclock _⟩
  | some text => exact spec.ok.availableAt text havailable

/-- **A request for the work of a job returns its row.** -/
theorem enqueue_repeats (hinv : JobInv py db) {job : JobRow} {spec : InvocationJobSpec py}
    {clock now : String} (hclock : normalizeTimestamp py clock "clock" = .ok now)
    (hjob : job ∈ db.jobs) (hsame : SameWork job spec) (hfresh : FreshFor db spec job) :
    enqueue py spec clock db = (.ok job, db) := by
  obtain ⟨hnow, availableAt, havailable⟩ := enqueue_times spec hclock
  have hread : rowToJob py job = .ok job := rowToJob_ok.mpr ⟨hinv.ok job hjob, rfl⟩
  obtain ⟨same, hmatches, hiff⟩ := existingMatches_eq (hinv.ok job hjob) spec
  have hrows := shared_rows hinv hjob hsame hfresh
  have hbody : enqueueInTransaction py spec now db = (.ok job, db) := by
    simp only [enqueueInTransaction, Txn.bind_ok, Txn.lift_ok, Txn.query_ok]
    refine ⟨now, db, ⟨hnow, rfl⟩, availableAt, db, ⟨havailable, rfl⟩, [job], db, ⟨hrows, rfl⟩, ?_⟩
    simp only [Txn.bind_ok, Txn.lift_ok]
    refine ⟨true, db, ⟨by rw [hmatches, hiff.mpr hsame], rfl⟩, ?_⟩
    exact Txn.lift_ok.mpr ⟨hread, rfl⟩
  simp only [enqueue, Txn.atomically_ok, Txn.bind_ok, Txn.lift_ok]
  exact ⟨now, db, ⟨hclock, rfl⟩, hbody⟩

/-- **A request that meets a row of other work is a conflict.** -/
theorem enqueue_conflicts (hinv : JobInv py db) {job : JobRow} {spec : InvocationJobSpec py}
    {clock now : String} (hclock : normalizeTimestamp py clock "clock" = .ok now)
    (hjob : job ∈ db.jobs) (hshares : sharesIdentity spec job = true) (hdiffers : ¬SameWork job spec) :
    enqueue py spec clock db = (.error boundDifferently, db) := by
  obtain ⟨hnow, availableAt, havailable⟩ := enqueue_times spec hclock
  obtain ⟨same, hmatches, hiff⟩ := existingMatches_eq (hinv.ok job hjob) spec
  have hfalse : same = false := by
    rw [← Bool.not_eq_true, hiff]
    exact hdiffers
  have hmem : job ∈ db.jobs.filter (sharesIdentity spec) := List.mem_filter.mpr ⟨hjob, hshares⟩
  have hbody : enqueueInTransaction py spec now db = (.error boundDifferently, db) := by
    simp only [enqueueInTransaction, Txn.bind_error, Txn.lift_ok, Txn.query_ok]
    refine .inr ⟨now, db, ⟨hnow, rfl⟩, .inr ⟨availableAt, db, ⟨havailable, rfl⟩, .inr ⟨_, db, ⟨rfl, rfl⟩, ?_⟩⟩⟩
    cases hrows : db.jobs.filter (sharesIdentity spec) with
    | nil =>
      rw [hrows] at hmem
      exact absurd hmem List.not_mem_nil
    | cons row rest =>
      cases rest with
      | nil =>
        -- the one row it meets is the job
        rw [hrows, List.mem_singleton] at hmem
        subst hmem
        simp only [Txn.bind_error, Txn.lift_ok]
        refine .inr ⟨false, db, ⟨by rw [hmatches, hfalse], rfl⟩, ?_⟩
        exact Txn.raise_error.mpr ⟨rfl, rfl⟩
      | cons other more => exact Txn.raise_error.mpr ⟨rfl, rfl⟩
  have hrun : (do
      let now ← Txn.lift (normalizeTimestamp py clock "clock")
      enqueueInTransaction py spec now) db = (.error boundDifferently, db) :=
    Txn.bind_error.mpr (.inr ⟨now, db, Txn.lift_ok.mpr ⟨hclock, rfl⟩, hbody⟩)
  rw [enqueue, Txn.atomically, hrun]

/-! ## The readback -/

/-- **What the readback of an enqueue reports.** -/
theorem reconcileEnqueuedJob_iff (hinv : JobInv py db) {job : JobRow} {spec : InvocationJobSpec py} :
    reconcileEnqueuedJob spec db = .ok (some job) ↔
      job ∈ db.jobs ∧ SameWork job spec ∧ FreshFor db spec job := by
  constructor
  · intro h
    obtain ⟨hjob, hshares, hmatches⟩ := reconcileEnqueuedJob_ok h
    obtain ⟨same, hsame, hiff⟩ := existingMatches_eq (hinv.ok job hjob) spec
    rw [hmatches, Except.ok.injEq] at hsame
    refine ⟨hjob, hiff.mp hsame.symm, ?_⟩
    intro r hr hid
    have hr : r ∈ db.jobs.filter (sharesIdentity spec) :=
      List.mem_filter.mpr ⟨hr, by simp [sharesIdentity, hid]⟩
    have hmem : job ∈ db.jobs.filter (sharesIdentity spec) := List.mem_filter.mpr ⟨hjob, hshares⟩
    unfold reconcileEnqueuedJob at h
    split at h
    next row hrows =>
      rw [hrows, List.mem_singleton] at hr hmem
      rw [hr, hmem]
    next => simp at h
  · rintro ⟨hjob, hsame, hfresh⟩
    obtain ⟨same, hmatches, hiff⟩ := existingMatches_eq (hinv.ok job hjob) spec
    have hread : rowToJob py job = .ok job := rowToJob_ok.mpr ⟨hinv.ok job hjob, rfl⟩
    rw [reconcileEnqueuedJob, shared_rows hinv hjob hsame hfresh]
    simp only [except_bind_ok]
    refine ⟨true, by rw [hmatches, hiff.mpr hsame], ?_⟩
    rw [if_pos rfl, hread]
    rfl

/-! ## The laws -/

/-- **Enqueueing is idempotent**: in a state, at any clock. -/
structure EnqueueLaws (py : PyVersion) (db : Db) : Prop where
  repeats : ∀ job ∈ db.jobs, ∀ (spec : InvocationJobSpec py) (clock now : String),
    normalizeTimestamp py clock "clock" = .ok now → SameWork job spec → FreshFor db spec job →
      enqueue py spec clock db = (.ok job, db)
  conflicts : ∀ job ∈ db.jobs, ∀ (spec : InvocationJobSpec py) (clock now : String),
    normalizeTimestamp py clock "clock" = .ok now → sharesIdentity spec job = true →
    ¬SameWork job spec → enqueue py spec clock db = (.error boundDifferently, db)
  onePerTask : db.jobs.Pairwise fun a b => ¬(a.sessionId = b.sessionId ∧ a.taskId = b.taskId)
  onePerKey : db.jobs.Pairwise fun a b =>
    ¬(a.sessionId = b.sessionId ∧ a.idempotencyKey = b.idempotencyKey)
  readback : ∀ (spec : InvocationJobSpec py) (job : JobRow),
    reconcileEnqueuedJob spec db = .ok (some job) ↔
      job ∈ db.jobs ∧ SameWork job spec ∧ FreshFor db spec job

/-- **Every reachable state has them.** -/
theorem enqueue_laws (h : Reachable (attemptSystem py) db) : EnqueueLaws py db := by
  obtain ⟨start, ls, hstart, hrun⟩ := h
  rw [show start = Db.empty from hstart] at hrun
  have hinv : JobInv py db := (run_tablesInv hrun (tablesInv_empty py)).jobs
  exact
    { repeats := fun job hjob spec clock now hclock hsame hfresh =>
        enqueue_repeats hinv hclock hjob hsame hfresh
      conflicts := fun job hjob spec clock now hclock hshares hdiffers =>
        enqueue_conflicts hinv hclock hjob hshares hdiffers
      onePerTask := hinv.apart.imp fun hab => hab.2.1
      onePerKey := hinv.apart.imp fun hab => hab.2.2
      readback := fun spec job => reconcileEnqueuedJob_iff hinv }

/-- The request of a job that has failed, under another invocation. -/
def repeatedSpec : InvocationJobSpec .py311 :=
  { sampleSpec with invocationId := "j", accepted := by decide +kernel }

theorem repeatedSpec_same {job : JobRow} (h : workOf job = workOf (queuedRow sampleSpec none "" job.createdAt)) :
    SameWork job repeatedSpec := by
  simp only [workOf, queuedRow, InvocationWork.mk.injEq] at h
  obtain ⟨-, h₁, h₂, h₃, h₄, h₅, h₆, h₇, h₈, h₉, -⟩ := h
  exact ⟨h₁, h₂, h₃, h₄, h₅, h₆, h₇, h₈, by rw [h₉]; rfl⟩

/-- It is answered with the failed job. -/
theorem enqueue_laws_expired :
    ∃ job, job.status = .failed ∧
      enqueue .py311 repeatedSpec "2024-01-02T00:00:00Z" (stateAfter expiredCalls Db.empty) =
        (.ok job, stateAfter expiredCalls Db.empty) := by
  have hlaws := enqueue_laws ⟨Db.empty, _, rfl, run_calls expiredCalls Db.empty⟩
  have hjobs : ((stateAfter expiredCalls Db.empty).jobs.map fun j =>
      (j.status, decide (workOf j = workOf (queuedRow sampleSpec none "" j.createdAt)))) =
        [(.failed, true)] := by
    decide +kernel
  obtain ⟨job, rest, hrows, hjob, hrest⟩ := List.map_eq_cons_iff.mp hjobs
  simp only [Prod.mk.injEq, decide_eq_true_eq] at hjob
  obtain rfl := List.map_eq_nil_iff.mp hrest
  have hmem : job ∈ (stateAfter expiredCalls Db.empty).jobs := by
    rw [hrows]
    exact List.mem_singleton.mpr rfl
  have hclock : ∃ now, normalizeTimestamp .py311 "2024-01-02T00:00:00Z" "clock" = .ok now :=
    ⟨"2024-01-02T00:00:00.000000Z", by decide +kernel⟩
  obtain ⟨now, hclock⟩ := hclock
  refine ⟨job, hjob.1, hlaws.repeats job hmem repeatedSpec _ now hclock (repeatedSpec_same hjob.2) ?_⟩
  intro r hr _
  rw [hrows, List.mem_singleton] at hr
  exact hr

end QuantumEntanglement.Attempts
