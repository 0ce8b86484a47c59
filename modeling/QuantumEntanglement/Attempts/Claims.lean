import QuantumEntanglement.Attempts.Enqueue

/-
  Claiming the next job — whom a claim without a name serves

  A claim fences the leases that expired, takes the first waiting job in claim
  order and leases it. Under the invariant the only thing that can stop it,
  beside its own arguments, is the clock: a reading before the selected job's
  creation or last update raises, and nothing is written.

  What is proved:
    1. `firstToClaim_least` — the candidate is the first in claim order.
    2. `recoverRow_total`, `recoverAll_total` — the recovery a claim starts with
       never raises, and leaves the waiting jobs as they were.
    3. `selectFirstClaim_serves`, `selectFirstClaim_regressed` — the two ends of
       the selection.
    4. `claim_next_serves` — what a claim does where a job waits.
-/

namespace QuantumEntanglement.Attempts

open Transaction TransitionSystem PyText IsoTime Sha256

variable {py : PyVersion} {db : Db}

/-! ## Claim order -/

/-- The columns of the order, most significant first. -/
def claimKey (job : JobRow) : Natᵒᵈ ×ₗ String ×ₗ String ×ₗ String :=
  toLex (OrderDual.toDual job.priority,
    toLex (job.availableAt, toLex (job.createdAt, job.invocationId)))

theorem claimsBefore_iff (a b : JobRow) : claimsBefore a b = true ↔ claimKey a ≤ claimKey b := by
  unfold claimsBefore claimKey
  simp only [Prod.Lex.toLex_le_toLex, OrderDual.toDual_lt_toDual, OrderDual.toDual_inj]
  split
  next hpriority => simp [hpriority]
  next hpriority =>
    rw [not_ne_iff] at hpriority
    simp only [hpriority, lt_self_iff_false, true_and, false_or]
    split
    next havailable => simp [havailable]
    next havailable =>
      rw [not_ne_iff] at havailable
      simp only [havailable, lt_self_iff_false, true_and, false_or]
      split
      next hcreated => simp [hcreated]
      next hcreated =>
        rw [not_ne_iff] at hcreated
        rw [Bool.not_eq_true', decide_eq_false_iff_not, not_lt]
        simp [hcreated]

/-- **The candidate of a claim comes before every other.** -/
theorem firstToClaim_least {rows : List JobRow} {job : JobRow} (h : firstToClaim rows = some job) :
    ∀ r ∈ rows, claimsBefore job r = true := by
  have htotal : Std.Total (fun a b : JobRow => claimsBefore a b = true) :=
    ⟨fun a b => by simpa only [claimsBefore_iff] using le_total (claimKey a) (claimKey b)⟩
  have htrans : IsTrans JobRow (fun a b => claimsBefore a b = true) :=
    ⟨fun a b c hab hbc => by
      rw [claimsBefore_iff] at hab hbc ⊢
      exact hab.trans hbc⟩
  have hsorted := List.pairwise_insertionSort (fun a b : JobRow => claimsBefore a b = true) rows
  intro r hr
  have hr : r ∈ rows.insertionSort (fun a b => claimsBefore a b = true) :=
    (List.perm_insertionSort _ rows).mem_iff.mpr hr
  unfold firstToClaim at h
  cases hrows : rows.insertionSort (fun a b => claimsBefore a b = true) with
  | nil => rw [hrows] at hr; exact absurd hr List.not_mem_nil
  | cons first rest =>
    rw [hrows] at h hr hsorted
    obtain rfl := Option.some.inj h
    rcases List.mem_cons.mp hr with rfl | hr
    · rw [claimsBefore_iff]
    · exact (List.pairwise_cons.mp hsorted).1 r hr

theorem firstToClaim_some {rows : List JobRow} (h : rows ≠ []) : ∃ job, firstToClaim rows = some job := by
  cases hrows : firstToClaim rows with
  | some job => exact ⟨job, rfl⟩
  | none =>
    have hnil := List.head?_eq_none_iff.mp hrows
    have hperm := List.perm_insertionSort (fun a b : JobRow => claimsBefore a b = true) rows
    rw [hnil] at hperm
    exact absurd hperm.symm.eq_nil h

/-! ## The recovery a claim starts with -/

/-- The waiting jobs are the same, and no digest or attempt is new. -/
structure KeepsQueue (db db' : Db) : Prop where
  queue : ∀ (now : String) (i : Option String),
    db'.jobs.filter (isFirstClaim now i) = db.jobs.filter (isFirstClaim now i)
  digests : ∀ r' ∈ db'.jobs, ∀ d, r'.leaseTokenDigest = some d →
    ∃ r ∈ db.jobs, r.leaseTokenDigest = some d
  attemptIds : ∀ a' ∈ db'.attempts, ∃ a ∈ db.attempts, a.attemptId = a'.attemptId

theorem KeepsQueue.refl (db : Db) : KeepsQueue db db :=
  ⟨fun _ _ => rfl, fun r hr _ hd => ⟨r, hr, hd⟩, fun a ha => ⟨a, ha, rfl⟩⟩

theorem KeepsQueue.trans {a b c : Db} (h : KeepsQueue a b) (h' : KeepsQueue b c) : KeepsQueue a c := by
  refine ⟨fun now i => (h'.queue now i).trans (h.queue now i), ?_, ?_⟩
  · intro r hr d hd
    obtain ⟨r', hr', hd'⟩ := h'.digests r hr d hd
    exact h.digests r' hr' d hd'
  · intro x hx
    obtain ⟨y, hy, hxy⟩ := h'.attemptIds x hx
    obtain ⟨z, hz, hyz⟩ := h.attemptIds y hy
    exact ⟨z, hz, hyz.trans hxy⟩

/-- An UPDATE of rows a query leaves out, before and after, does not change its
answer. -/
theorem filter_updateWhere {α : Type} {p q : α → Bool} {f : α → α} {rows : List α}
    (h : ∀ r ∈ rows, q r = true → p r = false ∧ p (f r) = false) :
    (updateWhere q f rows).filter p = rows.filter p := by
  unfold updateWhere
  induction rows with
  | nil => rfl
  | cons r rest ih =>
    have hrest := ih fun x hx => h x (List.mem_cons_of_mem _ hx)
    rw [List.map_cons, List.filter_cons, List.filter_cons, hrest]
    by_cases hq : q r = true
    · obtain ⟨hbefore, hafter⟩ := h r (by simp) hq
      simp [hq, hbefore, hafter]
    · simp [hq]

/-- Fencing a running job keeps the queue. -/
theorem keepsQueue_fenced (hinv : TablesInv py db) {row : JobRow} {now : String} (hmem : row ∈ db.jobs)
    (hstarted : row.attemptsStarted ≠ 0) :
    KeepsQueue db (changed db row.invocationId (expiredJob · now)
      (endedAttempt · .expired recoveryReason now)) := by
  constructor
  · intro time i
    apply filter_updateWhere
    intro r hr hid
    obtain rfl := hinv.jobs.eq_of_id hr hmem (of_decide_eq_true hid)
    have hkept : (expiredJob r now).attemptsStarted = r.attemptsStarted := by
      unfold expiredJob
      split <;> rfl
    simp [isFirstClaim, hkept, hstarted]
  · intro r' hr' d hd
    obtain ⟨r, hr, hshape⟩ := mem_updateWhere.mp hr'
    refine ⟨r, hr, ?_⟩
    split at hshape
    · have hnone : (expiredJob r now).leaseTokenDigest = none := by
        unfold expiredJob
        split <;> rfl
      rw [hshape, hnone] at hd
      cases hd
    · rw [← hd, hshape]
  · intro a' ha'
    obtain ⟨a, ha, hshape⟩ := mem_updateWhere.mp ha'
    refine ⟨a, ha, ?_⟩
    rw [hshape]
    split <;> rfl

theorem AttemptInv.nodup (h : AttemptInv py db) : db.attempts.Nodup :=
  h.single.imp fun hab heq => hab (congrArg AttemptRow.invocationId heq)

/-- **One turn of the recovery never raises.** -/
theorem recoverRow_total (hinv : TablesInv py db) {now : String} {row : JobRow} (hmem : row ∈ db.jobs)
    (hpast : PastDeadline now row) : ∃ out db', recoverRow py now row db = (.ok out, db') := by
  obtain ⟨hrunning, -⟩ := hpast
  have hstarted : row.attemptsStarted ≠ 0 := by
    intro hzero
    have hqueued := (hinv.attempts.waiting row hmem hzero).1
    rw [hrunning] at hqueued
    cases hqueued
  obtain ⟨a, ha, hheld⟩ := hinv.attempts.started row hmem hstarted
  obtain ⟨hstatus, howner, hdigest, hbeat, hexpiry⟩ := hheld.running hrunning
  have hread : rowToJob py row = .ok row := rowToJob_ok.mpr ⟨hinv.jobs.ok row hmem, rfl⟩
  have hnumber : a.attemptNumber = row.attemptsStarted := by
    rw [hheld.firstAttempt.1, hheld.firstJob.1]
  have hepoch : a.leaseEpoch = row.leaseEpoch := by
    rw [hheld.firstAttempt.2, hheld.firstJob.2]
  -- the attempt is the one row each statement about it finds
  have hone : ∀ p : AttemptRow → Bool, p a = true →
      (∀ b, p b = true → b.invocationId = row.invocationId) → db.attempts.filter p = [a] := by
    intro p hpa hpid
    apply filter_eq_singleton hinv.attempts.nodup ha hpa
    intro b hb hpb
    exact hinv.attempts.eq_of_id hb ha ((hpid b hpb).trans hheld.same.symm)
  have hcolumns : leaseColumns row = .ok (a.workerId, a.leaseTokenDigest, a.heartbeatAt, a.leaseExpiresAt) := by
    rw [leaseColumns, howner, hdigest, hbeat, hexpiry]
  have hload : loadRunningAttempt py row.invocationId row.attemptsStarted row.leaseEpoch none db =
      (.ok a, db) := by
    simp only [loadRunningAttempt, Txn.bind_ok, Txn.query_ok]
    refine ⟨[a], db, ⟨hone _ ?_ ?_, rfl⟩, ?_⟩
    · simp [hheld.same, hnumber, hepoch, hstatus]
    · intro b hb
      simp only [Bool.and_eq_true, decide_eq_true_eq] at hb
      exact hb.1.1.1.1
    · exact Txn.lift_ok.mpr ⟨rowToAttempt_ok.mpr ⟨hheld.ok, rfl⟩, rfl⟩
  have howned : validateRunningAttemptOwner a row.invocationId row.attemptsStarted row.leaseEpoch
      a.workerId a.leaseTokenDigest a.heartbeatAt a.leaseExpiresAt none db = (.ok (), db) :=
    Txn.ensure_ok.mpr ⟨⟨hheld.same, hnumber, hepoch, rfl, rfl, rfl, rfl, by simp⟩, rfl⟩
  have hattempts : db.attempts.countP (fun b => b.invocationId = row.invocationId &&
      b.attemptNumber = row.attemptsStarted && b.leaseEpoch = row.leaseEpoch && b.status = .running) = 1 := by
    rw [List.countP_eq_length_filter, hone]
    · rfl
    · simp [hheld.same, hnumber, hepoch, hstatus]
    · intro b hb
      simp only [Bool.and_eq_true, decide_eq_true_eq] at hb
      exact hb.1.1.1
  have hjobs : db.jobs.countP (isRunningAt row.invocationId row.leaseEpoch) = 1 := by
    rw [List.countP_eq_length_filter, filter_eq_singleton hinv.jobs.nodup hmem]
    · rfl
    · simp [isRunningAt, hrunning]
    · intro r hr hp
      simp only [isRunningAt, Bool.and_eq_true, decide_eq_true_eq] at hp
      exact hinv.jobs.eq_of_id hr hmem hp.1.1
  simp only [recoverRow, Txn.bind_ok, Txn.lift_ok, Txn.ensure_ok, Txn.pure_ok, updateAttempts_ok,
    updateJobs_ok]
  exact ⟨_, _, row, db, ⟨hread, rfl⟩, _, db, ⟨hcolumns, rfl⟩, a, db, hload, (), db, howned, 1, _,
    ⟨hattempts.symm, rfl⟩, (), _, ⟨rfl, rfl⟩, 1, _, ⟨hjobs.symm, rfl⟩, (), _, ⟨rfl, rfl⟩, rfl, rfl⟩

/-- **Nor does the loop**, over rows of different jobs. -/
theorem recoverAll_total {now : String} (hnow : PersistedTimestamp py now) {rows : List JobRow}
    (hinv : TablesInv py db) (hpair : rows.Pairwise fun a b => a.invocationId ≠ b.invocationId)
    (hrows : ∀ row ∈ rows, row ∈ db.jobs ∧ PastDeadline now row) :
    ∃ out db', Txn.forEach (recoverRow py now) rows db = (.ok out, db') ∧ TablesInv py db' ∧
      KeepsQueue db db' := by
  induction rows generalizing db with
  | nil => exact ⟨[], db, Txn.forEach_nil_ok.mpr ⟨rfl, rfl⟩, hinv, .refl db⟩
  | cons row rest ih =>
    obtain ⟨hmem, hpast⟩ := hrows row (by simp)
    obtain ⟨b, db₁, hrow⟩ := recoverRow_total hinv hmem hpast
    obtain ⟨-, hchanged, hshift⟩ := recoverRow_ok hinv hnow hmem hpast hrow
    obtain ⟨hne, hpair⟩ := List.pairwise_cons.mp hpair
    have hleft : ∀ r ∈ rest, r ∈ db₁.jobs ∧ PastDeadline now r := by
      intro r hr
      obtain ⟨hrmem, hrpast⟩ := hrows r (List.mem_cons_of_mem _ hr)
      refine ⟨?_, hrpast⟩
      rw [hchanged]
      refine mem_updateWhere.mpr ⟨r, hrmem, ?_⟩
      have hrne : r.invocationId ≠ row.invocationId := fun e => hne r hr e.symm
      simp [hrne]
    have hstarted : row.attemptsStarted ≠ 0 := by
      intro hzero
      have hqueued := (hinv.attempts.waiting row hmem hzero).1
      rw [hpast.1] at hqueued
      cases hqueued
    obtain ⟨bs, db', hrest, hinv', hkept⟩ := ih (hinv.shift hshift) hpair hleft
    have hfirst : KeepsQueue db db₁ := hchanged ▸ keepsQueue_fenced hinv hmem hstarted
    exact ⟨b :: bs, db', Txn.forEach_cons_ok.mpr ⟨b, db₁, bs, hrow, hrest, rfl⟩, hinv',
      hfirst.trans hkept⟩

/-- **A recovery never raises and keeps the queue.** -/
theorem recoverRows_total {now : String} (hnow : PersistedTimestamp py now) (hinv : TablesInv py db)
    (i : Option String) (limit : Option Nat) :
    ∃ out db', recoverRows py now i limit db = (.ok out, db') ∧ TablesInv py db' ∧ KeepsQueue db db' := by
  obtain ⟨hmem, hpair⟩ := expired_rows hinv now i limit
  obtain ⟨out, db', hrun, hinv', hkept⟩ := recoverAll_total hnow hinv hpair hmem
  refine ⟨out, db', ?_, hinv', hkept⟩
  simp only [recoverRows, Txn.bind_ok, Txn.query_ok]
  exact ⟨_, db, ⟨rfl, rfl⟩, hrun⟩

/-! ## The selection -/

/-- `_require_non_regressing_clock` raised. -/
def clockRegressed : StoreError :=
  ⟨.clockRegression, "invocation store clock precedes durable invocation activity"⟩

/-- A reading the selected job may be claimed at. -/
def NotBefore (now : String) (job : JobRow) : Prop :=
  ¬now < job.createdAt ∧ ¬now < job.updatedAt

instance (now : String) (job : JobRow) : Decidable (NotBefore now job) :=
  inferInstanceAs (Decidable (_ ∧ _))

theorem notBefore_iff {now : String} {job : JobRow} :
    NotBefore now job ↔ ∀ t ∈ [job.createdAt, job.updatedAt], ¬now < t := by
  rw [List.forall_mem_cons, List.forall_mem_singleton]
  rfl

/-- A waiting job was never touched. -/
theorem waiting_untouched {job : JobRow} {now : String} {i : Option String} (hok : JobOk py job)
    (h : isFirstClaim now i job = true) : isUntouched job = true := by
  simp only [isFirstClaim, Bool.and_eq_true, decide_eq_true_eq] at h
  obtain ⟨⟨⟨hqueued, hzero⟩, -⟩, -⟩ := h
  have hresult : job.resultRef = none := by
    rw [← Option.not_isSome_iff_eq_none]
    intro hsome
    have hsucceeded := hok.outcome.2.2.2.2.2.2 hsome
    rw [hqueued] at hsucceeded
    cases hsucceeded
  simp [isUntouched, hok.counts.2.2.2.2.1 hzero, hresult, hok.outcome.2.2.2.1 hzero]

theorem untouched_queue (hinv : JobInv py db) (now : String) (i : Option String) :
    db.jobs.filter (fun r => isFirstClaim now i r && isUntouched r) =
      db.jobs.filter (isFirstClaim now i) := by
  apply List.filter_congr
  intro r hr
  by_cases hfirst : isFirstClaim now i r = true
  · rw [hfirst, waiting_untouched (hinv.ok r hr) hfirst, Bool.and_self]
  · rw [Bool.not_eq_true] at hfirst
    rw [hfirst, Bool.false_and]

/-- What a selection finds where a job waits, up to the reading. -/
theorem selectFirstClaim_eq (hinv : TablesInv py db) {workerId now : String} {i : Option String}
    {job : JobRow} (hworker : TextOk maxIdentityBytes workerId)
    (hnamed : ∀ t ∈ i, TextOk maxIdentityBytes t) (hnow : normalizeTimestamp py now "now" = .ok now)
    (hfirst : firstToClaim (db.jobs.filter (isFirstClaim now i)) = some job) :
    selectFirstClaim py workerId i now db =
      if NotBefore now job then (.ok (some job), db) else (.error clockRegressed, db) := by
  obtain ⟨hmem, hwaits⟩ := List.mem_filter.mp (firstToClaim_mem hfirst)
  have hok := hinv.jobs.ok job hmem
  have hread : rowToJob py job = .ok job := rowToJob_ok.mpr ⟨hok, rfl⟩
  have hzero : job.attemptsStarted = 0 := by
    simp only [isFirstClaim, Bool.and_eq_true, decide_eq_true_eq] at hwaits
    exact hwaits.1.1.2
  have hnone : db.attempts.any (fun a => decide (a.invocationId = job.invocationId)) = false := by
    rw [List.any_eq_false]
    intro a ha
    simpa using (hinv.attempts.waiting job hmem hzero).2 a ha
  have hagain := hfirst
  rw [← untouched_queue hinv.jobs] at hagain
  have hbudget : job.attemptsStarted + 1 ≤ job.maxAttempts := by
    rw [hzero]
    exact hok.counts.1.1
  have hepoch : job.leaseEpoch < maxSqliteInteger := by
    rw [hok.counts.2.2.2.2.1 hzero]
    decide
  split
  next hclock =>
    simp only [selectFirstClaim, Txn.bind_ok, Txn.lift_ok, Txn.query_ok, required_ok, requiredOptional_ok]
    refine ⟨workerId, db, ⟨⟨hworker, rfl⟩, rfl⟩, i, db, ⟨⟨hnamed, rfl⟩, rfl⟩, now, db, ⟨hnow, rfl⟩, some job, db,
      ⟨hfirst, rfl⟩, ?_⟩
    simp only [Txn.bind_ok, Txn.lift_ok, Txn.query_ok, Txn.ensure_ok]
    refine ⟨job, db, ⟨hread, rfl⟩, false, db, ⟨hnone, rfl⟩, (), db, ⟨rfl, rfl⟩, some job, db, ⟨hagain, rfl⟩, ?_⟩
    simp only [Txn.bind_ok, Txn.lift_ok, Txn.ensure_ok, Txn.pure_ok, requireNonRegressingClock_ok]
    exact ⟨job, db, ⟨hread, rfl⟩, (), db, ⟨rfl, rfl⟩, (), db, ⟨notBefore_iff.mp hclock, rfl⟩, (), db,
      ⟨hbudget, rfl⟩, (), db, ⟨hepoch, rfl⟩, rfl, rfl⟩
  next hclock =>
    simp only [selectFirstClaim, Txn.bind_error, Txn.lift_ok, Txn.query_ok, required_ok, requiredOptional_ok]
    refine .inr ⟨workerId, db, ⟨⟨hworker, rfl⟩, rfl⟩, .inr ⟨i, db, ⟨⟨hnamed, rfl⟩, rfl⟩, .inr ⟨now, db, ⟨hnow, rfl⟩,
      .inr ⟨some job, db, ⟨hfirst, rfl⟩, ?_⟩⟩⟩⟩
    simp only [Txn.bind_error, Txn.lift_ok, Txn.query_ok, Txn.ensure_ok]
    refine .inr ⟨job, db, ⟨hread, rfl⟩, .inr ⟨false, db, ⟨hnone, rfl⟩, .inr ⟨(), db, ⟨rfl, rfl⟩, .inr ⟨some job, db,
      ⟨hagain, rfl⟩, ?_⟩⟩⟩⟩
    simp only [Txn.bind_error, Txn.lift_ok, Txn.ensure_ok]
    refine .inr ⟨job, db, ⟨hread, rfl⟩, .inr ⟨(), db, ⟨rfl, rfl⟩, .inl ?_⟩⟩
    exact Txn.ensure_error.mpr ⟨fun h => hclock (notBefore_iff.mpr h), rfl, rfl⟩

/-! ## The lease -/

/-- Identifiers as the store draws them: well formed, and not in use. -/
structure Unused (db : Db) (attemptId token : String) : Prop where
  attemptText : TextOk maxIdentityBytes attemptId
  tokenText : TextOk maxIdentityBytes token
  attempt : ∀ a ∈ db.attempts, a.attemptId ≠ attemptId
  digest : ∀ r ∈ db.jobs, r.leaseTokenDigest ≠ some (hexDigest token)

theorem Unused.kept {db' : Db} {attemptId token : String} (h : Unused db attemptId token)
    (hkept : KeepsQueue db db') : Unused db' attemptId token := by
  refine ⟨h.attemptText, h.tokenText, ?_, ?_⟩
  · intro a ha heq
    obtain ⟨b, hb, hsame⟩ := hkept.attemptIds a ha
    exact h.attempt b hb (hsame.trans heq)
  · intro r hr hd
    obtain ⟨r', hr', hd'⟩ := hkept.digests r hr _ hd
    exact h.digest r' hr' hd'

/-- A named claim meets its job alone. -/
theorem named_queue (hinv : JobInv py db) {job : JobRow} {now : String} (hmem : job ∈ db.jobs)
    (hwaits : isFirstClaim now none job = true) :
    db.jobs.filter (isFirstClaim now (some job.invocationId)) = [job] := by
  apply filter_eq_singleton hinv.nodup hmem
  · rw [isFirstClaim, Bool.and_true] at hwaits
    rw [isFirstClaim, hwaits, Bool.true_and]
    exact decide_eq_true rfl
  · intro r hr hnamed
    simp only [isFirstClaim, Bool.and_eq_true, decide_eq_true_eq] at hnamed
    exact hinv.eq_of_id hr hmem hnamed.2

/-- **A first claim leases its job.** -/
theorem claimFirst_total (hinv : TablesInv py db) {workerId now deadline attemptId token : String}
    {job : JobRow} (hworker : TextOk maxIdentityBytes workerId) (hnow : PersistedTimestamp py now)
    (hdeadline : PersistedTimestamp py deadline) (hlater : now < deadline)
    (hdrawn : Unused db attemptId token) (hmem : job ∈ db.jobs)
    (hwaits : isFirstClaim now none job = true) (hclock : NotBefore now job) :
    ∃ db', claimFirst py workerId (some job.invocationId) now deadline attemptId token db =
        (.ok (some (leaseOf job attemptId workerId token now deadline)), db') ∧
      startedJob job workerId (hexDigest token) deadline now ∈ db'.jobs := by
  have hsame : ∀ {t : String} (name : String), PersistedTimestamp py t →
      normalizeTimestamp py t name = .ok t := by
    intro t name ht
    obtain ⟨m, hm, rfl⟩ := persistedTimestamp_iff.mp ht
    exact normalizeTimestamp_microText hm name
  have hqueue := named_queue hinv.jobs hmem hwaits
  have hselect : selectFirstClaim py workerId (some job.invocationId) now db = (.ok (some job), db) := by
    have hnamed : ∀ t ∈ some job.invocationId, TextOk maxIdentityBytes t := by
      rintro t ⟨⟩
      exact (hinv.jobs.ok job hmem).texts.1
    rw [selectFirstClaim_eq hinv hworker hnamed (hsame _ hnow) (by rw [hqueue]; rfl), if_pos hclock]
  have hzero : job.attemptsStarted = 0 := by
    simp only [isFirstClaim, Bool.and_eq_true, decide_eq_true_eq] at hwaits
    exact hwaits.1.1.2
  have hqueued := hinv.attempts.waiting job hmem hzero
  have htarget : isClaimTarget job.invocationId db job = true := by
    have hnone : db.attempts.any (fun a => decide (a.invocationId = job.invocationId)) = false := by
      rw [List.any_eq_false]
      intro a ha
      simpa using hqueued.2 a ha
    simp [isClaimTarget, hqueued.1, hzero, waiting_untouched (hinv.jobs.ok job hmem) hwaits, hnone]
  have hcount : db.jobs.countP (isClaimTarget job.invocationId db) = 1 := by
    rw [List.countP_eq_length_filter, filter_eq_singleton hinv.jobs.nodup hmem htarget]
    · rfl
    · intro r hr htaken
      simp only [isClaimTarget, Bool.and_eq_true, decide_eq_true_eq] at htaken
      exact hinv.jobs.eq_of_id hr hmem htaken.1.1.1.1
  have hfresh : AttemptFresh db.attempts
      (openedAttempt job attemptId workerId (hexDigest token) now deadline) := by
    intro a ha
    have hother : a.invocationId ≠ job.invocationId := hqueued.2 a ha
    exact ⟨hdrawn.attempt a ha, fun h => hother h.1, fun h => hother h.1⟩
  have hleased : startedJob job workerId (hexDigest token) deadline now ∈
      updateWhere (isClaimTarget job.invocationId db) (startedJob · workerId (hexDigest token) deadline now)
        db.jobs :=
    mem_updateWhere.mpr ⟨job, hmem, by simp [htarget]⟩
  refine ⟨{ db with
    jobs := updateWhere (isClaimTarget job.invocationId db)
      (startedJob · workerId (hexDigest token) deadline now) db.jobs
    attempts := db.attempts ++ [openedAttempt job attemptId workerId (hexDigest token) now deadline] },
    ?_, hleased⟩
  simp only [claimFirst, Txn.bind_ok, Txn.lift_ok, Txn.ensure_ok, required_ok]
  refine ⟨workerId, db, ⟨⟨hworker, rfl⟩, rfl⟩, now, db, ⟨hsame _ hnow, rfl⟩, deadline, db,
    ⟨hsame _ hdeadline, rfl⟩, (), db, ⟨hlater, rfl⟩, attemptId, db, ⟨⟨hdrawn.attemptText, rfl⟩, rfl⟩, token, db,
    ⟨⟨hdrawn.tokenText, rfl⟩, rfl⟩, some job, db, hselect, ?_⟩
  simp only [Txn.bind_ok, Txn.query_ok, Txn.ensure_ok, Txn.pure_ok, updateJobs_ok, insertAttempt_ok]
  exact ⟨db.jobs, db, ⟨rfl, rfl⟩, (), db, ⟨fun r hr _ => hdrawn.digest r hr, rfl⟩, 1, _, ⟨hcount.symm, rfl⟩,
    (), _, ⟨rfl, rfl⟩, (), _, ⟨hfresh, rfl⟩, trivial, rfl⟩

/-! ## The claim -/

/-- **A claim without a name, where a job waits**: it is about the first in
claim order, whatever the other jobs are. At a reading that is not before that
job's creation and last update it leases it; at any other it raises and leaves
everything as it was. -/
theorem claim_next_serves {workerId clock now deadline suffix token : String} {leaseMicros : Nat}
    (h : Reachable (attemptSystem py) db) (hworker : TextOk maxIdentityBytes workerId)
    (hclock : normalizeTimestamp py clock "clock" = .ok now)
    (hdeadline : leaseDeadline py now leaseMicros = .ok deadline)
    (hdrawn : Unused db ("attempt_" ++ suffix) token)
    (hwaits : ∃ r ∈ db.jobs, isFirstClaim now none r = true) :
    ∃ job ∈ db.jobs, isFirstClaim now none job = true ∧
      (∀ r ∈ db.jobs, isFirstClaim now none r = true → claimsBefore job r = true) ∧
      (NotBefore now job → ∃ db', claim py workerId none leaseMicros clock suffix token db =
          (.ok (some (leaseOf job ("attempt_" ++ suffix) workerId token now deadline)), db') ∧
        startedJob job workerId (hexDigest token) deadline now ∈ db'.jobs) ∧
      (¬NotBefore now job →
        claim py workerId none leaseMicros clock suffix token db = (.error clockRegressed, db)) := by
  obtain ⟨start, ls, hstart, hrun⟩ := h
  rw [show start = Db.empty from hstart] at hrun
  have hinv := run_tablesInv hrun (tablesInv_empty py)
  have hnow := persisted_of_normalized hclock
  obtain ⟨hlater, hexpiry⟩ := leaseDeadline_ok hdeadline
  obtain ⟨out, db₁, hrecover, hinv₁, hkept⟩ := recoverRows_total hnow hinv none (some 1000)
  obtain ⟨r, hr, hrwaits⟩ := hwaits
  have hsome : db.jobs.filter (isFirstClaim now none) ≠ [] :=
    List.ne_nil_of_mem (List.mem_filter.mpr ⟨hr, hrwaits⟩)
  obtain ⟨job, hfirst⟩ := firstToClaim_some hsome
  have hmem := List.mem_filter.mp (firstToClaim_mem hfirst)
  -- the recovery left the job where it was
  have hfirst₁ : firstToClaim (db₁.jobs.filter (isFirstClaim now none)) = some job := by
    rw [hkept.queue, hfirst]
  have hmem₁ := List.mem_filter.mp (firstToClaim_mem hfirst₁)
  have hselect := selectFirstClaim_eq hinv₁ hworker (by simp) (normalizeTimestamp_idem hclock _) hfirst₁
  refine ⟨job, hmem.1, hmem.2, ?_, ?_, ?_⟩
  · intro r hr hwaits
    exact firstToClaim_least hfirst r (List.mem_filter.mpr ⟨hr, hwaits⟩)
  · intro hbefore
    rw [if_pos hbefore] at hselect
    obtain ⟨db', hclaim, hleased⟩ := claimFirst_total hinv₁ hworker hnow hexpiry hlater
      (hdrawn.kept hkept) hmem₁.1 hmem₁.2 hbefore
    refine ⟨db', ?_, hleased⟩
    have hbody : claimInTransaction py workerId none leaseMicros clock suffix token db =
        (.ok (some (leaseOf job ("attempt_" ++ suffix) workerId token now deadline),
          if out.isEmpty then none else some (out, now)), db') := by
      simp only [claimInTransaction, Txn.bind_ok, Txn.lift_ok]
      refine ⟨now, db, ⟨hclock, rfl⟩, deadline, db, ⟨hdeadline, rfl⟩, out, db₁, hrecover, some job, db₁,
        hselect, ?_⟩
      simp only [Txn.bind_ok]
      refine ⟨_, db', hclaim, ?_⟩
      simp only [Txn.bind_ok, Txn.ensure_ok, Txn.pure_ok]
      exact ⟨(), db', ⟨⟨rfl, rfl, rfl, rfl, rfl, rfl, rfl, rfl⟩, rfl⟩, trivial, rfl⟩
    simp only [claim, Txn.bind_ok, Txn.atomically_ok, Txn.lift_ok, required_ok, requiredOptional_ok]
    exact ⟨workerId, db, ⟨⟨hworker, rfl⟩, rfl⟩, none, db, ⟨⟨by simp, rfl⟩, rfl⟩, _, db', hbody,
      Txn.pure_ok.mpr ⟨rfl, rfl⟩⟩
  · intro hbefore
    rw [if_neg hbefore] at hselect
    have hbody : claimInTransaction py workerId none leaseMicros clock suffix token db =
        (.error clockRegressed, db₁) := by
      simp only [claimInTransaction, Txn.bind_error, Txn.lift_ok]
      exact .inr ⟨now, db, ⟨hclock, rfl⟩, .inr ⟨deadline, db, ⟨hdeadline, rfl⟩, .inr ⟨out, db₁, hrecover,
        .inl hselect⟩⟩⟩
    have hraised : Txn.atomically
        (claimInTransaction py workerId none leaseMicros clock suffix token) db =
          (.error clockRegressed, db) := by
      rw [Txn.atomically, hbody]
    simp only [claim, Txn.bind_error, Txn.lift_ok, required_ok, requiredOptional_ok]
    exact .inr ⟨workerId, db, ⟨⟨hworker, rfl⟩, rfl⟩, .inr ⟨none, db, ⟨⟨by simp, rfl⟩, rfl⟩, .inl hraised⟩⟩

/-! ## A job ahead of the clock -/

/-- A second request, more urgent and due at once, made when the clock was
ahead. -/
def urgentSpec : InvocationJobSpec .py311 :=
  { sampleSpec with
    taskId := "u"
    idempotencyKey := "l"
    invocationId := "u"
    priority := 100
    availableAt := some "2024-01-01T00:00:00Z"
    accepted := by decide +kernel }

def waitingCalls : List (AttemptCall .py311) :=
  [.enqueue sampleSpec "2024-01-01T00:00:00Z", .enqueue urgentSpec "2024-01-01T00:00:10Z"]

def readingText : String := "2024-01-01T00:00:05Z"

/-- Once the clock has passed both creations a job is leased. -/
theorem claim_next_serves_later :
    ∃ lease db', claim .py311 "w" none 1000000 "2024-01-01T00:00:20Z" "x" "token"
      (stateAfter waitingCalls Db.empty) = (.ok (some lease), db') := by
  have hclock : normalizeTimestamp .py311 "2024-01-01T00:00:20Z" "clock" =
      .ok "2024-01-01T00:00:20.000000Z" := by decide +kernel
  have hdeadline : leaseDeadline .py311 "2024-01-01T00:00:20.000000Z" 1000000 =
      .ok "2024-01-01T00:00:21.000000Z" := by decide +kernel
  have hdrawn : Unused (stateAfter waitingCalls Db.empty) ("attempt_" ++ "x") "token" :=
    ⟨by decide +kernel, by decide +kernel, by decide +kernel, by decide +kernel⟩
  have hwaits : ∃ r ∈ (stateAfter waitingCalls Db.empty).jobs,
      isFirstClaim "2024-01-01T00:00:20.000000Z" none r = true := by decide +kernel
  have hall : ∀ r ∈ (stateAfter waitingCalls Db.empty).jobs,
      NotBefore "2024-01-01T00:00:20.000000Z" r := by decide +kernel
  have hworker : TextOk maxIdentityBytes "w" := by decide +kernel
  obtain ⟨job, hjob, -, -, hserves, -⟩ := claim_next_serves
    ⟨Db.empty, _, rfl, run_calls waitingCalls Db.empty⟩ hworker hclock hdeadline hdrawn hwaits
  obtain ⟨db', hclaim, -⟩ := hserves (hall job hjob)
  exact ⟨_, db', hclaim⟩

/-- **The urgent job blocks the other**: at a reading before its creation a
claim without a name raises, though the other job may be claimed. -/
theorem urgent_blocks :
    (claim .py311 "w" none 1000000 readingText "x" "token" (stateAfter waitingCalls Db.empty)).1 =
        .error clockRegressed ∧
      ((claim .py311 "w" (some "i") 1000000 readingText "x" "token"
        (stateAfter waitingCalls Db.empty)).1.toOption.bind fun l => l.map (·.invocationId)) =
          some "i" := by
  constructor <;> decide +kernel

end QuantumEntanglement.Attempts
