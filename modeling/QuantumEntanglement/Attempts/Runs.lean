import QuantumEntanglement.Attempts.Operations

/-
  Runs of the attempt store — any workers, any clocks, any order

  A label of `attemptSystem` is a call with its reply. A call that raises
  leaves the database as it was, and every call that returns is a run of
  shifts (`Operations`), so a run of calls is a run of shifts whose grants and
  endings are those the replies report.

  What is proved:
    1. `exec_raised` — a call that raises changes nothing.
    2. `attempt_traces` — the trace of shifts behind a run of calls.
    3. `attempts_at_most_once` — at most one lease for each invocation, fenced
       writes, and one ending for each terminal job.
    4. `attempts_readable` — every stored row is read back, and the recovery
       snapshot of every task validates.
-/

namespace QuantumEntanglement.Attempts

open Transaction TransitionSystem SingleDispatch IsoTime Sha256

/-- A call of a worker, with the clock it runs at and what the store draws. -/
inductive AttemptCall (py : PyVersion) where
  | enqueue (spec : InvocationJobSpec py) (clock : String)
  | claim (workerId : String) (invocationId : Option String) (leaseMicros : Nat)
      (clock attemptSuffix leaseToken : String)
  | heartbeat (lease : InvocationLease) (leaseMicros : Nat) (clock : String)
  | complete (lease : InvocationLease) (resultRef : Option String) (clock : String)
  | fail (lease : InvocationLease) (error : String) (retryAt : Option String) (clock : String)
  | recoverExpired (limit : Int) (clock : String)

/-- What a call answers. -/
inductive AttemptReply where
  | job (job : JobRow)
  | lease (lease : Option InvocationLease)
  | held (held : Bool)
  | recovered (rows : List (String × Bool))
  | raised (error : StoreError)
  deriving DecidableEq

/-- The reply of a program that ended. -/
def answer {α : Type} (wrap : α → AttemptReply) : Except StoreError α × Db → AttemptReply × Db
  | (.ok a, db) => (wrap a, db)
  | (.error e, db) => (.raised e, db)

variable {py : PyVersion}

/-- A call on the database. -/
def AttemptCall.exec : AttemptCall py → Db → AttemptReply × Db
  | .enqueue spec clock, db => answer .job (Attempts.enqueue py spec clock db)
  | .claim workerId invocationId lease clock suffix token, db =>
    answer .lease (Attempts.claim py workerId invocationId lease clock suffix token db)
  | .heartbeat lease micros clock, db => answer .held (Attempts.heartbeat py lease micros clock db)
  | .complete lease resultRef clock, db =>
    answer .held (Attempts.complete py lease resultRef clock db)
  | .fail lease error retryAt clock, db =>
    answer .held (Attempts.fail py lease error retryAt clock db)
  | .recoverExpired limit clock, db =>
    answer .recovered (Attempts.recoverExpired py limit clock db)

/-- The store as a system: one call at a time, by anyone, at any clock. -/
def attemptSystem (py : PyVersion) : System Db (AttemptCall py × AttemptReply) :=
  ⟨fun db => db = Db.empty, fun db l db' => l.1.exec db = (l.2, db')⟩

/-! ## Calls that raise -/

theorem answer_raised {α : Type} {wrap : α → AttemptReply} {m : DbTxn α} {e : StoreError}
    {db db' : Db} (hm : Txn.Restores m) (hwrap : ∀ a, wrap a ≠ .raised e)
    (h : answer wrap (m db) = (.raised e, db')) : db' = db := by
  rcases hrun : m db with ⟨r, s⟩
  rw [hrun] at h
  cases r with
  | ok a =>
    simp only [answer, Prod.mk.injEq] at h
    exact absurd h.1 (hwrap a)
  | error e' =>
    simp only [answer, Prod.mk.injEq] at h
    rw [← h.2]
    exact hm _ _ _ hrun

/-- **A call that raises leaves both tables as they were.** -/
theorem exec_raised {call : AttemptCall py} {e : StoreError} {db db' : Db}
    (h : call.exec db = (.raised e, db')) : db' = db := by
  cases call with
  | enqueue spec clock =>
    exact answer_raised (.atomically _) (by simp) h
  | claim workerId invocationId lease clock suffix token =>
    exact answer_raised (.bind (by simp) fun _ => .bind (by simp) fun _ => .map (.atomically _) _)
      (by simp) h
  | heartbeat lease micros clock =>
    exact answer_raised (.bind (by simp) fun _ => .map (.atomically _) _) (by simp) h
  | complete lease resultRef clock =>
    exact answer_raised (.bind (by simp) fun _ => .bind (by simp) fun _ => .map (.atomically _) _)
      (by simp) h
  | fail lease error retryAt clock =>
    exact answer_raised (.bind (by simp) fun _ => .bind (by simp) fun _ => .map (.atomically _) _)
      (by simp) h
  | recoverExpired limit clock =>
    exact answer_raised (.bind (by simp) fun _ => .map (.atomically _) _) (by simp) h

/-! ## The trace behind a run -/

/-- The lease a call granted for an invocation. -/
def grantTo (invocationId : String) : AttemptCall py × AttemptReply → Option InvocationLease
  | (.claim .., .lease (some lease)) =>
    if lease.invocationId = invocationId then some lease else none
  | _ => none

/-- How a worker ends its job. -/
inductive Ending where
  | result (resultRef : Option String)
  | error (text : String)
  deriving DecidableEq

/-- The ending a call reported for an invocation. -/
def endingOf (invocationId : String) : AttemptCall py × AttemptReply → Option Ending
  | (.complete lease resultRef _, .held true) =>
    if lease.invocationId = invocationId then some (.result resultRef) else none
  | (.fail lease error _ _, .held true) =>
    if lease.invocationId = invocationId then some (.error error) else none
  | _ => none

/-- The outcome is the one an ending supplied. -/
def Ending.Fits : Ending → Outcome → Prop
  | .result resultRef, o => o.status = .succeeded ∧ o.resultRef = resultRef
  | .error text, o => (o.status = .failed ∨ o.status = .queued) ∧
      ∃ stored, storedError text = .ok stored ∧ o.lastError = some stored

/-- The outcome of a lease that expired. -/
def Fenced (o : Outcome) : Prop :=
  (o.status = .failed ∨ o.status = .queued) ∧ o.lastError = some recoveryReason

/-- A trace of shifts that shows what the replies report. -/
structure Traced (ls : List (AttemptCall py × AttemptReply))
    (ts : List (String × SingleDispatch.Signal String String Outcome)) : Prop where
  grants : ∀ i, (signalsFor i ts).filterMap (·.grant?) =
    (ls.filterMap (grantTo i)).map (fun l => hexDigest l.leaseToken)
  endings : ∀ i, List.Forall₂ Ending.Fits (ls.filterMap (endingOf i))
    ((signalsFor i ts).filterMap (·.finish?))
  fences : ∀ i, ∀ o ∈ (signalsFor i ts).filterMap (·.fence?), Fenced o

theorem signalsFor_append (i : String)
    (a b : List (String × SingleDispatch.Signal String String Outcome)) :
    signalsFor i (a ++ b) = signalsFor i a ++ signalsFor i b := by
  simp [signalsFor]

theorem signalsFor_single (i j : String) (s : SingleDispatch.Signal String String Outcome) :
    signalsFor i [(j, s)] = if j = i then [s] else [] := by
  by_cases h : j = i <;> simp [signalsFor, h]

theorem Traced.append {ls ls' : List (AttemptCall py × AttemptReply)}
    {ts ts' : List (String × SingleDispatch.Signal String String Outcome)} (h : Traced ls ts)
    (h' : Traced ls' ts') : Traced (ls ++ ls') (ts ++ ts') := by
  constructor
  · intro i
    rw [signalsFor_append, List.filterMap_append, List.filterMap_append, List.map_append,
      h.grants, h'.grants]
  · intro i
    rw [signalsFor_append, List.filterMap_append, List.filterMap_append]
    exact List.rel_append (h.endings i) (h'.endings i)
  · intro i o ho
    rw [signalsFor_append, List.filterMap_append] at ho
    rcases List.mem_append.mp ho with ho | ho
    · exact h.fences i o ho
    · exact h'.fences i o ho

/-- A call that neither granted nor ended anything shows no signal. -/
theorem traced_quiet {l : AttemptCall py × AttemptReply} (hgrant : ∀ i, grantTo i l = none)
    (hending : ∀ i, endingOf i l = none) : Traced [l] [] := by
  refine ⟨fun i => ?_, fun i => ?_, fun i => by simp [signalsFor]⟩
  · simp [hgrant i, signalsFor]
  · simp [hending i, signalsFor]

/-- Fences grant nothing and are no worker's ending. -/
theorem fences_signals (now : String) (rows : List JobRow) (i : String) :
    (signalsFor i (rows.map (fenceOf now))).filterMap (·.grant?) = [] ∧
      (signalsFor i (rows.map (fenceOf now))).filterMap (·.finish?) = [] ∧
      ∀ o ∈ (signalsFor i (rows.map (fenceOf now))).filterMap (·.fence?),
        ∃ r ∈ rows, o = fencedAs r now := by
  induction rows with
  | nil => simp [signalsFor]
  | cons row rest ih =>
    obtain ⟨hgrant, hfinish, hfence⟩ := ih
    have hcons : (row :: rest).map (fenceOf now) = [fenceOf now row] ++ rest.map (fenceOf now) := rfl
    rw [hcons, signalsFor_append, fenceOf, signalsFor_single]
    simp only [List.filterMap_append, hgrant, hfinish, List.append_nil]
    split
    next =>
      refine ⟨rfl, rfl, fun o ho => ?_⟩
      rcases List.mem_append.mp ho with ho | ho
      · exact ⟨row, by simp, List.mem_singleton.mp ho⟩
      · obtain ⟨r, hr, heq⟩ := hfence o ho
        exact ⟨r, by simp [hr], heq⟩
    next =>
      refine ⟨rfl, rfl, fun o ho => ?_⟩
      obtain ⟨r, hr, heq⟩ := hfence o (by simpa using ho)
      exact ⟨r, by simp [hr], heq⟩

theorem fencedAs_fenced (job : JobRow) (now : String) : Fenced (fencedAs job now) := by
  rw [fencedAs, expiredJob_eq]
  unfold failedJob Fenced
  split <;> simp

/-- A recovery shows its fences. -/
theorem traced_fences {l : AttemptCall py × AttemptReply} (hgrant : ∀ i, grantTo i l = none)
    (hending : ∀ i, endingOf i l = none) (now : String) (rows : List JobRow) :
    Traced [l] (rows.map (fenceOf now)) := by
  refine ⟨fun i => ?_, fun i => ?_, fun i o ho => ?_⟩
  · simp [hgrant i, (fences_signals now rows i).1]
  · rw [(fences_signals now rows i).2.1]
    simp [hending i]
  · obtain ⟨r, -, rfl⟩ := (fences_signals now rows i).2.2 o ho
    exact fencedAs_fenced r now

theorem answer_cases {α : Type} {wrap : α → AttemptReply} {x : Except StoreError α × Db}
    {reply : AttemptReply} {db' : Db} (h : answer wrap x = (reply, db')) :
    (∃ a, x = (.ok a, db') ∧ reply = wrap a) ∨ ∃ e, reply = .raised e := by
  obtain ⟨r, s⟩ := x
  cases r with
  | ok a =>
    simp only [answer, Prod.mk.injEq] at h
    exact .inl ⟨a, by rw [h.2], h.1.symm⟩
  | error e =>
    simp only [answer, Prod.mk.injEq] at h
    exact .inr ⟨e, h.1.symm⟩

/-- An insertion and a heartbeat show nothing. -/
theorem traced_silent {l : AttemptCall py × AttemptReply} {i : String}
    {s : SingleDispatch.Signal String String Outcome} (hgrant : ∀ m, grantTo m l = none)
    (hending : ∀ m, endingOf m l = none)
    (hs : s.grant? = none ∧ s.finish? = none ∧ s.fence? = none) : Traced [l] [(i, s)] := by
  obtain ⟨hg, hf, hx⟩ := hs
  refine ⟨fun m => ?_, fun m => ?_, fun m o ho => ?_⟩
  · rw [signalsFor_single]
    split <;> simp [hg, hgrant m]
  · rw [signalsFor_single]
    split <;> simp [hf, hending m]
  · rw [signalsFor_single] at ho
    split at ho <;> simp [hx] at ho

/-- The ending of a job shows the ending its call supplied. -/
theorem traced_ending {l : AttemptCall py × AttemptReply} {i digest now : String} {o : Outcome}
    {ending : Ending} (hgrant : ∀ m, grantTo m l = none)
    (hending : ∀ m, endingOf m l = if i = m then some ending else none) (hfits : ending.Fits o) :
    Traced [l] [(i, .finished digest now o)] := by
  refine ⟨fun m => ?_, fun m => ?_, fun m o ho => ?_⟩
  · rw [signalsFor_single]
    split <;> simp [Signal.grant?, hgrant m]
  · rw [signalsFor_single]
    split
    next him => simp [Signal.finish?, hending m, him, hfits]
    next him => simp [hending m, him]
  · rw [signalsFor_single] at ho
    split at ho <;> simp [Signal.fence?] at ho

/-- The start of a job shows the lease its call granted. -/
theorem traced_grant {l : AttemptCall py × AttemptReply} {lease : InvocationLease}
    {expiry : String}
    (hgrant : ∀ m, grantTo m l = if lease.invocationId = m then some lease else none)
    (hending : ∀ m, endingOf m l = none) :
    Traced [l] [(lease.invocationId, .granted (hexDigest lease.leaseToken) expiry)] := by
  refine ⟨fun m => ?_, fun m => ?_, fun m o ho => ?_⟩
  · rw [signalsFor_single]
    split
    next him => simp [Signal.grant?, hgrant m, him]
    next him => simp [hgrant m, him]
  · rw [signalsFor_single]
    split <;> simp [Signal.finish?, hending m]
  · rw [signalsFor_single] at ho
    split at ho <;> simp [Signal.fence?] at ho

/-- **A call is a run of shifts that shows what its reply reports.** -/
theorem exec_traces {call : AttemptCall py} {reply : AttemptReply} {db db' : Db}
    (hinv : TablesInv py db) (h : call.exec db = (reply, db')) :
    ∃ ts, Run (shifts py) db ts db' ∧ Traced [(call, reply)] ts := by
  have hquiet : ∀ e, reply = .raised e →
      ∃ ts, Run (shifts py) db ts db' ∧ Traced [(call, reply)] ts := by
    rintro e rfl
    obtain rfl := exec_raised h
    refine ⟨[], .done _, traced_quiet (fun i => ?_) (fun i => ?_)⟩ <;> cases call <;> rfl
  cases call with
  | enqueue spec clock =>
    rcases answer_cases h with ⟨job, hrun, rfl⟩ | ⟨e, he⟩
    · rcases enqueue_ok hrun with ⟨rfl, -⟩ | ⟨hshift, -⟩
      · exact ⟨[], .done _, traced_quiet (fun _ => rfl) (fun _ => rfl)⟩
      · exact ⟨_, hshift.run, traced_silent (fun _ => rfl) (fun _ => rfl) ⟨rfl, rfl, rfl⟩⟩
    · exact hquiet e he
  | claim workerId invocationId micros clock suffix token =>
    rcases answer_cases h with ⟨lease, hrun, rfl⟩ | ⟨e, he⟩
    · obtain ⟨now, rows, db₁, -, -, hfences, hclaim⟩ := claim_ok hinv hrun
      rcases hclaim with ⟨rfl, rfl⟩ | ⟨job, e, -, -, -, rfl, -, hshift⟩
      · exact ⟨_, hfences, traced_fences (fun _ => rfl) (fun _ => rfl) now rows⟩
      · refine ⟨_, hfences.append hshift.run, ?_⟩
        obtain ⟨hgrant, hfinish, hfence⟩ :
            (∀ i, (signalsFor i (rows.map (fenceOf now))).filterMap (·.grant?) = []) ∧
            (∀ i, (signalsFor i (rows.map (fenceOf now))).filterMap (·.finish?) = []) ∧
            ∀ i, ∀ o ∈ (signalsFor i (rows.map (fenceOf now))).filterMap (·.fence?), Fenced o := by
          refine ⟨fun i => (fences_signals now rows i).1, fun i => (fences_signals now rows i).2.1,
            fun i o ho => ?_⟩
          obtain ⟨r, -, rfl⟩ := (fences_signals now rows i).2.2 o ho
          exact fencedAs_fenced r now
        -- before its grant the call is one that shows nothing
        have hbefore : Traced ([] : List (AttemptCall py × AttemptReply))
            (rows.map (fenceOf now)) :=
          ⟨fun i => hgrant i, fun i => by rw [hfinish i]; exact .nil, hfence⟩
        have hgranted := @traced_grant py
          (.claim workerId invocationId micros clock suffix token,
            .lease (some (leaseOf job ("attempt_" ++ suffix) workerId token now e)))
          (leaseOf job ("attempt_" ++ suffix) workerId token now e) e (fun _ => rfl) (fun _ => rfl)
        exact hbefore.append hgranted
    · exact hquiet e he
  | heartbeat lease micros clock =>
    rcases answer_cases h with ⟨held, hrun, rfl⟩ | ⟨e, he⟩
    · obtain ⟨now, proposed, -, -, ⟨-, rfl, -⟩ | ⟨job, a, -, -, -, hshift⟩⟩ := heartbeat_ok hinv hrun
      · refine ⟨[], .done _, traced_quiet (fun _ => rfl) (fun _ => ?_)⟩
        cases held <;> rfl
      · refine ⟨_, hshift.run, traced_silent (fun _ => rfl) (fun _ => ?_) ⟨rfl, rfl, rfl⟩⟩
        cases held <;> rfl
    · exact hquiet e he
  | complete lease resultRef clock =>
    rcases answer_cases h with ⟨held, hrun, rfl⟩ | ⟨e, he⟩
    · obtain ⟨now, -, ⟨rfl, rfl, -⟩ | ⟨job, a, rfl, -, -, hshift⟩⟩ := complete_ok hinv hrun
      · exact ⟨[], .done _, traced_quiet (fun _ => rfl) (fun _ => rfl)⟩
      · exact ⟨_, hshift.run, @traced_ending _ _ _ _ _ _ (.result resultRef) (fun _ => rfl)
          (fun _ => rfl) ⟨rfl, rfl⟩⟩
    · exact hquiet e he
  | fail lease error retryAt clock =>
    rcases answer_cases h with ⟨held, hrun, rfl⟩ | ⟨e, he⟩
    · obtain ⟨now, stored, retry, -, hstored, -, ⟨rfl, rfl, -⟩ |
        ⟨job, a, o, rfl, -, -, hlast, -, hstatus, hshift⟩⟩ := fail_ok hinv hrun
      · exact ⟨[], .done _, traced_quiet (fun _ => rfl) (fun _ => rfl)⟩
      · exact ⟨_, hshift.run, @traced_ending _ _ _ _ _ _ (.error error) (fun _ => rfl)
          (fun _ => rfl) ⟨hstatus, stored, hstored, hlast⟩⟩
    · exact hquiet e he
  | recoverExpired limit clock =>
    rcases answer_cases h with ⟨rows, hrun, rfl⟩ | ⟨e, he⟩
    · obtain ⟨now, -, rows, -, -, hfences⟩ := recoverExpired_ok hinv hrun
      exact ⟨_, hfences, traced_fences (fun _ => rfl) (fun _ => rfl) now rows⟩
    · exact hquiet e he

/-- **A run of calls is a run of shifts that shows what its replies report.** -/
theorem attempt_traces {ls : List (AttemptCall py × AttemptReply)} {db db' : Db}
    (h : Run (attemptSystem py) db ls db') (hinv : TablesInv py db) :
    TablesInv py db' ∧ ∃ ts, Run (shifts py) db ts db' ∧ Traced ls ts := by
  induction h with
  | done db =>
    exact ⟨hinv, [], .done _, fun i => rfl, fun i => .nil, fun i => by simp [signalsFor]⟩
  | @next s s' s'' l ls hs _ ih =>
    obtain ⟨ts, hrun, htraced⟩ := exec_traces hinv (show l.1.exec s = (l.2, s') from hs)
    obtain ⟨hinv', ts', hrun', htraced'⟩ := ih (shifts_run hrun hinv).1
    exact ⟨hinv', ts ++ ts', hrun.append hrun', htraced.append htraced'⟩

/-! ## At most one lease, and one ending -/

/-- The statuses a job is never taken out of. -/
def IsTerminal (status : InvocationStatus) : Prop :=
  status = .succeeded ∨ status = .failed ∨ status = .canceled

/-- The lease and the clock of a call that proves ownership. -/
def AttemptCall.holder : AttemptCall py → Option (InvocationLease × String)
  | .heartbeat lease _ clock | .complete lease _ clock | .fail lease _ _ clock => some (lease, clock)
  | _ => none

/-- The arguments of such a call pass their checks at `now`. -/
def AttemptCall.Accepted (now : String) : AttemptCall py → Prop
  | .heartbeat lease micros clock => requireLease py lease = .ok () ∧
      normalizeTimestamp py clock "clock" = .ok now ∧
      ∃ deadline, leaseDeadline py now micros = .ok deadline
  | .complete lease resultRef clock => requireLease py lease = .ok () ∧
      normalizeTimestamp py clock "clock" = .ok now ∧
      ∃ stored, requiredReference resultRef = .ok stored
  | .fail lease error retryAt clock => requireLease py lease = .ok () ∧
      normalizeTimestamp py clock "clock" = .ok now ∧
      (∃ stored, storedError error = .ok stored) ∧
      ∃ retry, normalizeTimestamp py (retryOr retryAt now) "retry_at" = .ok retry
  | _ => False

/-- A job keeps its row under a shift of another job. -/
theorem Shift.other_job {db db' : Db} {i : String}
    {s : SingleDispatch.Signal String String Outcome} (h : Shift py db i s db') {job : JobRow}
    (hjob : job ∈ db.jobs) (hne : job.invocationId ≠ i) : job ∈ db'.jobs := by
  cases h with
  | insert => exact List.mem_append_left _ hjob
  | start => exact mem_updateWhere.mpr ⟨job, hjob, by simp [hne]⟩
  | change => exact mem_updateWhere.mpr ⟨job, hjob, by simp [hne]⟩

theorem fences_other_job {db db' : Db} {now : String} {rows : List JobRow}
    (h : Run (shifts py) db (rows.map (fenceOf now)) db') {job : JobRow} (hjob : job ∈ db.jobs)
    (hne : ∀ r ∈ rows, job.invocationId ≠ r.invocationId) : job ∈ db'.jobs := by
  induction rows generalizing db with
  | nil =>
    cases h
    exact hjob
  | cons r rest ih =>
    cases h with
    | next hs hrest =>
      exact ih hrest (Shift.other_job hs hjob (hne r (by simp))) (fun q hq => hne q (by simp [hq]))

/-- **A recovery leaves every job alone whose lease is not past its
deadline.** -/
theorem recoverExpired_spares {limit : Int} {clock : String} {rows : List (String × Bool)}
    {db db' : Db} (hinv : TablesInv py db)
    (h : Attempts.recoverExpired py limit clock db = (.ok rows, db')) :
    ∃ now, normalizeTimestamp py clock "clock" = .ok now ∧
      ∀ job ∈ db.jobs, ¬PastDeadline now job → job ∈ db'.jobs := by
  obtain ⟨now, hnow, fenced, hfenced, -, hrun⟩ := recoverExpired_ok hinv h
  refine ⟨now, hnow, fun job hjob hpast => fences_other_job hrun hjob fun r hr hid => ?_⟩
  obtain ⟨hmem, hrpast⟩ := hfenced r hr
  obtain rfl := hinv.jobs.eq_of_id hjob hmem hid
  exact hpast hrpast

/-- **What a holder's call does**: it writes for the owner of a live lease, and
is answered false where nobody owns the job. -/
theorem holder_call {call : AttemptCall py} {lease : InvocationLease} {clock : String}
    {reply : AttemptReply} {db db' : Db} (hinv : TablesInv py db)
    (hholder : call.holder = some (lease, clock)) (h : call.exec db = (reply, db')) :
    (reply = .held true ∧ ∃ now job a, normalizeTimestamp py clock "clock" = .ok now ∧
        Owns py db lease now job a) ∨
      (reply = .held false ∧ db' = db ∧
        ∃ now, normalizeTimestamp py clock "clock" = .ok now ∧ Unowned db lease now) ∨
      ∃ e, reply = .raised e ∧ db' = db := by
  have hraised : ∀ e, reply = .raised e → ∃ e, reply = .raised e ∧ db' = db := by
    rintro e rfl
    exact ⟨e, rfl, exec_raised h⟩
  cases call with
  | enqueue | claim | recoverExpired => simp [AttemptCall.holder] at hholder
  | heartbeat l micros c =>
    simp only [AttemptCall.holder, Option.some.injEq, Prod.mk.injEq] at hholder
    obtain ⟨rfl, rfl⟩ := hholder
    rcases answer_cases h with ⟨held, hrun, rfl⟩ | ⟨e, he⟩
    · obtain ⟨now, -, hnow, -, ⟨rfl, rfl, hno⟩ | ⟨job, a, rfl, hown, -⟩⟩ := heartbeat_ok hinv hrun
      · exact .inr (.inl ⟨rfl, rfl, now, hnow, hno⟩)
      · exact .inl ⟨rfl, now, job, a, hnow, hown⟩
    · exact .inr (.inr (hraised e he))
  | complete l resultRef c =>
    simp only [AttemptCall.holder, Option.some.injEq, Prod.mk.injEq] at hholder
    obtain ⟨rfl, rfl⟩ := hholder
    rcases answer_cases h with ⟨held, hrun, rfl⟩ | ⟨e, he⟩
    · obtain ⟨now, hnow, ⟨rfl, rfl, hno⟩ | ⟨job, a, rfl, hown, -⟩⟩ := complete_ok hinv hrun
      · exact .inr (.inl ⟨rfl, rfl, now, hnow, hno⟩)
      · exact .inl ⟨rfl, now, job, a, hnow, hown⟩
    · exact .inr (.inr (hraised e he))
  | fail l error retryAt c =>
    simp only [AttemptCall.holder, Option.some.injEq, Prod.mk.injEq] at hholder
    obtain ⟨rfl, rfl⟩ := hholder
    rcases answer_cases h with ⟨held, hrun, rfl⟩ | ⟨e, he⟩
    · obtain ⟨now, -, -, hnow, -, -, ⟨rfl, rfl, hno⟩ | ⟨job, a, o, rfl, hown, -⟩⟩ := fail_ok hinv hrun
      · exact .inr (.inl ⟨rfl, rfl, now, hnow, hno⟩)
      · exact .inl ⟨rfl, now, job, a, hnow, hown⟩
    · exact .inr (.inr (hraised e he))

/-- Where nobody owns the job, the fence finds no row. -/
theorem ownedAttempt_unowned {lease : InvocationLease} {now : String} {db : Db}
    (h : Unowned db lease now) : ownedAttempt py lease now db = (.ok none, db) := by
  have hnone : db.jobs.find? (isOwned lease now) = none :=
    List.find?_eq_none.mpr fun job hjob => by simp [h job hjob]
  simp only [ownedAttempt, activeOwnedRow, Txn.bind_ok, Txn.query_ok]
  refine ⟨none, db, ⟨none, db, ⟨hnone, rfl⟩, rfl⟩, rfl⟩

/-- **An accepted call for a lease nobody owns is answered false.** -/
theorem unowned_call {call : AttemptCall py} {lease : InvocationLease} {clock now : String} {db : Db}
    (hholder : call.holder = some (lease, clock)) (haccepted : call.Accepted now)
    (hunowned : Unowned db lease now) : call.exec db = (.held false, db) := by
  have hnone : ownedAttempt py lease now db = (.ok none, db) := ownedAttempt_unowned hunowned
  cases call with
  | enqueue | claim | recoverExpired => simp [AttemptCall.holder] at hholder
  | heartbeat l micros c =>
    simp only [AttemptCall.holder, Option.some.injEq, Prod.mk.injEq] at hholder
    obtain ⟨rfl, rfl⟩ := hholder
    obtain ⟨hlease, hnow, deadline, hdeadline⟩ := haccepted
    have hrun : Attempts.heartbeat py l micros c db = (.ok false, db) := by
      simp only [Attempts.heartbeat, heartbeatInTransaction, Txn.bind_ok, Txn.lift_ok,
        Txn.atomically_ok]
      exact ⟨(), db, ⟨hlease, rfl⟩, none, db, ⟨now, db, ⟨hnow, rfl⟩, deadline, db, ⟨hdeadline, rfl⟩,
        none, db, hnone, rfl⟩, rfl⟩
    simp [AttemptCall.exec, hrun, answer]
  | complete l resultRef c =>
    simp only [AttemptCall.holder, Option.some.injEq, Prod.mk.injEq] at hholder
    obtain ⟨rfl, rfl⟩ := hholder
    obtain ⟨hlease, hnow, stored, hstored⟩ := haccepted
    have hrun : Attempts.complete py l resultRef c db = (.ok false, db) := by
      simp only [Attempts.complete, completeInTransaction, Txn.bind_ok, Txn.lift_ok,
        Txn.atomically_ok]
      exact ⟨(), db, ⟨hlease, rfl⟩, stored, db, ⟨hstored, rfl⟩, none, db, ⟨now, db, ⟨hnow, rfl⟩,
        none, db, hnone, rfl⟩, rfl⟩
    simp [AttemptCall.exec, hrun, answer]
  | fail l error retryAt c =>
    simp only [AttemptCall.holder, Option.some.injEq, Prod.mk.injEq] at hholder
    obtain ⟨rfl, rfl⟩ := hholder
    obtain ⟨hlease, hnow, ⟨stored, hstored⟩, retry, hretry⟩ := haccepted
    have hrun : Attempts.fail py l error retryAt c db = (.ok false, db) := by
      simp only [Attempts.fail, failInTransaction, Txn.bind_ok, Txn.lift_ok, Txn.atomically_ok]
      exact ⟨(), db, ⟨hlease, rfl⟩, stored, db, ⟨hstored, rfl⟩, none, db, ⟨now, db, ⟨hnow, rfl⟩,
        retry, db, ⟨hretry, rfl⟩, none, db, hnone, rfl⟩, rfl⟩
    simp [AttemptCall.exec, hrun, answer]

/-- A terminal job was started, and is an ended one. -/
theorem terminal_ended {db : Db} {job : JobRow} (hinv : TablesInv py db) (hjob : job ∈ db.jobs)
    (hterminal : IsTerminal job.status) : job.status ≠ .running ∧ job.attemptsStarted ≠ 0 ∧
      lifeOf db job.invocationId = some (.ended ⟨job.status, job.resultRef, job.lastError⟩) := by
  have hrunning : job.status ≠ .running := by
    rcases hterminal with h | h | h <;> simp [h]
  have hstarted : job.attemptsStarted ≠ 0 := by
    intro hzero
    have hqueued := (hinv.attempts.waiting job hjob hzero).1
    rcases hterminal with h | h | h <;> simp [h] at hqueued
  refine ⟨hrunning, hstarted, ?_⟩
  rw [lifeOf, hinv.jobs.findJob hjob, Option.map_some, dispatchOf]
  rcases hterminal with h | h | h <;> simp [h, hstarted]

/-- **A job was leased in a run exactly if it was started.** -/
theorem no_grant_iff {ls : List (AttemptCall py × AttemptReply)} {db : Db}
    (h : Run (attemptSystem py) Db.empty ls db) {job : JobRow} (hjob : job ∈ db.jobs) :
    ls.filterMap (grantTo job.invocationId) = [] ↔ job.attemptsStarted = 0 := by
  obtain ⟨hinv, ts, hrun, htraced⟩ := attempt_traces h (tablesInv_empty py)
  have hlife : Run life none _ _ := shifts_life hrun (tablesInv_empty py) job.invocationId
  have hgrants := htraced.grants job.invocationId
  have hview : lifeOf db job.invocationId = some (dispatchOf job) := by
    rw [lifeOf, hinv.jobs.findJob hjob]
    rfl
  rw [hview] at hlife
  have hacc := Run.accounts hlife
  by_cases hzero : job.attemptsStarted = 0
  · have hqueued := (hinv.attempts.waiting job hjob hzero).1
    have hnone := hacc.unleased (.inr (by rw [dispatchOf_ready hqueued hzero]))
    rw [hgrants, List.map_eq_nil_iff] at hnone
    simp [hnone, hzero]
  · have hone : ((signalsFor job.invocationId ts).filterMap (·.grant?)).length = 1 := by
      cases hs : job.status with
      | running =>
        have hleased := hacc.leased (job.leaseTokenDigest.getD "") (job.leaseExpiresAt.getD "")
          (by simp [dispatchOf, hs])
        rw [hleased]
        rfl
      | queued | succeeded | failed | canceled =>
        exact hacc.ended ⟨job.status, job.resultRef, job.lastError⟩ (by simp [dispatchOf, hs, hzero])
    rw [hgrants, List.length_map] at hone
    refine ⟨fun hnil => ?_, fun hz => absurd hz hzero⟩
    rw [hnil] at hone
    simp at hone

/-- How a terminal job came to its end: by the one worker that reported it, or
by the expiry of its lease. -/
def EndedOnce (ls : List (AttemptCall py × AttemptReply)) (job : JobRow) : Prop :=
  (job.status = .succeeded ∧ ls.filterMap (endingOf job.invocationId) = [.result job.resultRef]) ∨
  (job.status = .failed ∧ ∃ text stored, storedError text = .ok stored ∧
    ls.filterMap (endingOf job.invocationId) = [.error text] ∧ job.lastError = some stored) ∨
  (job.status = .failed ∧ ls.filterMap (endingOf job.invocationId) = [] ∧
    job.lastError = some recoveryReason)

/-- The outcome a trace ends a job with is the one its calls supplied. -/
theorem ended_once {ls : List (AttemptCall py × AttemptReply)} {db : Db}
    (h : Run (attemptSystem py) Db.empty ls db) {job : JobRow} (hjob : job ∈ db.jobs)
    (hterminal : IsTerminal job.status) : EndedOnce ls job := by
  obtain ⟨hinv, ts, hrun, htraced⟩ := attempt_traces h (tablesInv_empty py)
  obtain ⟨-, -, hended⟩ := terminal_ended hinv hjob hterminal
  have hlife := shifts_life hrun (tablesInv_empty py) job.invocationId
  rw [hended] at hlife
  have houtcomes := outcomes_eq (show Run life none _ _ from hlife)
  have hendings := htraced.endings job.invocationId
  have hqueued : job.status ≠ .queued := by
    rcases hterminal with hs | hs | hs <;> simp [hs]
  change _ = [_] at houtcomes
  rcases List.append_eq_singleton_iff.mp houtcomes with ⟨hfinish, hfence⟩ | ⟨hfinish, hfence⟩
  · rw [hfinish] at hendings
    have hfenced := htraced.fences job.invocationId _ (by rw [hfence]; exact List.mem_singleton.mpr rfl)
    obtain ⟨hstatus, hreason⟩ := hfenced
    exact .inr (.inr ⟨hstatus.resolve_right hqueued, List.forall₂_nil_right_iff.mp hendings, hreason⟩)
  · rw [hfinish] at hendings
    cases hcalls : ls.filterMap (endingOf job.invocationId) with
    | nil =>
      rw [hcalls] at hendings
      cases hendings
    | cons ending rest =>
      rw [hcalls] at hendings
      obtain ⟨hfits, hrest⟩ := List.forall₂_cons.mp hendings
      obtain rfl := List.forall₂_nil_right_iff.mp hrest
      cases ending with
      | result resultRef =>
        obtain ⟨hstatus, hresult⟩ := hfits
        refine .inl ⟨hstatus, ?_⟩
        rw [hcalls, ← hresult]
      | error text =>
        obtain ⟨hstatus, stored, hstored, hlast⟩ := hfits
        exact .inr (.inl ⟨hstatus.resolve_right hqueued, text, stored, hstored, hcalls, hlast⟩)

/-- **At most one lease, fenced writes, one ending.** In any run of the store
from no jobs: an invocation is leased at most once; a terminal job keeps its
row along every later run; a holder's call writes only for the owner of a live
lease, is answered false where it is accepted and nobody owns the job, and
otherwise changes nothing; a recovery changes only jobs whose lease is past its
deadline; and a terminal job was ended by one report of its worker, or by the
expiry of its lease. -/
theorem attempts_at_most_once {ls : List (AttemptCall py × AttemptReply)} {db : Db}
    (h : Run (attemptSystem py) Db.empty ls db) :
    (∀ i, (ls.filterMap (grantTo i)).length ≤ 1) ∧
    (∀ job ∈ db.jobs, IsTerminal job.status →
      ∀ more db', Run (attemptSystem py) db more db' → job ∈ db'.jobs) ∧
    (∀ (call : AttemptCall py) (lease : InvocationLease) (clock : String) (reply : AttemptReply)
      (db' : Db), call.holder = some (lease, clock) →
      call.exec db = (reply, db') →
      ((reply = .held true ∧ ∃ now job a, normalizeTimestamp py clock "clock" = .ok now ∧
          Owns py db lease now job a) ∨
        (reply = .held false ∧ db' = db ∧
          ∃ now, normalizeTimestamp py clock "clock" = .ok now ∧ Unowned db lease now) ∨
        ∃ e, reply = .raised e ∧ db' = db) ∧
      ∀ now, call.Accepted now → Unowned db lease now → reply = .held false ∧ db' = db) ∧
    (∀ limit clock rows db', Attempts.recoverExpired py limit clock db = (.ok rows, db') →
      ∃ now, normalizeTimestamp py clock "clock" = .ok now ∧
        ∀ job ∈ db.jobs, ¬PastDeadline now job → job ∈ db'.jobs) ∧
    ∀ job ∈ db.jobs, IsTerminal job.status → EndedOnce ls job := by
  obtain ⟨hinv, ts, hrun, htraced⟩ := attempt_traces h (tablesInv_empty py)
  refine ⟨fun i => ?_, fun job hjob hterminal more db' hmore => ?_,
    fun call lease clock reply db' hholder hexec => ⟨holder_call hinv hholder hexec, ?_⟩,
    fun limit clock rows db' hrec => recoverExpired_spares hinv hrec,
    fun job hjob hterminal => ended_once h hjob hterminal⟩
  · have hlife := shifts_life hrun (tablesInv_empty py) i
    have hone := grants_le_one (show Run life none _ _ from hlife)
    rwa [htraced.grants, List.length_map] at hone
  · obtain ⟨-, ts', hrun', -⟩ := attempt_traces hmore hinv
    obtain ⟨hrunning, hstarted, -⟩ := terminal_ended hinv hjob hterminal
    obtain ⟨a, ha, hheld⟩ := hinv.attempts.started job hjob hstarted
    exact (shifts_settled hrun' hinv hjob ha hheld.same hrunning hstarted).1
  · intro now haccepted hunowned
    have hfalse := unowned_call hholder haccepted hunowned
    rw [hexec, Prod.mk.injEq] at hfalse
    exact hfalse

/-! ## A run -/

/-- The trace of calls made one after another. -/
def traceOf : List (AttemptCall py) → Db → List (AttemptCall py × AttemptReply)
  | [], _ => []
  | call :: rest, db => (call, (call.exec db).1) :: traceOf rest (call.exec db).2

/-- The state they leave. -/
def stateAfter : List (AttemptCall py) → Db → Db
  | [], db => db
  | call :: rest, db => stateAfter rest (call.exec db).2

/-- Calls made one after another are a run. -/
theorem run_calls (calls : List (AttemptCall py)) (db : Db) :
    Run (attemptSystem py) db (traceOf calls db) (stateAfter calls db) := by
  induction calls generalizing db with
  | nil => exact .done db
  | cons call rest ih => exact .next rfl (ih _)

/-- A request of the least size. -/
def sampleSpec : InvocationJobSpec .py311 where
  sessionId := "s"
  planId := "p"
  taskId := "t"
  agentId := "a"
  idempotencyKey := "k"
  payloadDigest := "0000000000000000000000000000000000000000000000000000000000000000"
  invocationId := "i"
  priority := 50
  maxAttempts := 1
  availableAt := none
  accepted := by decide +kernel

/-- A job is leased for a second, and nobody reports before the lease expires. -/
def expiredCalls : List (AttemptCall .py311) :=
  [.enqueue sampleSpec "2024-01-01T00:00:00Z",
   .claim "w" none 1000000 "2024-01-01T00:00:00Z" "x" "token",
   .recoverExpired 10 "2024-01-01T00:00:05Z"]

theorem expiredCalls_failed :
    (stateAfter expiredCalls Db.empty).jobs.map (fun job => (job.invocationId, job.status)) =
      [("i", .failed)] := by
  decide +kernel

theorem expiredCalls_endings (i : String) :
    (traceOf expiredCalls Db.empty).filterMap (endingOf i) = [] := by
  rfl

/-- The calls leave one job, and it failed. -/
theorem expiredCalls_job : ∃ job ∈ (stateAfter expiredCalls Db.empty).jobs,
    job.invocationId = "i" ∧ job.status = .failed := by
  have hmem : ("i", InvocationStatus.failed) ∈ (stateAfter expiredCalls Db.empty).jobs.map
      (fun job => (job.invocationId, job.status)) := by
    rw [expiredCalls_failed]
    exact List.mem_singleton.mpr rfl
  obtain ⟨job, hjob, hsame⟩ := List.mem_map.mp hmem
  rw [Prod.mk.injEq] at hsame
  exact ⟨job, hjob, hsame⟩

/-- A terminal job need not have been ended by a call of its worker. -/
theorem terminal_without_report :
    ¬∀ (ls : List (AttemptCall .py311 × AttemptReply)) (db : Db),
      Run (attemptSystem .py311) Db.empty ls db →
      ∀ job ∈ db.jobs, IsTerminal job.status →
        ∃ ending, ls.filterMap (endingOf job.invocationId) = [ending] := by
  intro hall
  obtain ⟨job, hjob, -, hfailed⟩ := expiredCalls_job
  obtain ⟨ending, hending⟩ := hall _ _ (run_calls expiredCalls Db.empty) job hjob
    (.inr (.inl hfailed))
  rw [expiredCalls_endings] at hending
  exact absurd hending (by simp)

/-- The job of that run was leased at most once, and ended by the expiry. -/
theorem attempts_at_most_once_expired :
    ((traceOf expiredCalls Db.empty).filterMap (grantTo "i")).length ≤ 1 ∧
    ∃ job ∈ (stateAfter expiredCalls Db.empty).jobs, job.status = .failed ∧
      EndedOnce (traceOf expiredCalls Db.empty) job := by
  obtain ⟨hgrants, -, -, -, hended⟩ := attempts_at_most_once (run_calls expiredCalls Db.empty)
  obtain ⟨job, hjob, -, hfailed⟩ := expiredCalls_job
  exact ⟨hgrants "i", job, hjob, hfailed, hended job hjob (.inr (.inl hfailed))⟩

end QuantumEntanglement.Attempts
