import QuantumEntanglement.Publisher.Records

/-
  Publish attempts — `_publish_one` as phases between its awaits

  An attempt is a task of its own. It checks its lease against the clock,
  starts the connector in a thread and waits for its answer or for the
  deadline; then it asks the store for one thing: to acknowledge, to reject, or
  to record that nobody knows. A cancellation can reach it at every await. A
  store call that has begun always ends (`_store_call` shields it), but a
  cancelled attempt does not learn how.

  Correspondence (Python ↔ Lean):
    `_invoke_with_hard_deadline`           ↔ the phase `invoking` and its events
    `_persist_ambiguity_before_cancel`     ↔ the phase `persistingBeforeCancel`
  The lease check and the start of the connector's thread follow each other
  without an await, but other processes run between them, so they are two
  phases (`checked` lies between).
-/

namespace QuantumEntanglement.Publisher

open Transaction Outbox Sha256 IsoTime

/-! ## Store calls that fail -/

/-- A failure of the store around a call: before it changed anything, or after
it committed. -/
inductive Fault where
  | none
  | before
  | after
  deriving DecidableEq

/-- The error of a store that failed; which one makes no difference. -/
def storeFailure : StoreError := ⟨.sqliteOperational, "disk I/O error"⟩

variable [SqliteTime] {cfg : StoreConfig}

/-- A call under a failure: what the caller sees, and the database after it. -/
def faulty (fault : Fault) (call : OutboxCall cfg.py) (db : Db) : OutboxReply cfg.py × Db :=
  match fault with
  | .none => call.exec db
  | .before => (.raised storeFailure, db)
  | .after => (.raised storeFailure, (call.exec db).2)

/-- A call under a failure is that call, or no call at all. -/
theorem faulty_state (fault : Fault) (call : OutboxCall cfg.py) (db : Db) :
    (fault ≠ .before ∧ (faulty fault call db).2 = (call.exec db).2) ∨
      (fault = .before ∧ (faulty fault call db).2 = db) := by
  cases fault with
  | none => exact .inl ⟨by simp, rfl⟩
  | before => exact .inr ⟨rfl, rfl⟩
  | after => exact .inl ⟨by simp, rfl⟩

/-- A caller that sees an answer other than an error sees the call's own. -/
theorem faulty_seen {fault : Fault} {call : OutboxCall cfg.py} {reply : OutboxReply cfg.py}
    {db db' : Db} (h : faulty fault call db = (reply, db')) (hreply : ∀ e, reply ≠ .raised e) :
    call.exec db = (reply, db') := by
  cases fault with
  | none => exact h
  | before => exact absurd (congrArg Prod.fst h).symm (hreply _)
  | after => exact absurd (congrArg Prod.fst h).symm (hreply _)

/-! ## Phases -/

/-- Why nobody knows whether the message was accepted. -/
inductive Unconfirmed where
  | timedOut
  | leaseExpired
  | ackRaised
  | ackRefused
  deriving DecidableEq

/-- The reason code the ambiguity is recorded under. -/
def Unconfirmed.reason : Unconfirmed → AmbiguityReason
  | .timedOut => .callbackTimeout
  | .leaseExpired => .leaseExpiredAfterAccept
  | .ackRaised | .ackRefused => .ackFailed

/-- The outcome, given whether the ambiguity was persisted. -/
def Unconfirmed.outcome (persisted : Bool) : Unconfirmed → AttemptOutcome
  | .timedOut =>
    { timedOut := 1
      acceptedUnconfirmed := 1
      abandonedCallbacks := 1
      ambiguityPersisted := persisted.toNat
      reconciliationFailed := (!persisted).toNat }
  | .leaseExpired =>
    { acceptedUnconfirmed := 1
      leaseExpired := 1
      ambiguityPersisted := persisted.toNat
      reconciliationFailed := (!persisted).toNat }
  | .ackRaised =>
    { storeErrors := 1
      acceptedUnconfirmed := 1
      ackFailed := 1
      ambiguityPersisted := persisted.toNat
      reconciliationFailed := (!persisted).toNat }
  | .ackRefused =>
    { leaseConflicts := 1
      acceptedUnconfirmed := 1
      ackFailed := 1
      ambiguityPersisted := persisted.toNat
      reconciliationFailed := (!persisted).toNat }

/-- Where an attempt stands. -/
inductive Phase where
  /-- The task exists and has not run. -/
  | created
  /-- The lease passed its check; the connector's thread is not started. -/
  | checked
  | invoking
  | acknowledging (publishedAt : String)
  | persisting (why : Unconfirmed)
  | persistingBeforeCancel
  | rejecting (error : AttemptError)
  | returned (outcome : AttemptOutcome)
  | cancelled
  deriving DecidableEq

/-- An attempt on a claimed message. -/
structure Attempt (py : PyVersion) where
  stored : StoredOutboxMessage py
  phase : Phase
  deriving DecidableEq

/-- What happens to an attempt. -/
inductive AttemptEvent where
  | run (clock : ClockReading)
  | start
  | settled (answer : ConnectorAnswer) (clock : ClockReading)
  | deadline
  | cancel
  | acknowledged (fault : Fault) (clock : String) (cancelled : Bool)
  | marked (fault : Fault) (clock : ClockReading) (now : UtcMoment) (cancelled : Bool)
  | rejected (fault : Fault) (clock : String) (retryAt rendered : Option String) (cancelled : Bool)
  deriving DecidableEq

/-- What a step shows besides the new state. -/
inductive Report (py : PyVersion) where
  | quiet
  | leased (messages : List (StoredOutboxMessage py))
  | invoked (request : PublishRequest)
  /-- A pending connector call, or its acknowledgement, was cancelled. -/
  | interrupted
  /-- The store answered that the ambiguity is on record. -/
  | quarantined (messageId : String)
  | resolved (messageId : String) (resolution : AmbiguityResolution)
  | restarted
  deriving DecidableEq

/-- `stored.lease_token or ""`. -/
def Attempt.token {py : PyVersion} (a : Attempt py) : String := a.stored.leaseToken.getD ""

/-- The store's answer to a mark, as `_persist_ambiguity` returns it. -/
def persistedOf {py : PyVersion} : OutboxReply py → Bool
  | .held b => b
  | _ => false

/-- The call an acknowledgement makes. -/
def Attempt.ackCall (a : Attempt cfg.py) (publishedAt clock : String) : OutboxCall cfg.py :=
  .acknowledge a.stored.message.messageId a.token (some publishedAt) clock

/-- The call a mark makes. -/
def Attempt.markCall (a : Attempt cfg.py) (reason : AmbiguityReason) (clock : ClockReading)
    (now : UtcMoment) : OutboxCall cfg.py :=
  .mark a.stored.message.messageId a.token reason (safeClockTimestamp clock) now

/-- `dead_letter`, as `_reject_failed` decides it. -/
def isLastAttempt {py : PyVersion} (pub : PublisherConfig) (stored : StoredOutboxMessage py) : Bool :=
  pub.maxAttempts ≤ stored.attemptCount

/-- The call a rejection makes. -/
def Attempt.rejectCall (pub : PublisherConfig) (a : Attempt cfg.py) (clock : String)
    (retryAt rendered : Option String) : OutboxCall cfg.py :=
  .reject a.stored.message.messageId a.token (formatErrorSafely pub rendered)
    (if isLastAttempt pub a.stored then none else retryAt) (isLastAttempt pub a.stored) clock

/-- The outcome of `_reject_failed`; a lease that was too short is counted besides. -/
def rejectOutcome {py : PyVersion} (error : AttemptError) (dead : Bool) (reply : OutboxReply py) :
    AttemptOutcome :=
  let outcome : AttemptOutcome :=
    match reply with
    | .held true => { publishFailures := 1, retried := (!dead).toNat, deadLettered := dead.toNat }
    | .held false => { publishFailures := 1, leaseConflicts := 1 }
    | _ => { publishFailures := 1, storeErrors := 1 }
  if error = .leaseBudgetExhausted then { outcome with leaseBudgetRejected := 1 } else outcome

/-- Where the store's answer to an acknowledgement leads. -/
def afterAck {py : PyVersion} : OutboxReply py → Phase
  | .held true => .returned { published := 1 }
  | .held false => .persisting .ackRefused
  | _ => .persisting .ackRaised

/-- Where the connector's answer leads. -/
def afterAnswer (py : PyVersion) (deadline : Option String) (answer : ConnectorAnswer)
    (clock : ClockReading) : Phase :=
  match settle answer with
  | .error error => .rejecting error
  | .ok _ =>
    match validAckTimestamp py deadline clock with
    | none => .persisting .leaseExpired
    | some publishedAt => .acknowledging publishedAt

/-- Where the lease check leads. -/
def afterCheck (py : PyVersion) (pub : PublisherConfig) (deadline : Option String)
    (clock : ClockReading) : Phase :=
  match leaseBudgetTimestamp py pub deadline clock with
  | none => .rejecting .leaseBudgetExhausted
  | some _ => .checked

/-- What a mark that ended reports. -/
def markReport {py : PyVersion} (messageId : String) (reply : OutboxReply py) : Report py :=
  if persistedOf reply then .quarantined messageId else .quiet

/-- The state of a step: the attempt after it, the database, the counters of
its publisher, and what it shows. -/
structure Stepped (py : PyVersion) where
  phase : Phase
  db : Db
  counters : Counters
  report : Report py

/-- **One event of `_publish_one`**; `none` where the attempt does not wait for
that event. -/
def Attempt.step (pub : PublisherConfig) (a : Attempt cfg.py) (event : AttemptEvent)
    (counters : Counters) (db : Db) : Option (Stepped cfg.py) :=
  match a.phase with
  | .created =>
    match event with
    | .run clock => some ⟨afterCheck cfg.py pub a.stored.leaseExpiresAt clock, db, counters, .quiet⟩
    | .cancel => some ⟨.cancelled, db, counters, .quiet⟩
    | _ => none
  | .checked =>
    match event with
    | .start => some ⟨.invoking, db, counters, .invoked (.fromStored a.stored)⟩
    | _ => none
  | .invoking =>
    match event with
    | .settled answer clock =>
      some ⟨afterAnswer cfg.py a.stored.leaseExpiresAt answer clock, db, counters, .quiet⟩
    | .deadline => some ⟨.persisting .timedOut, db, counters, .quiet⟩
    | .cancel => some ⟨.persistingBeforeCancel, db, counters, .interrupted⟩
    | _ => none
  | .acknowledging publishedAt =>
    match event with
    | .acknowledged fault clock cancelled =>
      let out := faulty fault (a.ackCall publishedAt clock) db
      if cancelled then some ⟨.persistingBeforeCancel, out.2, counters, .interrupted⟩
      else some ⟨afterAck out.1, out.2, counters, .quiet⟩
    | _ => none
  | .persisting why =>
    match event with
    | .marked fault clock now cancelled =>
      let out := faulty fault (a.markCall why.reason clock now) db
      if cancelled then some ⟨.cancelled, out.2, counters, .quiet⟩
      else some ⟨.returned (why.outcome (persistedOf out.1)), out.2, counters,
        markReport a.stored.message.messageId out.1⟩
    | _ => none
  | .persistingBeforeCancel =>
    match event with
    | .marked fault clock now _ =>
      let out := faulty fault (a.markCall .callerCancelled clock now) db
      some ⟨.cancelled, out.2, counters.recordCancelledAttempt (persistedOf out.1),
        markReport a.stored.message.messageId out.1⟩
    | _ => none
  | .rejecting error =>
    match event with
    | .rejected fault clock retryAt rendered cancelled =>
      let out := faulty fault (a.rejectCall pub clock retryAt rendered) db
      if cancelled then some ⟨.cancelled, out.2, counters, .quiet⟩
      else some ⟨.returned (rejectOutcome error (isLastAttempt pub a.stored) out.1), out.2, counters,
        .quiet⟩
    | _ => none
  | .returned _ => none
  | .cancelled => none

/-! ## What a step can do -/

/-- The steps of an attempt, one constructor for each event it waits for. -/
inductive AttemptStep (pub : PublisherConfig) (a : Attempt cfg.py) (counters : Counters) (db : Db) :
    AttemptEvent → Stepped cfg.py → Prop where
  | run (hp : a.phase = .created) (clock : ClockReading) :
      AttemptStep pub a counters db (.run clock)
        ⟨afterCheck cfg.py pub a.stored.leaseExpiresAt clock, db, counters, .quiet⟩
  | dropped (hp : a.phase = .created) :
      AttemptStep pub a counters db .cancel ⟨.cancelled, db, counters, .quiet⟩
  | start (hp : a.phase = .checked) :
      AttemptStep pub a counters db .start
        ⟨.invoking, db, counters, .invoked (.fromStored a.stored)⟩
  | settled (hp : a.phase = .invoking) (answer : ConnectorAnswer) (clock : ClockReading) :
      AttemptStep pub a counters db (.settled answer clock)
        ⟨afterAnswer cfg.py a.stored.leaseExpiresAt answer clock, db, counters, .quiet⟩
  | deadline (hp : a.phase = .invoking) :
      AttemptStep pub a counters db .deadline ⟨.persisting .timedOut, db, counters, .quiet⟩
  | interrupted (hp : a.phase = .invoking) :
      AttemptStep pub a counters db .cancel ⟨.persistingBeforeCancel, db, counters, .interrupted⟩
  | ackCancelled {publishedAt : String} (hp : a.phase = .acknowledging publishedAt) (fault : Fault)
      (clock : String) :
      AttemptStep pub a counters db (.acknowledged fault clock true)
        ⟨.persistingBeforeCancel, (faulty fault (a.ackCall publishedAt clock) db).2, counters,
          .interrupted⟩
  | ack {publishedAt : String} (hp : a.phase = .acknowledging publishedAt) (fault : Fault)
      (clock : String) {reply : OutboxReply cfg.py} {db' : Db}
      (hrun : faulty fault (a.ackCall publishedAt clock) db = (reply, db')) :
      AttemptStep pub a counters db (.acknowledged fault clock false)
        ⟨afterAck reply, db', counters, .quiet⟩
  | markCancelled {why : Unconfirmed} (hp : a.phase = .persisting why) (fault : Fault)
      (clock : ClockReading) (now : UtcMoment) :
      AttemptStep pub a counters db (.marked fault clock now true)
        ⟨.cancelled, (faulty fault (a.markCall why.reason clock now) db).2, counters, .quiet⟩
  | mark {why : Unconfirmed} (hp : a.phase = .persisting why) (fault : Fault)
      (clock : ClockReading) (now : UtcMoment) {reply : OutboxReply cfg.py} {db' : Db}
      (hrun : faulty fault (a.markCall why.reason clock now) db = (reply, db')) :
      AttemptStep pub a counters db (.marked fault clock now false)
        ⟨.returned (why.outcome (persistedOf reply)), db', counters,
          markReport a.stored.message.messageId reply⟩
  | markBeforeCancel (hp : a.phase = .persistingBeforeCancel) (fault : Fault)
      (clock : ClockReading) (now : UtcMoment) (cancelled : Bool) {reply : OutboxReply cfg.py}
      {db' : Db} (hrun : faulty fault (a.markCall .callerCancelled clock now) db = (reply, db')) :
      AttemptStep pub a counters db (.marked fault clock now cancelled)
        ⟨.cancelled, db', counters.recordCancelledAttempt (persistedOf reply),
          markReport a.stored.message.messageId reply⟩
  | rejectCancelled {error : AttemptError} (hp : a.phase = .rejecting error) (fault : Fault)
      (clock : String) (retryAt rendered : Option String) :
      AttemptStep pub a counters db (.rejected fault clock retryAt rendered true)
        ⟨.cancelled, (faulty fault (a.rejectCall pub clock retryAt rendered) db).2, counters, .quiet⟩
  | reject {error : AttemptError} (hp : a.phase = .rejecting error) (fault : Fault)
      (clock : String) (retryAt rendered : Option String) {reply : OutboxReply cfg.py} {db' : Db}
      (hrun : faulty fault (a.rejectCall pub clock retryAt rendered) db = (reply, db')) :
      AttemptStep pub a counters db (.rejected fault clock retryAt rendered false)
        ⟨.returned (rejectOutcome error (isLastAttempt pub a.stored) reply), db', counters, .quiet⟩

/-- **A step is one of them.** -/
theorem Attempt.step_cases {pub : PublisherConfig} {a : Attempt cfg.py} {event : AttemptEvent}
    {counters : Counters} {db : Db} {out : Stepped cfg.py}
    (h : a.step pub event counters db = some out) : AttemptStep pub a counters db event out := by
  unfold Attempt.step at h
  cases hp : a.phase <;> rw [hp] at h <;> cases event <;>
    simp only [reduceCtorEq, Option.some.injEq] at h
  case created.run clock =>
    subst h
    exact .run hp clock
  case created.cancel =>
    subst h
    exact .dropped hp
  case checked.start =>
    subst h
    exact .start hp
  case invoking.settled answer clock =>
    subst h
    exact .settled hp answer clock
  case invoking.deadline =>
    subst h
    exact .deadline hp
  case invoking.cancel =>
    subst h
    exact .interrupted hp
  case acknowledging.acknowledged publishedAt fault clock cancelled =>
    cases cancelled <;> simp only [Bool.false_eq_true, if_false, if_true, Option.some.injEq] at h <;>
      subst h
    · exact .ack hp fault clock rfl
    · exact .ackCancelled hp fault clock
  case persisting.marked why fault clock now cancelled =>
    cases cancelled <;> simp only [Bool.false_eq_true, if_false, if_true, Option.some.injEq] at h <;>
      subst h
    · exact .mark hp fault clock now rfl
    · exact .markCancelled hp fault clock now
  case persistingBeforeCancel.marked fault clock now cancelled =>
    subst h
    exact .markBeforeCancel hp fault clock now cancelled rfl
  case rejecting.rejected error fault clock retryAt rendered cancelled =>
    cases cancelled <;> simp only [Bool.false_eq_true, if_false, if_true, Option.some.injEq] at h <;>
      subst h
    · exact .reject hp fault clock retryAt rendered rfl
    · exact .rejectCancelled hp fault clock retryAt rendered

end QuantumEntanglement.Publisher
