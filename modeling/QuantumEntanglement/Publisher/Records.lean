import QuantumEntanglement.Store.OutboxRuns

/-
  Publisher records — what a connector answers, and what is counted

  A connector call ends with a receipt or an exception. The receipt is checked
  again by the publisher before it counts as an acceptance. Every attempt that
  returns yields one `AttemptOutcome`; a cycle adds the outcomes up into a
  batch, and a batch is added to the publisher's counters.

  Seconds are rationals where the code has floats. The duration of a batch, the
  retry delay (a float and a random jitter) and the log lines are left out; the
  retry time a delay leads to is an argument of the step that uses it.
-/

namespace QuantumEntanglement.Publisher

open PyText PyJson IsoTime

/-! ## Configuration -/

/-- `timedelta(seconds=...)`: whole microseconds, halves to even. -/
def timedeltaMicros (seconds : Rat) : Nat :=
  let x := seconds * 1000000
  let whole := x.floor
  let rest := x - whole
  if rest < 1 / 2 then whole.toNat
  else if 1 / 2 < rest then (whole + 1).toNat
  else if whole % 2 = 0 then whole.toNat else (whole + 1).toNat

/-- What an `OutboxPublisher` is built with, under the checks of `__init__`. -/
structure PublisherConfig where
  workerId : String
  batchSize : Nat
  leaseSeconds : Rat
  publishTimeout : Rat
  maxAttempts : Nat
  maxCallbackTasks : Nat
  allowedErrorCodes : List String
  named : isBlank workerId = false
  positive : 0 < batchSize ∧ 0 < publishTimeout ∧ 0 < maxAttempts ∧ 0 < maxCallbackTasks
  leaseLonger : publishTimeout < leaseSeconds

/-! ## Requests and receipts -/

/-- What the connector is called with. -/
structure PublishRequest where
  messageId : String
  idempotencyKey : String
  destination : String
  payload : Value
  headers : Value
  attemptCount : Nat
  triggeringEventId : String
  triggeringGlobalPosition : Nat
  leaseDeadline : Option String
  deriving DecidableEq

/-- `PublishRequest.from_stored`. -/
def PublishRequest.fromStored {py : PyVersion} (stored : StoredOutboxMessage py) : PublishRequest where
  messageId := stored.message.messageId
  idempotencyKey := if stored.message.idempotencyKey = "" then stored.message.messageId
    else stored.message.idempotencyKey
  destination := stored.message.destination
  payload := stored.message.payload
  headers := stored.message.headers
  attemptCount := stored.attemptCount
  triggeringEventId := stored.triggeringEventId
  triggeringGlobalPosition := stored.triggeringGlobalPosition
  leaseDeadline := stored.leaseExpiresAt

inductive PublishResult where
  | accepted
  | rejected
  deriving DecidableEq

/-- The fields of a `PublishReceipt` object, however it was made. -/
structure PublishReceipt where
  result : PublishResult
  receiptId : Option String
  reasonCode : Option String
  deriving DecidableEq

/-- A text that is there and not blank. -/
def isPresent (text : Option String) : Bool :=
  match text with
  | none => false
  | some t => !isBlank t

/-- `PublishReceipt.__post_init__`. -/
def checkReceipt (r : PublishReceipt) : Bool :=
  match r.result with
  | .accepted => isPresent r.receiptId && r.reasonCode.isNone
  | .rejected => isPresent r.reasonCode && r.receiptId.isNone

/-- How a connector call ends; `other` is a result that is no receipt, or one
whose fields are not what a receipt has. -/
inductive ConnectorAnswer where
  | raised
  | other
  | receipt (r : PublishReceipt)
  deriving DecidableEq

/-- Why an attempt failed. -/
inductive AttemptError where
  | connector
  | invalidPublishReceipt
  | connectorRejected
  | leaseBudgetExhausted
  deriving DecidableEq

/-- The last part of `_invoke_with_hard_deadline`: the answer of a connector that
met its deadline is an acceptance, or says why not. -/
def settle (answer : ConnectorAnswer) : Except AttemptError PublishReceipt :=
  match answer with
  | .raised => .error .connector
  | .other => .error .invalidPublishReceipt
  | .receipt r =>
    if checkReceipt r then
      match r.result with
      | .rejected => .error .connectorRejected
      | .accepted => .ok r
    else .error .invalidPublishReceipt

/-- `_format_error_safely`: a code outside the allowlist, or a formatter that
raised, becomes `connector_failure`. -/
def formatErrorSafely (cfg : PublisherConfig) (rendered : Option String) : String :=
  match rendered with
  | none => "connector_failure"
  | some code => if code ∈ cfg.allowedErrorCodes then code else "connector_failure"

/-! ## The publisher's clock -/

/-- What reading the injected clock gives. -/
inductive ClockReading where
  | raised
  | naive
  | aware (now : UtcMoment)
  deriving DecidableEq

/-- `_safe_clock_timestamp`. -/
def safeClockTimestamp : ClockReading → Option String
  | .aware now => some (utcNow now)
  | _ => none

/-- The moment of a lease deadline: `_parse_timestamp`, with every exception
caught. -/
def deadlineMoment (py : PyVersion) (deadline : Option String) : Option Int :=
  match deadline with
  | none => none
  | some text =>
    if text = "" then none
    else
      match timestampMoment py text "lease deadline" with
      | .ok m => some m
      | .error _ => none

/-- `_lease_budget_timestamp`: the lease outlasts a publish timeout. -/
def leaseBudgetTimestamp (py : PyVersion) (cfg : PublisherConfig) (deadline : Option String)
    (clock : ClockReading) : Option String :=
  match deadlineMoment py deadline with
  | none => none
  | some m =>
    match clock with
    | .aware now =>
      if ((m - now.micros : Int) : Rat) / 1000000 < cfg.publishTimeout then none
      else some (utcNow now)
    | _ => none

/-- `_valid_ack_timestamp`: the lease is still live. -/
def validAckTimestamp (py : PyVersion) (deadline : Option String) (clock : ClockReading) :
    Option String :=
  match deadlineMoment py deadline with
  | none => none
  | some m =>
    match clock with
    | .aware now => if m ≤ now.micros then none else some (utcNow now)
    | _ => none

/-! ## Outcomes, batches and counters -/

/-- `_AttemptOutcome`. -/
structure AttemptOutcome where
  published : Nat := 0
  publishFailures : Nat := 0
  timedOut : Nat := 0
  retried : Nat := 0
  deadLettered : Nat := 0
  leaseConflicts : Nat := 0
  storeErrors : Nat := 0
  acceptedUnconfirmed : Nat := 0
  ackFailed : Nat := 0
  leaseExpired : Nat := 0
  abandonedCallbacks : Nat := 0
  ambiguityPersisted : Nat := 0
  reconciliationFailed : Nat := 0
  leaseBudgetRejected : Nat := 0
  deriving DecidableEq

/-- `PublishBatchStats`, without its duration. -/
structure PublishBatchStats where
  claimed : Nat := 0
  published : Nat := 0
  publishFailures : Nat := 0
  timedOut : Nat := 0
  retried : Nat := 0
  deadLettered : Nat := 0
  leaseConflicts : Nat := 0
  storeErrors : Nat := 0
  acceptedUnconfirmed : Nat := 0
  ackFailed : Nat := 0
  leaseExpired : Nat := 0
  abandonedCallbacks : Nat := 0
  ambiguityPersisted : Nat := 0
  reconciliationFailed : Nat := 0
  admissionRejected : Nat := 0
  leaseBudgetRejected : Nat := 0
  deriving DecidableEq

/-- `_Counters`. -/
structure Counters where
  cycles : Nat := 0
  emptyPolls : Nat := 0
  claimed : Nat := 0
  published : Nat := 0
  publishFailures : Nat := 0
  timedOut : Nat := 0
  retried : Nat := 0
  deadLettered : Nat := 0
  leaseConflicts : Nat := 0
  storeErrors : Nat := 0
  acceptedUnconfirmed : Nat := 0
  ackFailed : Nat := 0
  leaseExpired : Nat := 0
  abandonedCallbacks : Nat := 0
  ambiguityPersisted : Nat := 0
  reconciliationFailed : Nat := 0
  admissionRejected : Nat := 0
  leaseBudgetRejected : Nat := 0
  cancelledCycles : Nat := 0
  deriving DecidableEq

/-- `sum(item.field for item in outcomes)`. -/
def total (field : AttemptOutcome → Nat) (outcomes : List AttemptOutcome) : Nat :=
  (outcomes.map field).sum

/-- The batch of a cycle whose attempts all returned. -/
def batchOf (outcomes : List AttemptOutcome) : PublishBatchStats where
  claimed := outcomes.length
  published := total (·.published) outcomes
  publishFailures := total (·.publishFailures) outcomes
  timedOut := total (·.timedOut) outcomes
  retried := total (·.retried) outcomes
  deadLettered := total (·.deadLettered) outcomes
  leaseConflicts := total (·.leaseConflicts) outcomes
  storeErrors := total (·.storeErrors) outcomes
  acceptedUnconfirmed := total (·.acceptedUnconfirmed) outcomes
  ackFailed := total (·.ackFailed) outcomes
  leaseExpired := total (·.leaseExpired) outcomes
  abandonedCallbacks := total (·.abandonedCallbacks) outcomes
  ambiguityPersisted := total (·.ambiguityPersisted) outcomes
  reconciliationFailed := total (·.reconciliationFailed) outcomes
  leaseBudgetRejected := total (·.leaseBudgetRejected) outcomes

/-- `_record_batch`. -/
def Counters.recordBatch (c : Counters) (batch : PublishBatchStats) : Counters :=
  { c with
    cycles := c.cycles + 1
    emptyPolls := if batch.claimed = 0 ∧ batch.storeErrors = 0 then c.emptyPolls + 1 else c.emptyPolls
    claimed := c.claimed + batch.claimed
    published := c.published + batch.published
    publishFailures := c.publishFailures + batch.publishFailures
    timedOut := c.timedOut + batch.timedOut
    retried := c.retried + batch.retried
    deadLettered := c.deadLettered + batch.deadLettered
    leaseConflicts := c.leaseConflicts + batch.leaseConflicts
    storeErrors := c.storeErrors + batch.storeErrors
    acceptedUnconfirmed := c.acceptedUnconfirmed + batch.acceptedUnconfirmed
    ackFailed := c.ackFailed + batch.ackFailed
    leaseExpired := c.leaseExpired + batch.leaseExpired
    abandonedCallbacks := c.abandonedCallbacks + batch.abandonedCallbacks
    ambiguityPersisted := c.ambiguityPersisted + batch.ambiguityPersisted
    reconciliationFailed := c.reconciliationFailed + batch.reconciliationFailed
    admissionRejected := c.admissionRejected + batch.admissionRejected
    leaseBudgetRejected := c.leaseBudgetRejected + batch.leaseBudgetRejected }

/-- `_record_cancelled_attempt`. -/
def Counters.recordCancelledAttempt (c : Counters) (persisted : Bool) : Counters :=
  { c with
    acceptedUnconfirmed := c.acceptedUnconfirmed + 1
    abandonedCallbacks := c.abandonedCallbacks + 1
    ambiguityPersisted := c.ambiguityPersisted + persisted.toNat
    reconciliationFailed := c.reconciliationFailed + (!persisted).toNat }

/-- `self._counters.cancelled_cycles += 1`. -/
def Counters.cancelCycle (c : Counters) : Counters :=
  { c with cancelledCycles := c.cancelledCycles + 1 }

/-- What the counters say became of the claimed messages. -/
def Counters.outcomes (c : Counters) : Nat :=
  c.published + c.publishFailures + c.acceptedUnconfirmed

/-- The same for one attempt. -/
def AttemptOutcome.weight (o : AttemptOutcome) : Nat :=
  o.published + o.publishFailures + o.acceptedUnconfirmed

/-- A batch counts what its attempts weigh. -/
theorem batchOf_outcomes (outcomes : List AttemptOutcome) :
    (batchOf outcomes).published + (batchOf outcomes).publishFailures +
      (batchOf outcomes).acceptedUnconfirmed = total (·.weight) outcomes := by
  show total (·.published) outcomes + total (·.publishFailures) outcomes +
    total (·.acceptedUnconfirmed) outcomes = total (·.weight) outcomes
  induction outcomes with
  | nil => rfl
  | cons o rest ih =>
    simp only [total, List.map_cons, List.sum_cons, AttemptOutcome.weight] at ih ⊢
    omega

/-- Attempts that weigh one each weigh as many as they are. -/
theorem total_weight {outcomes : List AttemptOutcome} (h : ∀ o ∈ outcomes, o.weight = 1) :
    total (·.weight) outcomes = outcomes.length := by
  induction outcomes with
  | nil => rfl
  | cons o rest ih =>
    have ho := h o (by simp)
    have hrest := ih fun q hq => h q (List.mem_cons_of_mem _ hq)
    simp only [total, List.map_cons, List.sum_cons, List.length_cons] at hrest ⊢
    omega

end QuantumEntanglement.Publisher
