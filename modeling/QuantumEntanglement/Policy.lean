import QuantumEntanglement.Lib.Checked
import QuantumEntanglement.Lib.TransitionSystem

/-
  Policy — the approval requests and the `Needs You` queue

  The queue is a dict of requests, each under its own `request_id`. `create`
  stores a request unless its session and task already have a pending one;
  `decide` replaces a pending request by its decided copy. The calls of one
  queue run one after another: each holds the queue's lock from its first line
  to its last.

  What is proved:
    1. `onePending` — whatever is called, a session and task have at most one
       pending request.
    2. `create_keeps_iff` — `create` looks for a pending request of the same
       session and task and never for the id it is about to store under: it
       replaces a decided request exactly if it is handed another request with
       that id while nothing is pending.
    3. `decide_again`, `decide_other` — the same decision by the same actor
       returns what is stored, and any other is refused.
    4. `fromDict_toDict` — the serialised form keeps a request exactly if its
       deciding actor and its comment are not the empty text: `from_dict` takes
       an empty text for a missing one.

  A mapping is the record of the values `from_dict` reads from it; `none` is a
  key that is missing or null.
-/

namespace QuantumEntanglement.Policy

open Checked TransitionSystem

/-- An exception of the policy module: its type and its text. -/
inductive PolicyError where
  | keyError (key : String)
  | valueError (message : String)
  deriving DecidableEq

/-! ## Intents -/

/-- `protocol.RiskLevel`. -/
inductive RiskLevel where
  | none
  | low
  | medium
  | high
  | critical
  deriving DecidableEq

namespace RiskLevel

def value : RiskLevel → String
  | .none => "none"
  | .low => "low"
  | .medium => "medium"
  | .high => "high"
  | .critical => "critical"

def all : List RiskLevel := [.none, .low, .medium, .high, .critical]

/-- `RiskLevel(text)`. -/
def ofValue (text : String) : Except PolicyError RiskLevel :=
  match all.find? (fun risk => risk.value == text) with
  | some risk => .ok risk
  | Option.none => .error (.valueError (text ++ " is not a valid RiskLevel"))

theorem ofValue_value (risk : RiskLevel) : ofValue risk.value = .ok risk := by
  cases risk <;> rfl

end RiskLevel

/-- `protocol.ActionIntent`. -/
structure ActionIntent where
  action : String
  target : String
  risk : RiskLevel
  externalSideEffect : Bool
  irreversible : Bool
  dataClasses : List String
  deriving DecidableEq

/-- What `ActionIntent.from_dict` reads from a mapping. -/
structure IntentRecord where
  action : String
  target : String
  risk : Option String
  externalSideEffect : Option Bool
  irreversible : Option Bool
  dataClasses : Option (List String)

namespace ActionIntent

/-- `ActionIntent.to_dict`. -/
def toDict (intent : ActionIntent) : IntentRecord where
  action := intent.action
  target := intent.target
  risk := some intent.risk.value
  externalSideEffect := some intent.externalSideEffect
  irreversible := some intent.irreversible
  dataClasses := some intent.dataClasses

/-- `ActionIntent.from_dict`. -/
def fromDict (value : IntentRecord) : Except PolicyError ActionIntent := do
  let risk ← RiskLevel.ofValue (value.risk.getD RiskLevel.low.value)
  .ok {
    action := value.action
    target := value.target
    risk
    externalSideEffect := value.externalSideEffect.getD false
    irreversible := value.irreversible.getD false
    dataClasses := value.dataClasses.getD [] }

theorem fromDict_toDict (intent : ActionIntent) : fromDict intent.toDict = .ok intent := by
  have hrisk := RiskLevel.ofValue_value intent.risk
  simp only [fromDict, toDict, Option.getD_some, hrisk, except_ok_bind]

end ActionIntent

/-! ## Requests -/

/-- `protocol.ApprovalDecision`. -/
inductive ApprovalDecision where
  | approve
  | reject
  | revise
  deriving DecidableEq

namespace ApprovalDecision

def value : ApprovalDecision → String
  | .approve => "approve"
  | .reject => "reject"
  | .revise => "revise"

def all : List ApprovalDecision := [.approve, .reject, .revise]

/-- `ApprovalDecision(text)`. -/
def ofValue (text : String) : Except PolicyError ApprovalDecision :=
  match all.find? (fun decision => decision.value == text) with
  | some decision => .ok decision
  | none => .error (.valueError (text ++ " is not a valid ApprovalDecision"))

theorem ofValue_value (decision : ApprovalDecision) : ofValue decision.value = .ok decision := by
  cases decision <;> rfl

theorem value_ne_empty (decision : ApprovalDecision) : decision.value ≠ "" := by
  cases decision <;> decide

end ApprovalDecision

/-- `ApprovalRequest`. -/
structure ApprovalRequest where
  sessionId : String
  taskId : String
  intent : ActionIntent
  reason : String
  requestId : String
  createdAt : String
  decision : Option ApprovalDecision := none
  decidedBy : Option String := none
  comment : Option String := none
  deriving DecidableEq

/-- What `ApprovalRequest.from_dict` reads from a mapping. -/
structure ApprovalRecord where
  requestId : String
  sessionId : String
  taskId : String
  intent : IntentRecord
  reason : String
  createdAt : String
  decision : Option String
  decidedBy : Option String
  comment : Option String

/-- `str(value[key]) if value.get(key) else None`: the text under a key unless
it is false, which an empty text is. -/
def textOrNone : Option String → Option String
  | none => none
  | some text => if text = "" then none else some text

theorem textOrNone_eq_self {value : Option String} : textOrNone value = value ↔ value ≠ some "" := by
  cases value with
  | none => simp [textOrNone]
  | some text =>
    by_cases htext : text = ""
    · simp [textOrNone, htext]
    · simp [textOrNone, htext]

namespace ApprovalRequest

/-- `ApprovalRequest.pending`. -/
def pending (request : ApprovalRequest) : Bool := request.decision.isNone

/-- `ApprovalRequest.to_dict`. -/
def toDict (request : ApprovalRequest) : ApprovalRecord where
  requestId := request.requestId
  sessionId := request.sessionId
  taskId := request.taskId
  intent := request.intent.toDict
  reason := request.reason
  createdAt := request.createdAt
  decision := request.decision.map ApprovalDecision.value
  decidedBy := request.decidedBy
  comment := request.comment

/-- `ApprovalDecision(str(raw)) if raw else None`. -/
def readDecision (raw : Option String) : Except PolicyError (Option ApprovalDecision) :=
  match textOrNone raw with
  | none => .ok none
  | some text => do
    let decision ← ApprovalDecision.ofValue text
    .ok (some decision)

/-- `ApprovalRequest.from_dict`. -/
def fromDict (value : ApprovalRecord) : Except PolicyError ApprovalRequest := do
  let intent ← ActionIntent.fromDict value.intent
  let decision ← readDecision value.decision
  .ok {
    sessionId := value.sessionId
    taskId := value.taskId
    intent
    reason := value.reason
    requestId := value.requestId
    createdAt := value.createdAt
    decision
    decidedBy := textOrNone value.decidedBy
    comment := textOrNone value.comment }

theorem readDecision_value (decision : Option ApprovalDecision) :
    readDecision (decision.map ApprovalDecision.value) = .ok decision := by
  cases decision with
  | none => rfl
  | some decision =>
    have hvalue := ApprovalDecision.ofValue_value decision
    simp only [readDecision, Option.map_some, textOrNone, if_neg decision.value_ne_empty, hvalue,
      except_ok_bind]

/-- The serialised form loses empty texts and nothing else. -/
theorem fromDict_toDict_eq (request : ApprovalRequest) :
    fromDict request.toDict = .ok { request with
      decidedBy := textOrNone request.decidedBy, comment := textOrNone request.comment } := by
  have hintent := ActionIntent.fromDict_toDict request.intent
  have hdecision := readDecision_value request.decision
  simp only [fromDict, toDict, hintent, hdecision, except_ok_bind]

/-- **The serialised form keeps a request exactly if neither its actor nor its
comment is the empty text.** -/
theorem fromDict_toDict (request : ApprovalRequest) :
    fromDict request.toDict = .ok request ↔
      request.decidedBy ≠ some "" ∧ request.comment ≠ some "" := by
  rw [fromDict_toDict_eq, Except.ok.injEq, ← textOrNone_eq_self, ← textOrNone_eq_self]
  obtain ⟨sessionId, taskId, intent, reason, requestId, createdAt, decision, decidedBy, comment⟩ :=
    request
  simp

/-- `NeedsYouQueue._clone_request`. -/
def cloneRequest (request : ApprovalRequest) : Except PolicyError ApprovalRequest := do
  let intent ← ActionIntent.fromDict request.intent.toDict
  .ok { request with intent }

@[simp] theorem cloneRequest_eq (request : ApprovalRequest) : cloneRequest request = .ok request := by
  simp only [cloneRequest, ActionIntent.fromDict_toDict, except_ok_bind]

end ApprovalRequest

/-! ## The queue -/

/-- `self._requests[stored.request_id] = stored`, on the values of the dict. -/
def store (stored : ApprovalRequest) : List ApprovalRequest → List ApprovalRequest
  | [] => [stored]
  | item :: rest =>
    if item.requestId = stored.requestId then stored :: rest else item :: store stored rest

theorem mem_store {stored r : ApprovalRequest} {requests : List ApprovalRequest}
    (hd : (requests.map (·.requestId)).Nodup) :
    r ∈ store stored requests ↔ r = stored ∨ r ∈ requests ∧ r.requestId ≠ stored.requestId := by
  induction requests with
  | nil => simp [store]
  | cons item rest ih =>
    obtain ⟨hnot, hrest⟩ := List.nodup_cons.mp hd
    simp only [store]
    split
    next hid =>
      have hothers : ∀ x ∈ rest, x.requestId ≠ stored.requestId := by
        intro x hx heq
        exact hnot (List.mem_map.mpr ⟨x, hx, heq.trans hid.symm⟩)
      simp only [List.mem_cons]
      constructor
      · intro h
        rcases h with h | h
        · exact .inl h
        · exact .inr ⟨.inr h, hothers r h⟩
      · intro h
        rcases h with h | ⟨rfl | h, hne⟩
        · exact .inl h
        · exact absurd hid hne
        · exact .inr h
    next hid =>
      simp only [List.mem_cons, ih hrest]
      constructor
      · intro h
        rcases h with rfl | h | ⟨h, hne⟩
        · exact .inr ⟨.inl rfl, hid⟩
        · exact .inl h
        · exact .inr ⟨.inr h, hne⟩
      · intro h
        rcases h with h | ⟨rfl | h, hne⟩
        · exact .inr (.inl h)
        · exact .inl rfl
        · exact .inr (.inr ⟨h, hne⟩)

theorem store_distinct {stored : ApprovalRequest} {requests : List ApprovalRequest}
    (hd : (requests.map (·.requestId)).Nodup) :
    ((store stored requests).map (·.requestId)).Nodup := by
  induction requests with
  | nil => simp [store]
  | cons item rest ih =>
    obtain ⟨hnot, hrest⟩ := List.nodup_cons.mp hd
    simp only [store]
    split
    next hid =>
      rw [List.map_cons, List.nodup_cons]
      exact ⟨hid ▸ hnot, hrest⟩
    next hid =>
      rw [List.map_cons, List.nodup_cons]
      refine ⟨fun hmem => ?_, ih hrest⟩
      obtain ⟨x, hx, heq⟩ := List.mem_map.mp hmem
      rcases (mem_store hrest).mp hx with rfl | ⟨hx, -⟩
      · exact hid heq.symm
      · exact hnot (List.mem_map.mpr ⟨x, hx, heq⟩)

/-- `NeedsYouQueue`: the requests of its dict, each under its own id. -/
structure NeedsYouQueue where
  requests : List ApprovalRequest
  distinct : (requests.map (·.requestId)).Nodup

namespace NeedsYouQueue

/-- `NeedsYouQueue()`. -/
def empty : NeedsYouQueue := ⟨[], .nil⟩

/-- The queue with a request stored. -/
def assign (queue : NeedsYouQueue) (stored : ApprovalRequest) : NeedsYouQueue :=
  ⟨store stored queue.requests, store_distinct queue.distinct⟩

/-- `self._requests[request_id]`. -/
def lookup (queue : NeedsYouQueue) (requestId : String) : Option ApprovalRequest :=
  queue.requests.find? (fun item => item.requestId == requestId)

/-- The first pending request of a request's session and task. -/
def pendingFor (queue : NeedsYouQueue) (request : ApprovalRequest) : Option ApprovalRequest :=
  queue.requests.find? (fun item =>
    item.sessionId == request.sessionId && item.taskId == request.taskId && item.pending)

/-- `NeedsYouQueue.create`. -/
def create (queue : NeedsYouQueue) (request : ApprovalRequest) :
    Except PolicyError ApprovalRequest × NeedsYouQueue :=
  match queue.pendingFor request with
  | some existing => (existing.cloneRequest, queue)
  | none =>
    match request.cloneRequest with
    | .error e => (.error e, queue)
    | .ok stored => (stored.cloneRequest, queue.assign stored)

/-- `NeedsYouQueue.decide`. -/
def decide (queue : NeedsYouQueue) (requestId : String) (decision : ApprovalDecision)
    (actorId : String) (comment : Option String) :
    Except PolicyError ApprovalRequest × NeedsYouQueue :=
  match queue.lookup requestId with
  | none => (.error (.keyError requestId), queue)
  | some request =>
    if !request.pending then
      if request.decision = some decision ∧ request.decidedBy = some actorId then
        (request.cloneRequest, queue)
      else (.error (.valueError "approval request is already decided"), queue)
    else
      let decided := { request with decision := some decision, decidedBy := some actorId, comment }
      (decided.cloneRequest, queue.assign decided)

/-! ## What a call does -/

theorem mem_assign {queue : NeedsYouQueue} {stored r : ApprovalRequest} :
    r ∈ (queue.assign stored).requests ↔
      r = stored ∨ r ∈ queue.requests ∧ r.requestId ≠ stored.requestId :=
  mem_store queue.distinct

theorem lookup_eq_some {queue : NeedsYouQueue} {requestId : String} {r : ApprovalRequest} :
    queue.lookup requestId = some r ↔ r ∈ queue.requests ∧ r.requestId = requestId := by
  constructor
  · intro h
    exact ⟨List.mem_of_find?_eq_some h, by simpa using List.find?_some h⟩
  · intro ⟨hmem, hid⟩
    have hsome : (queue.lookup requestId).isSome = true := by
      rw [lookup, List.find?_isSome]
      exact ⟨r, hmem, by simp [hid]⟩
    obtain ⟨r', hr'⟩ := Option.isSome_iff_exists.mp hsome
    have hid' : r'.requestId = requestId := by simpa using List.find?_some hr'
    have hmem' : r' ∈ queue.requests := List.mem_of_find?_eq_some hr'
    rw [hr', List.inj_on_of_nodup_map queue.distinct hmem' hmem (hid'.trans hid.symm)]

theorem pendingFor_eq_none {queue : NeedsYouQueue} {request : ApprovalRequest} :
    queue.pendingFor request = none ↔ ∀ r ∈ queue.requests,
      r.sessionId = request.sessionId → r.taskId = request.taskId → r.pending = false := by
  simp [pendingFor, List.find?_eq_none]

/-- `create` hands back the pending request, or stores the new one. -/
theorem create_cases (queue : NeedsYouQueue) (request : ApprovalRequest) :
    (∃ existing, queue.pendingFor request = some existing ∧
      queue.create request = (.ok existing, queue)) ∨
    (queue.pendingFor request = none ∧
      queue.create request = (.ok request, queue.assign request)) := by
  unfold create
  cases hpending : queue.pendingFor request with
  | some existing => exact .inl ⟨existing, rfl, by simp⟩
  | none => exact .inr ⟨rfl, by simp⟩

/-- A decided request: the same decision again returns it. -/
theorem decide_again {queue : NeedsYouQueue} {r : ApprovalRequest} {decision : ApprovalDecision}
    {actorId : String} {comment : Option String} (hr : r ∈ queue.requests)
    (hdecision : r.decision = some decision) (hactor : r.decidedBy = some actorId) :
    queue.decide r.requestId decision actorId comment = (.ok r, queue) := by
  have hlookup := lookup_eq_some.mpr ⟨hr, rfl⟩
  simp [decide, hlookup, ApprovalRequest.pending, hdecision, hactor]

/-- A decided request: any other decision is refused and changes nothing. -/
theorem decide_other {queue : NeedsYouQueue} {r : ApprovalRequest} {decision : ApprovalDecision}
    {actorId : String} {comment : Option String} (hr : r ∈ queue.requests)
    (hdecided : r.pending = false)
    (hother : ¬(r.decision = some decision ∧ r.decidedBy = some actorId)) :
    queue.decide r.requestId decision actorId comment =
      (.error (.valueError "approval request is already decided"), queue) := by
  have hlookup := lookup_eq_some.mpr ⟨hr, rfl⟩
  simp [decide, hlookup, hdecided, hother]

/-- `decide` leaves the queue as it was, or decides one pending request. -/
theorem decide_cases (queue : NeedsYouQueue) (requestId : String) (decision : ApprovalDecision)
    (actorId : String) (comment : Option String) :
    (queue.decide requestId decision actorId comment).2 = queue ∨
    ∃ r ∈ queue.requests, r.requestId = requestId ∧ r.pending = true ∧
      (queue.decide requestId decision actorId comment).2 = queue.assign
        { r with decision := some decision, decidedBy := some actorId, comment } := by
  unfold decide
  cases hlookup : queue.lookup requestId with
  | none => exact .inl rfl
  | some r =>
    obtain ⟨hr, hid⟩ := lookup_eq_some.mp hlookup
    cases hpending : r.pending with
    | true => exact .inr ⟨r, hr, hid, hpending, by simp [hpending]⟩
    | false =>
      left
      simp only [hpending, Bool.not_false, if_true]
      split
      · rfl
      · rfl

/-! ## Runs -/

end NeedsYouQueue

/-- One call on the queue. -/
inductive Call where
  | create (request : ApprovalRequest)
  | decide (requestId : String) (decision : ApprovalDecision) (actorId : String)
      (comment : Option String)

/-- What a call returns or raises, and the queue after it. -/
def Call.run (queue : NeedsYouQueue) : Call → Except PolicyError ApprovalRequest × NeedsYouQueue
  | .create request => queue.create request
  | .decide requestId decision actorId comment => queue.decide requestId decision actorId comment

/-- A queue under calls, from the empty one. -/
def queueSystem : System NeedsYouQueue Call where
  start queue := queue = .empty
  step queue call queue' := (call.run queue).2 = queue'

/-- Two pending requests of one session and task are one request. -/
def OnePending (queue : NeedsYouQueue) : Prop :=
  ∀ r ∈ queue.requests, ∀ r' ∈ queue.requests, r.pending = true → r'.pending = true →
    r.sessionId = r'.sessionId → r.taskId = r'.taskId → r = r'

/-- Storing a decided request, or one whose session and task have none pending. -/
theorem OnePending.assign {queue : NeedsYouQueue} {stored : ApprovalRequest}
    (h : OnePending queue)
    (hstored : stored.pending = true → queue.pendingFor stored = none) :
    OnePending (queue.assign stored) := by
  intro r hr r' hr' hp hp' hs ht
  -- A request the queue had is not pending beside a pending stored one.
  have hold : ∀ x ∈ queue.requests, stored.pending = true → x.pending = true →
      x.sessionId = stored.sessionId → x.taskId = stored.taskId → False := by
    intro x hx hps hpx hsx htx
    have hnone := NeedsYouQueue.pendingFor_eq_none.mp (hstored hps) x hx hsx htx
    rw [hpx] at hnone
    cases hnone
  rcases NeedsYouQueue.mem_assign.mp hr with heq | ⟨hmem, -⟩
  · rcases NeedsYouQueue.mem_assign.mp hr' with heq' | ⟨hmem', -⟩
    · rw [heq, heq']
    · subst heq
      exact (hold r' hmem' hp hp' hs.symm ht.symm).elim
  · rcases NeedsYouQueue.mem_assign.mp hr' with heq' | ⟨hmem', -⟩
    · subst heq'
      exact (hold r hmem hp' hp hs ht).elim
    · exact h r hmem r' hmem' hp hp' hs ht

theorem OnePending.step {queue queue' : NeedsYouQueue} {call : Call} (h : OnePending queue)
    (hstep : queueSystem.step queue call queue') : OnePending queue' := by
  have hstep : (call.run queue).2 = queue' := hstep
  rw [← hstep]
  cases call with
  | create request =>
    rcases queue.create_cases request with ⟨existing, -, hrun⟩ | ⟨hnone, hrun⟩
    · rw [Call.run, hrun]
      exact h
    · rw [Call.run, hrun]
      exact h.assign (fun _ => hnone)
  | decide requestId decision actorId comment =>
    rcases queue.decide_cases requestId decision actorId comment with hrun | ⟨r, -, -, -, hrun⟩
    · rw [Call.run, hrun]
      exact h
    · rw [Call.run, hrun]
      refine h.assign (fun hp => ?_)
      simp [ApprovalRequest.pending] at hp

/-- **At most one pending request**, whatever is called. -/
theorem onePending {queue : NeedsYouQueue} (h : Reachable queueSystem queue) : OnePending queue := by
  refine invariant_of_reachable (I := OnePending) (fun q hq => ?_) (fun q call q' hq hs => hq.step hs) h
  have hq : q = .empty := hq
  subst hq
  intro r hr
  cases hr

/-- A call that replaces a decided request: a `create` of another request under
its id, while nothing is pending for the new request's session and task. -/
def Replaces (queue : NeedsYouQueue) (call : Call) (r : ApprovalRequest) : Prop :=
  ∃ request, call = .create request ∧ request.requestId = r.requestId ∧ request ≠ r ∧
    queue.pendingFor request = none

/-- A call keeps a decided request exactly if it is not the `create` that
replaces it. -/
theorem create_keeps_iff {queue : NeedsYouQueue} {call : Call} {r : ApprovalRequest}
    (hr : r ∈ queue.requests) (hdecided : r.pending = false) :
    r ∈ (call.run queue).2.requests ↔ ¬Replaces queue call r := by
  cases call with
  | create request =>
    rcases queue.create_cases request with ⟨existing, hsome, hrun⟩ | ⟨hnone, hrun⟩
    · rw [Call.run, hrun]
      refine ⟨fun _ hrep => ?_, fun _ => hr⟩
      obtain ⟨request', hcall, -, -, hnone⟩ := hrep
      cases hcall
      rw [hsome] at hnone
      cases hnone
    · rw [Call.run, hrun, NeedsYouQueue.mem_assign]
      constructor
      · intro h hrep
        obtain ⟨request', hcall, hid, hne, -⟩ := hrep
        cases hcall
        rcases h with h | ⟨-, h⟩
        · exact hne h.symm
        · exact h hid.symm
      · intro h
        by_cases hid : r.requestId = request.requestId
        · left
          by_contra hne
          exact h ⟨request, rfl, hid.symm, fun heq => hne heq.symm, hnone⟩
        · exact .inr ⟨hr, hid⟩
  | decide requestId decision actorId comment =>
    have hno : ¬Replaces queue (.decide requestId decision actorId comment) r := by
      intro hrep
      obtain ⟨request, hcall, -⟩ := hrep
      cases hcall
    refine ⟨fun _ => hno, fun _ => ?_⟩
    rcases queue.decide_cases requestId decision actorId comment with hrun | ⟨r', hr', -, hp, hrun⟩
    · rw [Call.run, hrun]
      exact hr
    · rw [Call.run, hrun, NeedsYouQueue.mem_assign]
      refine .inr ⟨hr, fun hid => ?_⟩
      have heq := List.inj_on_of_nodup_map queue.distinct hr hr' hid
      rw [heq, hp] at hdecided
      cases hdecided

/-- The calls that replace no decided request. -/
def carefulSystem : System NeedsYouQueue Call where
  start queue := queue = .empty
  step queue call queue' := queueSystem.step queue call queue' ∧
    ∀ r ∈ queue.requests, r.pending = false → ¬Replaces queue call r

theorem decided_kept {queue queue' : NeedsYouQueue} {calls : List Call} {r : ApprovalRequest}
    (h : Run carefulSystem queue calls queue') (hr : r ∈ queue.requests)
    (hdecided : r.pending = false) : r ∈ queue'.requests := by
  refine h.invariant (I := fun q => r ∈ q.requests) (fun q call q' hq hs => ?_) hr
  obtain ⟨hstep, hkeeps⟩ := hs
  have hstep : (call.run q).2 = q' := hstep
  rw [← hstep]
  exact (create_keeps_iff hq hdecided).mpr (hkeeps r hq hdecided)

/-- **The approval queue.** In every run a session and task have at most one
pending request; a decided request outlives every run whose calls do not store
another request under its id, and a call that does replaces it; the same
decision by the same actor returns what is stored, and any other is refused;
and the serialised form keeps a request exactly if its actor and its comment
are not the empty text. -/
theorem approval_queue (queue : NeedsYouQueue) :
    (Reachable queueSystem queue → OnePending queue) ∧
    (∀ calls queue' r, Run carefulSystem queue calls queue' → r ∈ queue.requests →
      r.pending = false → r ∈ queue'.requests) ∧
    (∀ (call : Call) (r : ApprovalRequest), r ∈ queue.requests →
      r.pending = false → (r ∈ (call.run queue).2.requests ↔ ¬Replaces queue call r)) ∧
    (∀ (r : ApprovalRequest) decision actorId comment,
      r ∈ queue.requests → r.pending = false →
        queue.decide r.requestId decision actorId comment =
          (if r.decision = some decision ∧ r.decidedBy = some actorId then .ok r
            else .error (.valueError "approval request is already decided"), queue)) ∧
    (∀ r : ApprovalRequest, ApprovalRequest.fromDict r.toDict = .ok r ↔
      r.decidedBy ≠ some "" ∧ r.comment ≠ some "") := by
  refine ⟨fun h => onePending h, fun calls queue' r h hr hd => decided_kept h hr hd,
    fun call r hr hd => create_keeps_iff hr hd, fun r decision actorId comment hr hd => ?_,
    ApprovalRequest.fromDict_toDict⟩
  split
  next hsame => exact NeedsYouQueue.decide_again hr hsame.1 hsame.2
  next hother => exact NeedsYouQueue.decide_other hr hd hother

namespace Sample

/-- A request to publish, not yet decided. -/
def publish : ApprovalRequest where
  sessionId := "session-a"
  taskId := "task-a"
  intent := ⟨"publish", "external", .high, true, false, []⟩
  reason := "high-impact action needs a human"
  requestId := "approval-a"
  createdAt := "2026-08-20T12:00:00.000000Z"

/-- The queue after the request was created and approved with an empty comment. -/
def approved : NeedsYouQueue :=
  (Call.run (Call.run .empty (.create publish)).2
    (.decide "approval-a" .approve "owner" (some ""))).2

/-- The approved request of the queue, if there is one. -/
def approvedRequest (queue : NeedsYouQueue) : Option ApprovalRequest :=
  queue.requests.find? (fun r => r.decision == some .approve)

end Sample

/-- An approval with an empty comment is read back without a comment, and
creating the same request again makes the approved request pending. -/
theorem approval_lost :
    (Sample.approvedRequest Sample.approved).map (fun r => ApprovalRequest.fromDict r.toDict) ≠
      (Sample.approvedRequest Sample.approved).map .ok ∧
    (Sample.approvedRequest Sample.approved).isSome = true ∧
    Sample.approvedRequest (Call.run Sample.approved (.create Sample.publish)).2 = none := by
  decide +kernel

end QuantumEntanglement.Policy
