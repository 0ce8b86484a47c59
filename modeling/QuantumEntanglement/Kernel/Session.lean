import QuantumEntanglement.Kernel.Facts

/-
  The kernel's sessions — run, decide and restart over one session's stream

  One kernel at a time works on a session. `run` holds the session's lock from
  its first line to its last, and `decide` takes the same lock, so a decision
  falls between runs. Inside a run the ready tasks of a round are coroutines of
  their own: between two of its awaits a coroutine is alone, and what it does
  there is one step.

  An append is stored and acknowledged, or it raises, and then the batch is not
  in the stream, or it is and nobody read it back. The store takes no key
  twice.

  A hook and an agent may return, raise or be interrupted at every await, and
  others may append events of other types (the artifacts of a task among
  them). Recovery is its result, a memory; where it refuses the stream, and
  where `run` or `decide` refuses its arguments, nothing happens. The limiter,
  which only delays coroutines, and a hook that changes the kernel's own graph
  are left out.
-/

namespace QuantumEntanglement.Kernel

open Scheduler TransitionSystem
open Policy (ApprovalRequest ApprovalDecision NeedsYouQueue)

/-- What a method of the kernel raises. -/
inductive KernelError where
  | graph (e : GraphError)
  | policy (e : Policy.PolicyError)
  | runtimeError (message : String)

/-- A session's plan, and the policy the kernel was made with. -/
structure Setup where
  plan : WorkflowPlan
  policy : TaskSpec → PolicyDecision
  graph : TaskGraph
  made : TaskGraph.make plan.tasks = .ok graph

/-! ## Commits -/

/-- A batch about to be appended, and what memory is once it is stored. -/
structure Commit where
  batch : List Fact
  published : Except KernelError Memory

/-- The loop that publishes stored transitions, each compared with the planned
one. -/
def publish (message : String) : List TaskTransition → TaskGraph → Except KernelError TaskGraph
  | [], g => .ok g
  | planned :: rest, g =>
    match g.transition planned.taskId planned.current planned.reason with
    | .error e => .error (.graph e)
    | .ok (applied, g') =>
      if applied ≠ planned then .error (.runtimeError message) else publish message rest g'

/-- `_commit_planned_transitions`. -/
def commitPlannedTransitions (m : Memory) (transitions : List TaskTransition) : Commit where
  batch := transitions.map Fact.statusChanged
  published := do
    let graph ← publish "persisted task transition differs from memory" transitions m.graph
    .ok { m with graph }

/-- `_commit_transition`. -/
def commitTransition (m : Memory) (taskId : String) (target : TaskStatus) (reason : Option String) :
    Except KernelError Commit :=
  match m.graph.previewTransition taskId target reason with
  | .error e => .error (.graph e)
  | .ok planned => .ok (commitPlannedTransitions m [planned])

/-- A batch that changes nothing in memory. -/
def factCommit (m : Memory) (f : Fact) : Commit := ⟨[f], .ok m⟩

/-- `_initialize_plan`, where the stream has no plan. -/
def initializePlan (S : Setup) : Except KernelError Commit :=
  match S.graph.refresh with
  | .error e => .error (.graph e)
  | .ok (transitions, graph) =>
    .ok
      { batch := .planCreated ::
          (S.plan.tasks.map (fun t => .taskCreated t.taskId) ++ transitions.map Fact.statusChanged)
        published := .ok (Memory.fresh graph) }

/-! ## The dispatch of a task -/

/-- The decision `_run_task` acts on. -/
def decisionFor (S : Setup) (m : Memory) (task : TaskSpec) : PolicyDecision :=
  if m.approved task.taskId = true ∧ (S.policy task).outcome = .needsApproval then
    ⟨.allow, "covered by task-scoped human approval"⟩
  else S.policy task

/-- What `_run_task` commits for a denied task. -/
def deny (m : Memory) (task : TaskSpec) (reason : String) : Except KernelError Commit :=
  match m.graph.previewTransition task.taskId .running none with
  | .error e => .error (.graph e)
  | .ok running =>
    .ok (commitPlannedTransitions m
      [running, ⟨task.taskId, .running, .failed, some reason, running.revision + 1⟩])

/-- A contract's action as a request holds it. -/
def intentOf (a : ActionIntent) : Policy.ActionIntent :=
  ⟨a.action, a.target, Policy.RiskLevel.all.getD (riskRank a.risk) .none, a.externalSideEffect,
    a.irreversible, a.dataClasses⟩

/-- Some request of the task is `pending`. -/
def hasPending (queue : NeedsYouQueue) (sessionId taskId : String) : Bool :=
  queue.requests.any (fun r => r.pending && r.sessionId == sessionId && r.taskId == taskId)

/-- What the stored request for approval makes of memory. -/
def publishGate (m : Memory) (running waiting : TaskTransition) (request : ApprovalRequest) :
    Except KernelError Memory := do
  let graph ← publish "persisted approval dispatch differs from memory" [running] m.graph
  let graph ← publish "persisted approval transition differs from memory" [waiting] graph
  match m.approvals.create request with
  | (.error e, _) => .error (.policy e)
  | (.ok created, approvals) =>
    if created ≠ request then .error (.runtimeError "persisted approval request differs from memory")
    else .ok { m with graph, approvals }

/-- What `_run_task` commits for a task that needs approval. -/
def gate (S : Setup) (m : Memory) (task : TaskSpec) (reason requestId createdAt : String) :
    Except KernelError Commit :=
  if hasPending m.approvals S.plan.sessionId task.taskId then
    .error (.runtimeError "task already has a pending approval request")
  else
    let running := ⟨task.taskId, .ready, .running, none, m.graph.revisions task.taskId + 1⟩
    let waiting :=
      ⟨task.taskId, .running, .waitingApproval, some reason, m.graph.revisions task.taskId + 2⟩
    let request : ApprovalRequest :=
      { sessionId := S.plan.sessionId, taskId := task.taskId, intent := intentOf task.action, reason,
        requestId, createdAt }
    .ok
      { batch := [.statusChanged running, .statusChanged waiting, .approvalRequested request]
        published := publishGate m running waiting request }

/-- Where the coroutine of a ready task stands, between two of its steps. -/
inductive Phase where
  | scheduled
  /-- Its task is RUNNING, and its context is compiled. -/
  | running
  | compiled
  /-- Its invocation is recorded, and the agent works. -/
  | started
  | calling
  | returned
  | received
  /-- An exception is to be recorded. -/
  | failing
  | done (raised : Bool)
  deriving DecidableEq

/-- What the coroutine of a task commits in a phase, the phase it goes on to once
that is stored, and the one it goes on to if the append raises. -/
inductive Commits (S : Setup) (m : Memory) (task : TaskSpec) : Phase → Commit → Phase → Phase → Prop where
  | deny {c : Commit} (houtcome : (decisionFor S m task).outcome = .deny)
      (hcommit : deny m task (decisionFor S m task).reason = .ok c) :
    Commits S m task .scheduled c (.done false) (.done true)
  | gate (requestId createdAt : String) {c : Commit}
      (houtcome : (decisionFor S m task).outcome = .needsApproval)
      (hcommit : gate S m task (decisionFor S m task).reason requestId createdAt = .ok c) :
    Commits S m task .scheduled c (.done false) (.done true)
  | allow {c : Commit} (houtcome : (decisionFor S m task).outcome = .allow)
      (hcommit : commitTransition m task.taskId .running none = .ok c) :
    Commits S m task .scheduled c .running (.done true)
  | compile (digest : String) :
    Commits S m task .running (factCommit m (.contextCompiled task.taskId digest)) .compiled .failing
  | start : Commits S m task .compiled (factCommit m (.invocationStarted task.taskId)) .started .failing
  | receive :
    Commits S m task .returned (factCommit m (.resultReceived task.taskId)) .received (.done true)
  | complete {c : Commit} (hcommit : commitTransition m task.taskId .completed none = .ok c) :
    Commits S m task .received c (.done false) (.done true)
  | fail {reason : String} {c : Commit}
      (hcommit : commitTransition m task.taskId .failed (some reason) = .ok c) :
    Commits S m task .failing c (.done false) (.done true)

/-- What a coroutine does without an append. -/
inductive Internal : Phase → Phase → Prop where
  /-- An exception between the first append and the agent's return. -/
  | raised {phase : Phase} (h : phase ∈ [Phase.running, .compiled, .started, .calling]) :
    Internal phase .failing
  | returned : Internal .calling .returned
  /-- An interrupt, or an exception that nobody records. -/
  | escaped {phase : Phase} : Internal phase (.done true)

/-! ## Decisions -/

/-- `_APPROVAL_DECISION_TARGETS`. -/
def decisionTarget : ApprovalDecision → TaskStatus
  | .approve => .ready
  | .revise => .waitingInput
  | .reject => .canceled

/-- What the stored decision makes of memory. -/
def publishDecision (m : Memory) (transition : TaskTransition) (decided : ApprovalRequest)
    (decision : ApprovalDecision) (actorId : String) (comment : Option String) :
    Except KernelError Memory :=
  match m.approvals.decide decided.requestId decision actorId comment with
  | (.error e, _) => .error (.policy e)
  | (.ok committed, approvals) => do
    if committed ≠ decided then
      .error (.runtimeError "persisted approval decision differs from memory")
    else
      let graph ← publish "persisted approval transition differs from memory" [transition] m.graph
      .ok
        { graph, approvals,
          approved := Function.update m.approved decided.taskId (decide (decision = .approve)) }

/-- What `decide` commits for a pending request. -/
def decideCommit (m : Memory) (request : ApprovalRequest) (decision : ApprovalDecision)
    (actorId : String) (comment : Option String) : Except KernelError Commit :=
  if m.graph.statuses request.taskId ≠ .waitingApproval then
    .error (.runtimeError "approval task is not waiting for a decision")
  else
    let transition :=
      ⟨request.taskId, .waitingApproval, decisionTarget decision, comment,
        m.graph.revisions request.taskId + 1⟩
    let decided := { request with decision := some decision, decidedBy := some actorId, comment }
    .ok
      { batch := [.approvalDecided decided, .statusChanged transition]
        published := publishDecision m transition decided decision actorId comment }

/-! ## The session -/

/-- Where the kernel stands with the session. -/
inductive Control where
  /-- Nobody holds the lock. -/
  | idle
  /-- `run` is about to refresh the graph. -/
  | looping
  /-- The graph is refreshed. -/
  | selecting
  /-- The coroutines of the round's ready tasks. -/
  | batch (ids : List String) (phase : String → Phase)

/-- A session's stream, what the kernel holds of it, and where it stands. -/
structure State where
  log : List Fact
  memory : Option Memory
  control : Control

/-- No key stands twice. -/
def KeysDistinct (S : Setup) (log : List Fact) : Prop := (log.filterMap (Fact.key S.plan.planId)).Nodup

/-- How an append ended. -/
inductive Outcome where
  | stored
  /-- It raised, and the batch is not in the stream. -/
  | refused
  /-- It raised, and the batch is in the stream. -/
  | lost
  deriving DecidableEq

/-- What a commit makes of the stream and of memory. -/
inductive Appended (S : Setup) (c : Commit) (log : List Fact) (m : Memory) :
    Outcome → List Fact → Memory → Prop where
  | stored {m' : Memory} (hkeys : KeysDistinct S (log ++ c.batch)) (hpublished : c.published = .ok m') :
    Appended S c log m .stored (log ++ c.batch) m'
  | refused : Appended S c log m .refused log m
  | lost (hkeys : KeysDistinct S (log ++ c.batch)) : Appended S c log m .lost (log ++ c.batch) m

/-- `_require_no_unreconciled_running_tasks` lets memory by. -/
def Memory.quiet (m : Memory) : Prop := ∀ t ∈ m.graph.tasks, m.graph.statuses t.taskId ≠ .running

/-- What recovery makes of the stream. -/
def recovered (S : Setup) (log : List Fact) : Memory := (Memory.fresh S.graph).recordAll log

/-- A commit the kernel comes to where it stands, and where it stands after its
append. -/
inductive Planned (S : Setup) (m : Memory) : Control → Commit → (Outcome → Control) → Prop where
  /-- The refresh at the head of a round. -/
  | refresh {planned : List TaskTransition} (hplanned : m.graph.previewRefresh = .ok planned) :
    Planned S m .looping (commitPlannedTransitions m planned)
      (fun o => if o = .stored then .selecting else .idle)
  /-- A coroutine's commit. -/
  | slot {ids : List String} {phase : String → Phase} {task : TaskSpec} {c : Commit} {next failed : Phase}
      (hid : task.taskId ∈ ids) (htask : task ∈ m.graph.tasks)
      (hcommits : Commits S m task (phase task.taskId) c next failed) :
    Planned S m (.batch ids phase) c
      (fun o => .batch ids (Function.update phase task.taskId (if o = .stored then next else failed)))
  /-- A decision. -/
  | decide {request : ApprovalRequest} {decision : ApprovalDecision} {actorId : String}
      {comment : Option String} {c : Commit} (hrequest : request ∈ m.approvals.requests)
      (hpending : request.pending = true)
      (hcommit : decideCommit m request decision actorId comment = .ok c) :
    Planned S m .idle c (fun _ => .idle)

inductive Label where
  | other
  | crash
  | cancel
  | enter
  | append (o : Outcome)
  | select
  | returned
  | slot
  | call (taskId : String)
  | join
  | leave
  deriving DecidableEq

/-- One step of the session. -/
inductive Step (S : Setup) : State → Label → State → Prop where
  /-- Somebody appends an event of another type. -/
  | other {s : State} {eventType : String} {key : Option String}
      (hkeys : KeysDistinct S (s.log ++ [.other eventType key])) :
    Step S s .other { s with log := s.log ++ [.other eventType key] }
  /-- The process ends, and another kernel is made. -/
  | crash {s : State} : Step S s .crash { s with memory := none, control := .idle }
  /-- An interrupt at an await of `run` itself. -/
  | cancel {s : State} (h : s.control = .looping ∨ s.control = .selecting) :
    Step S s .cancel { s with control := .idle }
  /-- `run`, of a session in memory. -/
  | resume {log : List Fact} {m : Memory} (hquiet : m.quiet) :
    Step S ⟨log, some m, .idle⟩ .enter ⟨log, some m, .looping⟩
  /-- `run`, of a session in the stream. -/
  | recover {log : List Fact} (hplan : .planCreated ∈ log) (hquiet : (recovered S log).quiet) :
    Step S ⟨log, none, .idle⟩ .enter ⟨log, some (recovered S log), .looping⟩
  /-- `run`, of a new session. -/
  | create {log log' : List Fact} {c : Commit} {m' : Memory} {o : Outcome}
      (hplan : .planCreated ∉ log) (hcommit : initializePlan S = .ok c)
      (happend : Appended S c log (Memory.fresh S.graph) o log' m') :
    Step S ⟨log, none, .idle⟩ (.append o)
      (if o = .stored then ⟨log', some m', .looping⟩ else ⟨log', none, .idle⟩)
  /-- A commit of the kernel, and how its append ends. -/
  | append {log log' : List Fact} {m m' : Memory} {control : Control} {c : Commit}
      {after : Outcome → Control} {o : Outcome} (hplanned : Planned S m control c after)
      (happend : Appended S c log m o log' m') :
    Step S ⟨log, some m, control⟩ (.append o) ⟨log', some m', after o⟩
  /-- The coroutines of the ready tasks are made. -/
  | select {log : List Fact} {m : Memory} (hready : m.graph.ready none ≠ []) :
    Step S ⟨log, some m, .selecting⟩ .select
      ⟨log, some m, .batch ((m.graph.ready none).map (fun t => t.taskId)) (fun _ => .scheduled)⟩
  /-- Nothing is ready, and `run` returns. -/
  | returned {log : List Fact} {m : Memory} (hready : m.graph.ready none = []) :
    Step S ⟨log, some m, .selecting⟩ .returned ⟨log, some m, .idle⟩
  | internal {log : List Fact} {m : Memory} {ids : List String} {phase : String → Phase} {id : String}
      {phase' : Phase} (hid : id ∈ ids) (hphase : Internal (phase id) phase') :
    Step S ⟨log, some m, .batch ids phase⟩ .slot
      ⟨log, some m, .batch ids (Function.update phase id phase')⟩
  /-- The agent is called. -/
  | call {log : List Fact} {m : Memory} {ids : List String} {phase : String → Phase} {id : String}
      (hid : id ∈ ids) (hphase : phase id = .started) :
    Step S ⟨log, some m, .batch ids phase⟩ (.call id)
      ⟨log, some m, .batch ids (Function.update phase id .calling)⟩
  /-- Every coroutine returned, and the next round begins. -/
  | join {log : List Fact} {m : Memory} {ids : List String} {phase : String → Phase}
      (hdone : ∀ id ∈ ids, phase id = .done false) :
    Step S ⟨log, some m, .batch ids phase⟩ .join ⟨log, some m, .looping⟩
  /-- Every coroutine ended, and `run` raises. -/
  | leave {log : List Fact} {m : Memory} {ids : List String} {phase : String → Phase}
      (hdone : ∀ id ∈ ids, ∃ raised, phase id = .done raised) :
    Step S ⟨log, some m, .batch ids phase⟩ .leave ⟨log, some m, .idle⟩

/-- A session, from a stream that holds no event of the kernel. -/
def sessionSystem (S : Setup) : System State Label where
  start s := s.memory = none ∧ s.control = .idle ∧ KeysDistinct S s.log ∧
    ∀ f ∈ s.log, ∃ eventType key, f = .other eventType key
  step := Step S

end QuantumEntanglement.Kernel
