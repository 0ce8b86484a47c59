import QuantumEntanglement.Policy
import QuantumEntanglement.Scheduler.WorkflowPlan

/-
  The kernel's facts — what a session's stream says, and what memory makes of it

  Three of the kernel's events change what it holds of a session in memory: a
  task's transition, a request for approval, and the decision of one.
  `recordAll` is that memory as a fold over the stream. A task's standing, its
  status and revision, depends on that task's transitions alone.

  What is proved:
    1. `standing_recordAll` — a task's standing in memory is the fold of its
       own transitions.
    2. `Follows.revisions` — transitions that follow one another count up the
       revision.
    3. `recorded` — what memory holds of approvals was written.

  What an event says that nobody reads again is left out.
-/

namespace QuantumEntanglement.Kernel

open Scheduler
open Policy (ApprovalRequest NeedsYouQueue)

/-! ## The policy -/

/-- `policy.PolicyOutcome`. -/
inductive PolicyOutcome where
  | allow
  | needsApproval
  | deny
  deriving DecidableEq

/-- `policy.PolicyDecision`. -/
structure PolicyDecision where
  outcome : PolicyOutcome
  reason : String
  deriving DecidableEq

/-- `RiskLevel.rank`. -/
def riskRank : RiskLevel → Nat
  | .none => 0
  | .low => 1
  | .medium => 2
  | .high => 3
  | .critical => 4

/-! ## Facts -/

/-- What one event the kernel writes to a session's stream says. -/
inductive Fact where
  /-- `workflow.plan.created`. -/
  | planCreated
  /-- `task.created`. -/
  | taskCreated (taskId : String)
  /-- `task.status.changed`. -/
  | statusChanged (transition : TaskTransition)
  /-- `approval.requested`. -/
  | approvalRequested (request : ApprovalRequest)
  /-- `approval.decided`. -/
  | approvalDecided (request : ApprovalRequest)
  /-- `context.compiled`. -/
  | contextCompiled (taskId digest : String)
  /-- `task.invocation.started`. -/
  | invocationStarted (taskId : String)
  /-- `task.result.received`. -/
  | resultReceived (taskId : String)
  /-- An event of another type, under its key if it has one. -/
  | other (eventType : String) (key : Option String)

/-- The idempotency key the kernel writes a fact under. -/
def Fact.key (planId : String) : Fact → Option String
  | .planCreated => some ("plan:" ++ planId)
  | .taskCreated taskId => some ("task-created:" ++ taskId)
  | .statusChanged p => some ("task-status:" ++ p.taskId ++ ":" ++ toString p.revision)
  | .approvalRequested r => some ("approval-request:" ++ r.taskId)
  | .approvalDecided r => some ("approval-decision:" ++ r.requestId)
  | .contextCompiled taskId digest => some ("context:" ++ taskId ++ ":" ++ digest)
  | .invocationStarted taskId => some ("invocation-started:" ++ taskId)
  | .resultReceived taskId => some ("task-result:" ++ taskId)
  | .other _ key => key

/-- The task a fact is about, of those that say how a task fares. -/
def Fact.task : Fact → Option String
  | .statusChanged p => some p.taskId
  | .approvalRequested r => some r.taskId
  | .approvalDecided r => some r.taskId
  | .invocationStarted taskId => some taskId
  | .resultReceived taskId => some taskId
  | _ => none

/-- The transition of one task, if the fact is one. -/
def Fact.move (taskId : String) : Fact → Option TaskTransition
  | .statusChanged p => if p.taskId = taskId then some p else none
  | _ => none

/-- The transitions of one task, oldest first. -/
def moves (log : List Fact) (taskId : String) : List TaskTransition := log.filterMap (Fact.move taskId)

theorem moves_append (log log' : List Fact) (taskId : String) :
    moves (log ++ log') taskId = moves log taskId ++ moves log' taskId := List.filterMap_append

theorem mem_moves {log : List Fact} {taskId : String} {p : TaskTransition} :
    p ∈ moves log taskId ↔ p.taskId = taskId ∧ .statusChanged p ∈ log := by
  simp only [moves, List.mem_filterMap]
  constructor
  · intro ⟨f, hf, hmove⟩
    cases f with
    | statusChanged q =>
      simp only [Fact.move, Option.ite_none_right_eq_some, Option.some.injEq] at hmove
      obtain ⟨htask, rfl⟩ := hmove
      exact ⟨htask, hf⟩
    | _ => cases hmove
  · intro ⟨htask, hp⟩
    exact ⟨_, hp, if_pos htask⟩

/-- Facts of other tasks hold no transition of the task. -/
theorem moves_other {log : List Fact} {taskId : String} (h : ∀ f ∈ log, f.task ≠ some taskId) :
    moves log taskId = [] := by
  apply List.eq_nil_iff_forall_not_mem.mpr
  intro p hp
  obtain ⟨htask, hlog⟩ := mem_moves.mp hp
  exact h _ hlog (congrArg some htask)

/-! ## Standings -/

/-- What memory holds of one task. -/
structure Standing where
  status : TaskStatus
  revision : Nat

/-- The standing of a task nothing was said of. -/
def Standing.start : Standing := ⟨.pending, 0⟩

/-- What a transition makes of its task's standing. -/
def Standing.after (s : Standing) (p : TaskTransition) : Standing :=
  if p.current = p.previous then s else ⟨p.current, p.revision⟩

/-- The standing after some transitions. -/
def standing (ms : List TaskTransition) : Standing := ms.foldl Standing.after .start

/-- What the graph holds of a task. -/
def graphStanding (g : TaskGraph) (taskId : String) : Standing := ⟨g.statuses taskId, g.revisions taskId⟩

theorem graphStanding_apply (g : TaskGraph) (p : TaskTransition) (taskId : String) :
    graphStanding (g.apply p) taskId =
      if p.taskId = taskId then (graphStanding g taskId).after p else graphStanding g taskId := by
  unfold TaskGraph.apply Standing.after graphStanding
  by_cases hsame : p.current = p.previous
  · simp [hsame]
  · by_cases htask : p.taskId = taskId
    · subst htask
      simp [hsame]
    · have hother : taskId ≠ p.taskId := fun heq => htask heq.symm
      simp [hsame, htask, Function.update_of_ne hother]

/-- The next transition of a task that stands so. -/
structure Next (s : Standing) (p : TaskTransition) : Prop where
  previous : p.previous = s.status
  current : p.current ∈ allowed s.status
  revision : p.revision = s.revision + 1

/-- Every transition is the next one after those before it. -/
def Follows : Standing → List TaskTransition → Prop
  | _, [] => True
  | s, p :: rest => Next s p ∧ Follows (s.after p) rest

theorem follows_append {s : Standing} {ms ms' : List TaskTransition} :
    Follows s (ms ++ ms') ↔ Follows s ms ∧ Follows (ms.foldl Standing.after s) ms' := by
  induction ms generalizing s with
  | nil => simp [Follows]
  | cons p rest ih =>
    simp only [List.cons_append, Follows, List.foldl_cons, ih]
    exact and_assoc.symm

theorem not_allowed_self (s : TaskStatus) : s ∉ allowed s := by
  cases s <;> decide

theorem Next.moves {s : Standing} {p : TaskTransition} (h : Next s p) : p.current ≠ p.previous := by
  intro heq
  have hallowed := h.current
  rw [heq, h.previous] at hallowed
  exact not_allowed_self s.status hallowed

theorem Next.after {s : Standing} {p : TaskTransition} (h : Next s p) :
    s.after p = ⟨p.current, s.revision + 1⟩ := by
  rw [Standing.after, if_neg h.moves, h.revision]

/-- **Transitions that follow one another** count up the revision. -/
theorem Follows.revisions {s : Standing} {ms : List TaskTransition} (h : Follows s ms) :
    ms.map (fun p => p.revision) = List.range' (s.revision + 1) ms.length ∧
      (ms.foldl Standing.after s).revision = s.revision + ms.length := by
  induction ms generalizing s with
  | nil => exact ⟨rfl, rfl⟩
  | cons p rest ih =>
    obtain ⟨hnext, hrest⟩ := h
    obtain ⟨hmap, hlast⟩ := ih hrest
    rw [hnext.after] at hmap hlast
    constructor
    · rw [List.map_cons, List.length_cons, List.range'_succ, hnext.revision, hmap]
    · rw [List.foldl_cons, hnext.after, hlast, List.length_cons]
      show s.revision + 1 + rest.length = s.revision + (rest.length + 1)
      omega

/-! ## Memory -/

/-- What the kernel holds of one session: of `_graphs`, `approvals` and
`_approved_tasks`. -/
structure Memory where
  graph : TaskGraph
  approvals : NeedsYouQueue
  approved : String → Bool

namespace Memory

/-- A session of which nothing was said. -/
def fresh (g : TaskGraph) : Memory := ⟨g, .empty, fun _ => false⟩

/-- What a fact makes of memory. -/
def record (m : Memory) : Fact → Memory
  | .statusChanged p => { m with graph := m.graph.apply p }
  | .approvalRequested r => { m with approvals := m.approvals.assign r }
  | .approvalDecided r =>
    { m with
      approvals := m.approvals.assign r
      approved := Function.update m.approved r.taskId (decide (r.decision = some .approve)) }
  | _ => m

/-- What some facts make of memory. -/
def recordAll (m : Memory) (facts : List Fact) : Memory := facts.foldl record m

theorem recordAll_append (m : Memory) (facts facts' : List Fact) :
    m.recordAll (facts ++ facts') = (m.recordAll facts).recordAll facts' := List.foldl_append

/-- **A task's standing** is the fold of its own transitions. -/
theorem standing_recordAll (m : Memory) (facts : List Fact) (taskId : String) :
    graphStanding (m.recordAll facts).graph taskId =
      (moves facts taskId).foldl Standing.after (graphStanding m.graph taskId) := by
  induction facts generalizing m with
  | nil => rfl
  | cons f rest ih =>
    refine (ih (m.record f)).trans ?_
    rw [show moves (f :: rest) taskId = _ from List.filterMap_cons]
    cases f with
    | statusChanged p =>
      rw [show graphStanding (m.record (.statusChanged p)).graph taskId = _ from
        graphStanding_apply m.graph p taskId, Fact.move]
      split <;> rfl
    | _ => rfl

theorem recordAll_tasks (m : Memory) (facts : List Fact) :
    (m.recordAll facts).graph.tasks = m.graph.tasks := by
  induction facts generalizing m with
  | nil => rfl
  | cons f rest ih =>
    refine (ih (m.record f)).trans ?_
    cases f with
    | statusChanged p => exact apply_tasks p
    | _ => rfl

/-- What memory holds beside the graph was written. -/
structure Written (facts : List Fact) (m : Memory) : Prop where
  request : ∀ r ∈ m.approvals.requests, ∃ f ∈ facts, f.task = some r.taskId
  approval : ∀ taskId, m.approved taskId = true →
    ∃ r, .approvalDecided r ∈ facts ∧ r.taskId = taskId ∧ r.decision = some .approve

/-- **Every request** memory holds is of a task that was written of, and every
approval was written. -/
theorem recorded (g : TaskGraph) (facts : List Fact) : Written facts ((fresh g).recordAll facts) := by
  induction facts using List.reverseRecOn with
  | nil => exact ⟨fun r hr => (nomatch hr), fun taskId h => (nomatch h)⟩
  | append_singleton facts f ih =>
    rw [recordAll_append]
    generalize (fresh g).recordAll facts = m at ih
    have hlast : f ∈ facts ++ [f] := List.mem_append_right _ List.mem_cons_self
    have hold : Written (facts ++ [f]) m := by
      refine ⟨fun r hr => ?_, fun taskId h => ?_⟩
      · obtain ⟨f', hf', htask⟩ := ih.request r hr
        exact ⟨f', List.mem_append_left _ hf', htask⟩
      · obtain ⟨r, hr, hrest⟩ := ih.approval taskId h
        exact ⟨r, List.mem_append_left _ hr, hrest⟩
    have hassigned : ∀ r', f.task = some r'.taskId → ∀ r ∈ (m.approvals.assign r').requests,
        ∃ f' ∈ facts ++ [f], f'.task = some r.taskId := by
      intro r' htask r hr
      cases NeedsYouQueue.mem_assign.mp hr with
      | inl heq => exact ⟨f, hlast, heq ▸ htask⟩
      | inr hmem => exact hold.request r hmem.1
    cases f with
    | approvalRequested r' => exact ⟨hassigned r' rfl, hold.approval⟩
    | approvalDecided r' =>
      refine ⟨hassigned r' rfl, fun taskId h => ?_⟩
      by_cases htask : taskId = r'.taskId
      · subst htask
        refine ⟨r', hlast, rfl, ?_⟩
        simpa [recordAll, record] using h
      · apply hold.approval
        simpa [recordAll, record, Function.update_of_ne htask] using h
    | statusChanged p => exact ⟨hold.request, hold.approval⟩
    | _ => exact hold

end Memory

end QuantumEntanglement.Kernel
