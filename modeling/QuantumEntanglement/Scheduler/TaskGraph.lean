import QuantumEntanglement.Lib.CycleSearch
import QuantumEntanglement.Lib.TransitionSystem
import QuantumEntanglement.Protocol
import QuantumEntanglement.Scheduler.Contracts

/-
  The task graph — which tasks may start

  A graph is made of tasks with distinct ids that depend on one another
  without a cycle. Every task has a status, which `transition` moves along a
  table, and `refresh` moves the pending ones whose dependencies are settled.
  The table lets a pending task become ready by a direct `transition` too,
  whatever its dependencies (`ready_early`).

  What is proved:
    1. `make_iff` — which lists of tasks make a graph.
    2. `refresh_eq` — `refresh` does what `preview_refresh` describes.
    3. `ready_iff`, `ready_done` — what is ready, and when its dependencies are
       done.

  The stack Python recurses on is taken to be deep enough.
-/

namespace QuantumEntanglement.Scheduler

open PyText PyJson TransitionSystem

/-! ## Tasks -/

structure TaskFields where
  title : String
  agentId : String
  handoff : HandoffContract
  taskId : String
  dependsOn : List String
  inputArtifacts : List String
  action : ActionIntent
  priority : Value
  metadata : List (String × Value)
  deriving DecidableEq

/-- `0 <= value <= 100`, `none` where they do not compare. -/
def inPercent : Value → Option Bool
  | .nonFinite => some false
  | v => (numberOf v).map (fun q => decide (0 ≤ q ∧ q ≤ 100))

/-- `TaskSpec.__post_init__`. -/
def TaskFields.check (t : TaskFields) : Except DecodeError Unit := do
  refuse (some (isBlank t.title || isBlank t.agentId)) "task title and agent_id are required"
  refuse ((inPercent t.priority).map not) "task priority must be between 0 and 100"
  refuse (some (decide (t.taskId ∈ t.dependsOn))) "task cannot depend on itself"

structure TaskSpec extends TaskFields where
  checked : toTaskFields.check = .ok ()
  deriving DecidableEq

def TaskSpec.make (t : TaskFields) : Except DecodeError TaskSpec :=
  match hcheck : t.check with
  | .ok () => .ok ⟨t, hcheck⟩
  | .error e => .error e

/-- The number a task's priority is. -/
def TaskSpec.rank (t : TaskSpec) : Rat := (numberOf t.priority).getD 0

/-! ## Statuses -/

def statusValue : TaskStatus → String
  | .pending => "pending"
  | .ready => "ready"
  | .running => "running"
  | .waitingInput => "waiting_input"
  | .waitingApproval => "waiting_approval"
  | .completed => "completed"
  | .failed => "failed"
  | .blocked => "blocked"
  | .canceled => "canceled"
  | .superseded => "superseded"

def doneStatuses : List TaskStatus := [.completed, .superseded]

def failedStatuses : List TaskStatus := [.failed, .blocked, .canceled]

/-- Where a status may go. -/
def allowed : TaskStatus → List TaskStatus
  | .pending => [.ready, .blocked, .canceled]
  | .ready => [.running, .blocked, .canceled]
  | .running => [.completed, .failed, .waitingInput, .waitingApproval, .canceled]
  | .waitingApproval => [.ready, .canceled, .waitingInput]
  | .waitingInput => [.ready, .canceled]
  | .completed => [.superseded]
  | .failed => []
  | .blocked => []
  | .canceled => []
  | .superseded => []

structure TaskTransition where
  taskId : String
  previous : TaskStatus
  current : TaskStatus
  reason : Option String
  revision : Nat
  deriving DecidableEq

inductive GraphError where
  | valueError (message : String)
  /-- `ValueError("task ... has missing dependencies: ...")`. -/
  | missing (taskId : String) (dependencies : List String)
  | keyError (key : String)
  | runtimeError (message : String)
  deriving DecidableEq

/-! ## Making a graph -/

/-- `self.tasks[task_id].depends_on`. -/
def dependencies (tasks : List TaskSpec) (taskId : String) : List String :=
  match tasks.find? (fun t => t.taskId = taskId) with
  | some t => t.dependsOn
  | none => []

/-- The loop that fills `self.tasks`. -/
def checkIds : List String → List TaskSpec → Except GraphError Unit
  | _, [] => .ok ()
  | seen, t :: rest =>
    if t.taskId ∈ seen then .error (.valueError ("duplicate task id: " ++ t.taskId))
    else checkIds (seen ++ [t.taskId]) rest

/-- `sorted(set(...))`. -/
def sortedSet (l : List String) : List String :=
  l.dedup.insertionSort (fun a b => a.toList ≤ b.toList)

/-- `_validate_dependencies`. -/
def validateDependencies (known : List String) : List TaskSpec → Except GraphError Unit
  | [] => .ok ()
  | t :: rest =>
    if t.dependsOn.filter (fun d => d ∉ known) ≠ [] then
      .error (.missing t.taskId (sortedSet (t.dependsOn.filter (fun d => d ∉ known))))
    else validateDependencies known rest

/-- `_validate_acyclic`. -/
def validateAcyclic (tasks : List TaskSpec) : Except GraphError Unit :=
  match CycleSearch.search (dependencies tasks) (tasks.length + 1) (tasks.map (fun t => t.taskId)) with
  | .ok _ => .ok ()
  | .error (.cycle taskId) => .error (.valueError ("task graph contains a cycle at " ++ taskId))
  | .error .exhausted => .error (.runtimeError "maximum recursion depth exceeded")

def validate (tasks : List TaskSpec) : Except GraphError Unit := do
  if tasks = [] then .error (.valueError "a workflow needs at least one task")
  else
    checkIds [] tasks
    validateDependencies (tasks.map (fun t => t.taskId)) tasks
    validateAcyclic tasks

/-- One task depends on another, of the same list. -/
def DependsOn (tasks : List TaskSpec) (dependency taskId : String) : Prop :=
  ∃ t ∈ tasks, t.taskId = taskId ∧ dependency ∈ t.dependsOn

/-- What the tasks of a graph are like. -/
structure Valid (tasks : List TaskSpec) : Prop where
  some' : tasks ≠ []
  distinct : (tasks.map (fun t => t.taskId)).Nodup
  known : ∀ t ∈ tasks, ∀ d ∈ t.dependsOn, d ∈ tasks.map (fun t => t.taskId)
  acyclic : ∀ id, ¬Relation.TransGen (DependsOn tasks) id id

theorem checkIds_ok {seen : List String} {tasks : List TaskSpec} :
    checkIds seen tasks = .ok () ↔ (tasks.map (fun t => t.taskId)).Nodup ∧
      ∀ t ∈ tasks, t.taskId ∉ seen := by
  induction tasks generalizing seen with
  | nil => simp [checkIds]
  | cons t rest ih =>
    unfold checkIds
    split
    next hseen => simp [hseen]
    next hnew =>
      rw [ih]
      simp only [List.map_cons, List.nodup_cons, List.mem_map, not_exists, not_and, List.mem_append,
        List.mem_singleton, not_or, List.mem_cons, forall_eq_or_imp, List.not_mem_nil, not_false_eq_true,
        and_true]
      constructor
      · rintro ⟨hnodup, hrest⟩
        exact ⟨⟨fun u hu heq => (hrest u hu).2 heq, hnodup⟩, hnew, fun u hu => (hrest u hu).1⟩
      · rintro ⟨⟨hnot, hnodup⟩, -, hrest⟩
        exact ⟨hnodup, fun u hu => ⟨hrest u hu, fun heq => hnot u hu heq⟩⟩

theorem validateDependencies_ok {known : List String} {tasks : List TaskSpec} :
    validateDependencies known tasks = .ok () ↔ ∀ t ∈ tasks, ∀ d ∈ t.dependsOn, d ∈ known := by
  induction tasks with
  | nil => simp [validateDependencies]
  | cons t rest ih =>
    unfold validateDependencies
    split
    next hmissing =>
      simp only [reduceCtorEq, List.mem_cons, forall_eq_or_imp, false_iff, not_and]
      intro hall
      refine absurd (List.filter_eq_nil_iff.mpr (fun d hd => ?_)) hmissing
      simpa using hall d hd
    next hnone =>
      rw [ih]
      have hall : ∀ d ∈ t.dependsOn, d ∈ known := by
        intro d hd
        simpa using List.filter_eq_nil_iff.mp (not_not.mp hnone) d hd
      simp only [List.mem_cons, forall_eq_or_imp]
      exact ⟨fun h => ⟨hall, h⟩, fun h => h.2⟩

/-- The dependencies of a task are those of the one with its id. -/
theorem dependencies_eq {tasks : List TaskSpec} (hdistinct : (tasks.map (fun t => t.taskId)).Nodup)
    {t : TaskSpec} (ht : t ∈ tasks) : dependencies tasks t.taskId = t.dependsOn := by
  unfold dependencies
  cases hfind : tasks.find? (fun u => u.taskId = t.taskId) with
  | none => simpa using List.find?_eq_none.mp hfind t ht
  | some u =>
    have hid : u.taskId = t.taskId := by simpa using List.find?_some hfind
    have hu := List.mem_of_find?_eq_some hfind
    rw [List.inj_on_of_nodup_map hdistinct hu ht hid]

theorem mem_dependencies {tasks : List TaskSpec} (hdistinct : (tasks.map (fun t => t.taskId)).Nodup)
    {d id : String} : d ∈ dependencies tasks id ↔ DependsOn tasks d id := by
  constructor
  · intro hd
    unfold dependencies at hd
    split at hd
    next t hfind =>
      exact ⟨t, List.mem_of_find?_eq_some hfind, by simpa using List.find?_some hfind, hd⟩
    · simp at hd
  · rintro ⟨t, ht, rfl, hd⟩
    rw [dependencies_eq hdistinct ht]
    exact hd

/-- **The search** succeeds exactly on tasks that do not depend on themselves. -/
theorem validateAcyclic_ok {tasks : List TaskSpec}
    (hdistinct : (tasks.map (fun t => t.taskId)).Nodup)
    (hknown : ∀ t ∈ tasks, ∀ d ∈ t.dependsOn, d ∈ tasks.map (fun t => t.taskId)) :
    validateAcyclic tasks = .ok () ↔ ∀ id, ¬Relation.TransGen (DependsOn tasks) id id := by
  have hbelow : CycleSearch.Below (dependencies tasks) = DependsOn tasks := by
    funext d id
    exact propext (mem_dependencies hdistinct)
  have hclosed : ∀ id ∈ tasks.map (fun t => t.taskId), ∀ d ∈ dependencies tasks id,
      d ∈ tasks.map (fun t => t.taskId) := by
    intro id _ d hd
    obtain ⟨t, ht, -, hmem⟩ := (mem_dependencies hdistinct).mp hd
    exact hknown t ht d hmem
  have hnodes : ∀ id, dependencies tasks id ≠ [] → id ∈ tasks.map (fun t => t.taskId) := by
    intro id hne
    obtain ⟨d, hd⟩ := List.exists_mem_of_ne_nil _ hne
    obtain ⟨t, ht, rfl, -⟩ := (mem_dependencies hdistinct).mp hd
    exact List.mem_map_of_mem ht
  have hiff := CycleSearch.search_iff hclosed hnodes
  rw [List.length_map, CycleSearch.Acyclic, hbelow] at hiff
  rw [← hiff]
  unfold validateAcyclic
  cases CycleSearch.search (dependencies tasks) (tasks.length + 1) (tasks.map (fun t => t.taskId)) with
  | ok visited => simp
  | error e => cases e <;> simp

theorem graph_bind_ok {α β : Type} {m : Except GraphError α} {f : α → Except GraphError β} {b : β} :
    (m >>= f) = .ok b ↔ ∃ a, m = .ok a ∧ f a = .ok b := by
  cases m <;> simp [bind, Except.bind]

/-- **Which tasks make a graph.** -/
theorem validate_ok {tasks : List TaskSpec} : validate tasks = .ok () ↔ Valid tasks := by
  unfold validate
  by_cases hempty : tasks = []
  · rw [if_pos hempty]
    exact ⟨fun h => (nomatch h), fun h => absurd hempty h.some'⟩
  · rw [if_neg hempty]
    simp only [graph_bind_ok]
    constructor
    · rintro ⟨_, hids, _, hknown, hacyclic⟩
      have hids := checkIds_ok.mp hids
      have hknown := validateDependencies_ok.mp hknown
      exact ⟨hempty, hids.1, hknown, (validateAcyclic_ok hids.1 hknown).mp hacyclic⟩
    · intro h
      exact ⟨(), checkIds_ok.mpr ⟨h.distinct, by simp⟩, (), validateDependencies_ok.mpr h.known,
        (validateAcyclic_ok h.distinct h.known).mpr h.acyclic⟩

/-! ## The graph -/

/-- A graph of tasks, with the status, the reason and the revision of each. -/
structure TaskGraph where
  tasks : List TaskSpec
  statuses : String → TaskStatus
  reasons : String → Option String
  revisions : String → Nat
  valid : Valid tasks

/-- `TaskGraph.__init__`. -/
def TaskGraph.make (tasks : List TaskSpec) : Except GraphError TaskGraph :=
  match h : validate tasks with
  | .ok () => .ok ⟨tasks, fun _ => .pending, fun _ => none, fun _ => 0, validate_ok.mp h⟩
  | .error e => .error e

/-- **Which lists of tasks make a graph**: those with distinct ids, whose
dependencies are in the list and have no cycle. -/
theorem make_iff {tasks : List TaskSpec} :
    (∃ g, TaskGraph.make tasks = .ok g) ↔ Valid tasks := by
  unfold TaskGraph.make
  split
  next h => exact ⟨fun _ => validate_ok.mp h, fun _ => ⟨_, rfl⟩⟩
  next e h =>
    refine ⟨fun ⟨g, hg⟩ => (nomatch hg), fun hvalid => ?_⟩
    rw [validate_ok.mpr hvalid] at h
    cases h

namespace TaskGraph

variable (g : TaskGraph)

def ids : List String := g.tasks.map (fun t => t.taskId)

/-- `preview_transition`. -/
def previewTransition (taskId : String) (target : TaskStatus) (reason : Option String) :
    Except GraphError TaskTransition :=
  if taskId ∉ g.ids then .error (.keyError taskId)
  else if target = g.statuses taskId then
    .ok ⟨taskId, g.statuses taskId, target, reason, g.revisions taskId⟩
  else if target ∉ allowed (g.statuses taskId) then
    .error (.valueError ("invalid task transition " ++ statusValue (g.statuses taskId) ++ " -> " ++
      statusValue target))
  else .ok ⟨taskId, g.statuses taskId, target, reason, g.revisions taskId + 1⟩

/-- What a planned transition makes of the graph. -/
def apply (planned : TaskTransition) : TaskGraph :=
  if planned.current = planned.previous then g
  else
    { g with
      statuses := Function.update g.statuses planned.taskId planned.current
      revisions := Function.update g.revisions planned.taskId planned.revision
      reasons :=
        if planned.reason.getD "" = "" then g.reasons
        else Function.update g.reasons planned.taskId planned.reason }

/-- `transition`. -/
def transition (taskId : String) (target : TaskStatus) (reason : Option String) :
    Except GraphError (TaskTransition × TaskGraph) := do
  let planned ← g.previewTransition taskId target reason
  .ok (planned, g.apply planned)

/-- The dependencies of a task that have failed. -/
def failedDependencies (t : TaskSpec) : List String :=
  t.dependsOn.filter (fun d => g.statuses d ∈ failedStatuses)

/-- What `preview_refresh` says of one task. -/
def previewTask (t : TaskSpec) : Except GraphError (List TaskTransition) :=
  if g.statuses t.taskId ≠ .pending then .ok []
  else if g.failedDependencies t ≠ [] then
    (g.previewTransition t.taskId .blocked
      (some ("dependencies failed: " ++ ", ".intercalate (g.failedDependencies t)))).map (fun p => [p])
  else if ∀ d ∈ t.dependsOn, g.statuses d ∈ doneStatuses then
    (g.previewTransition t.taskId .ready none).map (fun p => [p])
  else .ok []

def previewTasks : List TaskSpec → Except GraphError (List TaskTransition)
  | [] => .ok []
  | t :: rest => do
    let first ← g.previewTask t
    let others ← previewTasks rest
    .ok (first ++ others)

/-- `preview_refresh`. -/
def previewRefresh : Except GraphError (List TaskTransition) := g.previewTasks g.tasks

end TaskGraph

/-- The loop of `refresh`, which compares each transition with the planned one. -/
def applyAll : List TaskTransition → TaskGraph → Except GraphError TaskGraph
  | [], g => .ok g
  | planned :: rest, g => do
    let applied ← g.transition planned.taskId planned.current planned.reason
    if applied.1 ≠ planned then .error (.runtimeError "refreshed task transition changed after preview")
    else applyAll rest applied.2

/-- `refresh`. -/
def TaskGraph.refresh (g : TaskGraph) : Except GraphError (List TaskTransition × TaskGraph) := do
  let transitions ← g.previewRefresh
  let g' ← applyAll transitions g
  .ok (transitions, g')

/-- `candidates[:limit]`. -/
def sliceTo (limit : Option Int) (l : List TaskSpec) : List TaskSpec :=
  match limit with
  | none => l
  | some n => if 0 ≤ n then l.take n.toNat else l.take (l.length + n).toNat

/-- The key ready tasks are sorted by. -/
def readyKey (t : TaskSpec) : Rat ×ₗ List Char := toLex (-t.rank, t.taskId.toList)

/-- `ready`. -/
def TaskGraph.ready (g : TaskGraph) (limit : Option Int) : List TaskSpec :=
  sliceTo limit ((g.tasks.filter (fun t => g.statuses t.taskId = .ready)).insertionSort
    (fun a b => readyKey a ≤ readyKey b))

/-! ## What a refresh does -/

/-- The transition is one the table has, of a task of the graph. -/
structure Legal (g : TaskGraph) (p : TaskTransition) : Prop where
  task : p.taskId ∈ g.ids
  previous : p.previous = g.statuses p.taskId
  current : p.current ∈ allowed p.previous
  revision : p.revision = g.revisions p.taskId + 1

/-- What becomes of a task's status in a refresh. -/
def settled (g : TaskGraph) (t : TaskSpec) : TaskStatus :=
  if g.statuses t.taskId ≠ .pending then g.statuses t.taskId
  else if g.failedDependencies t ≠ [] then .blocked
  else if ∀ d ∈ t.dependsOn, g.statuses d ∈ doneStatuses then .ready
  else .pending

variable {g : TaskGraph}

theorem previewTransition_pending {id : String} {target : TaskStatus} {reason : Option String}
    (hid : id ∈ g.ids) (hpending : g.statuses id = .pending) (htarget : target ∈ allowed .pending) :
    g.previewTransition id target reason = .ok ⟨id, .pending, target, reason, g.revisions id + 1⟩ := by
  have hne : target ≠ .pending := by
    rintro rfl
    exact absurd htarget (by decide)
  simp only [TaskGraph.previewTransition, hpending, not_not.mpr hid, if_false, hne,
    not_not.mpr htarget]

/-- What is described of one task: nothing, or one legal transition to the
status it settles in. -/
theorem previewTask_ok {t : TaskSpec} (ht : t ∈ g.tasks) :
    (g.previewTask t = .ok [] ∧ settled g t = g.statuses t.taskId) ∨
      ∃ p, g.previewTask t = .ok [p] ∧ p.taskId = t.taskId ∧ p.current = settled g t ∧ Legal g p ∧
        g.previewTransition p.taskId p.current p.reason = .ok p ∧ p.current ≠ p.previous := by
  have hid : t.taskId ∈ g.ids := List.mem_map_of_mem ht
  unfold TaskGraph.previewTask settled
  split
  · exact .inl ⟨rfl, rfl⟩
  next hpending =>
    have hpending : g.statuses t.taskId = .pending := not_not.mp hpending
    split
    · have hrun := @previewTransition_pending g t.taskId .blocked
        (some ("dependencies failed: " ++ ", ".intercalate (g.failedDependencies t))) hid hpending
        (by decide)
      rw [hrun]
      exact .inr ⟨_, rfl, rfl, rfl, ⟨hid, hpending.symm, by simp [allowed], rfl⟩, hrun, by simp⟩
    · split
      · have hrun := @previewTransition_pending g t.taskId .ready none hid hpending (by decide)
        rw [hrun]
        exact .inr ⟨_, rfl, rfl, rfl, ⟨hid, hpending.symm, by simp [allowed], rfl⟩, hrun, by simp⟩
      · exact .inl ⟨rfl, hpending.symm⟩

/-- What is described of some of the tasks. -/
structure Described (g : TaskGraph) (tasks : List TaskSpec) (planned : List TaskTransition) : Prop where
  from' : (planned.map (fun p => p.taskId)).Sublist (tasks.map (fun t => t.taskId))
  legal : ∀ p ∈ planned, Legal g p
  again : ∀ p ∈ planned, g.previewTransition p.taskId p.current p.reason = .ok p
  moves : ∀ p ∈ planned, p.current ≠ p.previous
  settles : ∀ t ∈ tasks, (∃ p ∈ planned, p.taskId = t.taskId ∧ p.current = settled g t) ∨
    (settled g t = g.statuses t.taskId ∧ ∀ p ∈ planned, p.taskId ≠ t.taskId)

theorem previewTasks_ok : ∀ tasks : List TaskSpec, (∀ t ∈ tasks, t ∈ g.tasks) →
    (tasks.map (fun t => t.taskId)).Nodup →
      ∃ planned, g.previewTasks tasks = .ok planned ∧ Described g tasks planned := by
  intro tasks
  induction tasks with
  | nil =>
    intro _ _
    exact ⟨[], rfl, .refl _, by simp, by simp, by simp, by simp⟩
  | cons t rest ih =>
    intro hmem hnodup
    obtain ⟨ht, hrest⟩ := List.forall_mem_cons.mp hmem
    obtain ⟨hnot, hnodup⟩ := List.nodup_cons.mp hnodup
    obtain ⟨planned, hplanned, hdescribed⟩ := ih hrest hnodup
    have hother : ∀ p ∈ planned, p.taskId ≠ t.taskId := by
      intro p hp heq
      have hmem := hdescribed.from'.subset (List.mem_map_of_mem hp)
      rw [heq] at hmem
      exact hnot hmem
    have hlater : ∀ u ∈ rest, u.taskId ≠ t.taskId := by
      intro u hu heq
      exact hnot (List.mem_map.mpr ⟨u, hu, heq⟩)
    rcases previewTask_ok ht with ⟨hnone, hsettled⟩ | ⟨p, hone, hid, hcurrent, hlegal, hagain, hmoves⟩
    · refine ⟨planned, by simp [TaskGraph.previewTasks, hnone, hplanned, bind, Except.bind], ?_⟩
      refine ⟨hdescribed.from'.cons _, hdescribed.legal, hdescribed.again, hdescribed.moves, ?_⟩
      intro u hu
      rcases List.mem_cons.mp hu with rfl | hu
      · exact .inr ⟨hsettled, hother⟩
      · exact hdescribed.settles u hu
    · refine ⟨p :: planned, by simp [TaskGraph.previewTasks, hone, hplanned, bind, Except.bind], ?_⟩
      refine ⟨?_, List.forall_mem_cons.mpr ⟨hlegal, hdescribed.legal⟩,
        List.forall_mem_cons.mpr ⟨hagain, hdescribed.again⟩,
        List.forall_mem_cons.mpr ⟨hmoves, hdescribed.moves⟩, ?_⟩
      · rw [List.map_cons, List.map_cons, hid]
        exact hdescribed.from'.cons_cons _
      · intro u hu
        rcases List.mem_cons.mp hu with rfl | hu
        · exact .inl ⟨p, List.mem_cons_self, hid, hcurrent⟩
        · rcases hdescribed.settles u hu with ⟨q, hq, hqid, hqcurrent⟩ | ⟨hsame, hnone⟩
          · exact .inl ⟨q, List.mem_cons_of_mem _ hq, hqid, hqcurrent⟩
          · refine .inr ⟨hsame, List.forall_mem_cons.mpr ⟨?_, hnone⟩⟩
            rw [hid]
            exact fun heq => hlater u hu heq.symm

/-! ## Applying what was described -/

theorem apply_tasks (p : TaskTransition) : (g.apply p).tasks = g.tasks := by
  unfold TaskGraph.apply
  split <;> rfl

theorem apply_ids (p : TaskTransition) : (g.apply p).ids = g.ids := by
  unfold TaskGraph.ids
  rw [apply_tasks]

/-- A transition leaves the other tasks alone. -/
theorem apply_other {p : TaskTransition} {id : String} (hid : id ≠ p.taskId) :
    (g.apply p).statuses id = g.statuses id ∧ (g.apply p).revisions id = g.revisions id := by
  unfold TaskGraph.apply
  split
  · exact ⟨rfl, rfl⟩
  · exact ⟨Function.update_of_ne hid _ _, Function.update_of_ne hid _ _⟩

theorem apply_self {p : TaskTransition} (hmoves : p.current ≠ p.previous) :
    (g.apply p).statuses p.taskId = p.current := by
  unfold TaskGraph.apply
  rw [if_neg hmoves]
  exact Function.update_self _ _ _

theorem previewTransition_other {p : TaskTransition} {id : String} {target : TaskStatus}
    {reason : Option String} (hid : id ≠ p.taskId) :
    (g.apply p).previewTransition id target reason = g.previewTransition id target reason := by
  obtain ⟨hstatus, hrevision⟩ := @apply_other g p id hid
  unfold TaskGraph.previewTransition
  rw [apply_ids, hstatus, hrevision]

/-- What every transition of one refresh makes of the graph. -/
structure Applied (g : TaskGraph) (planned : List TaskTransition) (g' : TaskGraph) : Prop where
  tasks : g'.tasks = g.tasks
  moved : ∀ p ∈ planned, g'.statuses p.taskId = p.current
  others : ∀ id, (∀ p ∈ planned, p.taskId ≠ id) → g'.statuses id = g.statuses id

/-- **Applied one after the other** they are what was planned. -/
theorem applyAll_ok : ∀ (planned : List TaskTransition) (g : TaskGraph),
    (planned.map (fun p => p.taskId)).Nodup →
    (∀ p ∈ planned, g.previewTransition p.taskId p.current p.reason = .ok p) →
    (∀ p ∈ planned, p.current ≠ p.previous) →
      ∃ g', applyAll planned g = .ok g' ∧ Applied g planned g' := by
  intro planned
  induction planned with
  | nil =>
    intro g _ _ _
    exact ⟨g, rfl, rfl, by simp, fun _ _ => rfl⟩
  | cons p rest ih =>
    intro g hnodup hagain hmoves
    obtain ⟨hnot, hnodup⟩ := List.nodup_cons.mp hnodup
    obtain ⟨hp, hrest⟩ := List.forall_mem_cons.mp hagain
    obtain ⟨hmove, hmoves⟩ := List.forall_mem_cons.mp hmoves
    have hdistinct : ∀ q ∈ rest, q.taskId ≠ p.taskId := by
      intro q hq heq
      exact hnot (List.mem_map.mpr ⟨q, hq, heq⟩)
    obtain ⟨g', hg', happlied⟩ := ih (g.apply p) hnodup
      (fun q hq => (previewTransition_other (hdistinct q hq)).trans (hrest q hq)) hmoves
    refine ⟨g', ?_, ?_⟩
    · simp [applyAll, TaskGraph.transition, hp, bind, Except.bind, hg']
    · refine ⟨happlied.tasks.trans (apply_tasks p), ?_, ?_⟩
      · refine List.forall_mem_cons.mpr ⟨?_, happlied.moved⟩
        rw [happlied.others p.taskId hdistinct]
        exact apply_self hmove
      · intro id hid
        obtain ⟨hp, hrest⟩ := List.forall_mem_cons.mp hid
        rw [happlied.others id hrest]
        exact (apply_other hp.symm).1

/-- **A refresh** does what `preview_refresh` describes: legal transitions, to
what each task settles in. -/
theorem refresh_eq (g : TaskGraph) : ∃ planned g', g.previewRefresh = .ok planned ∧
    g.refresh = .ok (planned, g') ∧ (∀ p ∈ planned, Legal g p) ∧ g'.tasks = g.tasks ∧
      ∀ t ∈ g.tasks, g'.statuses t.taskId = settled g t := by
  obtain ⟨planned, hplanned, hdescribed⟩ := previewTasks_ok g.tasks (fun _ => id) g.valid.distinct
  obtain ⟨g', hg', happlied⟩ := applyAll_ok planned g (hdescribed.from'.nodup g.valid.distinct)
    hdescribed.again hdescribed.moves
  refine ⟨planned, g', hplanned, ?_, hdescribed.legal, happlied.tasks, ?_⟩
  · have hpreview : g.previewRefresh = .ok planned := hplanned
    simp [TaskGraph.refresh, hpreview, bind, Except.bind, hg']
  · intro t ht
    rcases hdescribed.settles t ht with ⟨p, hp, hid, hcurrent⟩ | ⟨hsame, hnone⟩
    · rw [← hid, happlied.moved p hp, hcurrent]
    · rw [happlied.others t.taskId hnone, hsame]

/-- **What is ready.** -/
theorem ready_iff {t : TaskSpec} :
    t ∈ g.ready none ↔ t ∈ g.tasks ∧ g.statuses t.taskId = .ready := by
  unfold TaskGraph.ready sliceTo
  rw [(List.perm_insertionSort _ _).mem_iff, List.mem_filter, decide_eq_true_eq]

/-! ## Runs -/

inductive GraphLabel where
  | transition (taskId : String) (target : TaskStatus)
  | refresh

/-- A call that succeeded; one that raises leaves the graph as it is. -/
inductive GraphStep (g : TaskGraph) : GraphLabel → TaskGraph → Prop where
  | transition {taskId : String} {target : TaskStatus} {reason : Option String} {p : TaskTransition}
      {g' : TaskGraph} (hrun : g.transition taskId target reason = .ok (p, g')) :
    GraphStep g (.transition taskId target) g'
  | refresh {planned : List TaskTransition} {g' : TaskGraph} (hrun : g.refresh = .ok (planned, g')) :
    GraphStep g .refresh g'

/-- The label moves no pending task to ready but by a refresh. -/
def Guarded (g : TaskGraph) : GraphLabel → Prop
  | .transition taskId target => g.statuses taskId = .pending → target ≠ .ready
  | .refresh => True

def graphSystem : System TaskGraph GraphLabel where
  start g := ∃ tasks, TaskGraph.make tasks = .ok g
  step := GraphStep

/-- The same, with tasks made ready by `refresh` alone. -/
def guardedSystem : System TaskGraph GraphLabel where
  start g := ∃ tasks, TaskGraph.make tasks = .ok g
  step g l g' := GraphStep g l g' ∧ Guarded g l

/-- The task got past its dependencies. -/
def Past (s : TaskStatus) : Prop :=
  s ∈ [TaskStatus.ready, .running, .waitingInput, .waitingApproval, .completed, .failed, .superseded]

instance (s : TaskStatus) : Decidable (Past s) := inferInstanceAs (Decidable (s ∈ _))

/-- The dependencies of every task that got past them are done. -/
def GraphInv (g : TaskGraph) : Prop :=
  ∀ t ∈ g.tasks, Past (g.statuses t.taskId) → ∀ d ∈ t.dependsOn, g.statuses d ∈ doneStatuses

theorem done_of_allowed {s s' : TaskStatus} (hs : s ∈ doneStatuses) (h : s' ∈ allowed s) :
    s' ∈ doneStatuses := by
  cases s <;> cases s' <;> revert hs h <;> decide

theorem past_of_allowed {s s' : TaskStatus} (h : s' ∈ allowed s) (hs' : Past s')
    (hguard : s = .pending → s' ≠ .ready) : Past s := by
  unfold Past at *
  cases s <;> cases s' <;> revert h hs' hguard <;> decide

/-- What a transition that is none or one of the table's does. -/
theorem transition_ok {id : String} {target : TaskStatus} {reason : Option String}
    {p : TaskTransition} {g' : TaskGraph} (h : g.transition id target reason = .ok (p, g')) :
    g'.tasks = g.tasks ∧ (∀ d, d ≠ id → g'.statuses d = g.statuses d) ∧
      (g'.statuses id = g.statuses id ∨
        (g'.statuses id = target ∧ target ∈ allowed (g.statuses id))) := by
  obtain ⟨planned, hplanned, hpair⟩ := graph_bind_ok.mp h
  obtain ⟨rfl, rfl⟩ := Prod.mk.inj (Except.ok.inj hpair)
  unfold TaskGraph.previewTransition at hplanned
  split at hplanned
  · cases hplanned
  · split at hplanned
    next hsame =>
      obtain rfl := Except.ok.inj hplanned
      have happly : g.apply ⟨id, g.statuses id, target, reason, g.revisions id⟩ = g := by
        rw [TaskGraph.apply, if_pos hsame]
      rw [happly]
      exact ⟨rfl, fun _ _ => rfl, .inl rfl⟩
    next hmoves =>
      split at hplanned
      · cases hplanned
      next hallowed =>
        obtain rfl := Except.ok.inj hplanned
        exact ⟨apply_tasks _, fun d hd => (apply_other hd).1,
          .inr ⟨apply_self hmoves, not_not.mp hallowed⟩⟩

/-- **What one guarded step keeps.** -/
theorem guarded_inv {l : GraphLabel} {g' : TaskGraph} (h : GraphInv g) (hstep : GraphStep g l g')
    (hguard : Guarded g l) : GraphInv g' := by
  intro t ht hpast d hd
  cases hstep with
  | @transition id target reason p _ hrun =>
    obtain ⟨htasks, hothers, hself⟩ := transition_ok hrun
    rw [htasks] at ht
    have hbefore : Past (g.statuses t.taskId) := by
      by_cases hid : t.taskId = id
      · rw [hid] at hpast ⊢
        rcases hself with hsame | ⟨htarget, hallowed⟩
        · rwa [hsame] at hpast
        · rw [htarget] at hpast
          exact past_of_allowed hallowed hpast hguard
      · rwa [hothers _ hid] at hpast
    have hdone := h t ht hbefore d hd
    by_cases hid : d = id
    · rw [hid] at hdone ⊢
      rcases hself with hsame | ⟨htarget, hallowed⟩
      · rwa [hsame]
      · rw [htarget]
        exact done_of_allowed hdone hallowed
    · rwa [hothers _ hid]
  | @refresh planned _ hrun =>
    obtain ⟨planned', g'', -, hrefresh, -, htasks, hsettled⟩ := refresh_eq g
    obtain ⟨rfl, rfl⟩ := Prod.mk.inj (Except.ok.inj (hrun.symm.trans hrefresh))
    rw [htasks] at ht
    have hsame : ∀ u ∈ g.tasks, g.statuses u.taskId ≠ .pending →
        g'.statuses u.taskId = g.statuses u.taskId := by
      intro u hu hne
      rw [hsettled u hu, settled, if_pos hne]
    have hbefore : g.statuses d ∈ doneStatuses := by
      rw [hsettled t ht, settled] at hpast
      split at hpast
      · exact h t ht hpast d hd
      · split at hpast
        · exact absurd hpast (by decide)
        · split at hpast
          next hall => exact hall d hd
          · exact absurd hpast (by decide)
    obtain ⟨u, hu, hid⟩ := List.mem_map.mp (g.valid.known t ht d hd)
    have hid : u.taskId = d := hid
    rw [← hid] at hbefore ⊢
    have hne : g.statuses u.taskId ≠ .pending := by
      intro heq
      rw [heq] at hbefore
      exact absurd hbefore (by decide)
    rw [hsame u hu hne]
    exact hbefore

theorem make_pending {tasks : List TaskSpec} (h : TaskGraph.make tasks = .ok g) (id : String) :
    g.statuses id = .pending := by
  unfold TaskGraph.make at h
  split at h
  · rw [← Except.ok.inj h]
  · cases h

/-- **What is ready is past its dependencies**, where tasks become ready by
refreshes alone. -/
theorem ready_done (hg : Reachable guardedSystem g) {t : TaskSpec} (ht : t ∈ g.ready none) :
    ∀ d ∈ t.dependsOn, g.statuses d ∈ doneStatuses := by
  have hinv : GraphInv g := by
    refine invariant_of_reachable (S := guardedSystem) (I := GraphInv) ?_ ?_ hg
    · rintro g ⟨tasks, hmake⟩ t ht hpast
      rw [make_pending hmake] at hpast
      exact absurd hpast (by decide)
    · exact fun g l g' h hs => guarded_inv h hs.1 hs.2
  obtain ⟨htask, hready⟩ := ready_iff.mp ht
  exact hinv t htask (by rw [hready]; decide)

/-- **After a refresh** no pending task waits for nothing: the dependencies of
one that is left are not all done. -/
theorem refreshed_waits {planned : List TaskTransition} {g' : TaskGraph}
    (h : g.refresh = .ok (planned, g')) {t : TaskSpec} (ht : t ∈ g'.tasks)
    (hpending : g'.statuses t.taskId = .pending) :
    ∃ d ∈ t.dependsOn, g.statuses d ∉ doneStatuses := by
  obtain ⟨planned', g'', -, hrefresh, -, htasks, hsettled⟩ := refresh_eq g
  obtain ⟨rfl, rfl⟩ := Prod.mk.inj (Except.ok.inj (h.symm.trans hrefresh))
  rw [htasks] at ht
  rw [hsettled t ht, settled] at hpending
  split at hpending
  next hne => exact absurd hpending hne
  · split at hpending
    · cases hpending
    · split at hpending
      · cases hpending
      next hnot => simpa using hnot

namespace Sample

def handoff : HandoffContract where
  goal := "ship"
  acceptanceCriteria := ["done"]
  deliverables := ["report"]
  inputs := []
  contextRefs := []
  constraints := []
  authority := ⟨[], [], .low, false⟩
  parentTaskId := .null
  tokenBudget := .null
  costBudget := .null
  deadline := .null
  checked := by rfl

def first : TaskSpec where
  title := "first"
  agentId := "agent"
  handoff := handoff
  taskId := "a"
  dependsOn := []
  inputArtifacts := []
  action := ⟨"analyze", "workspace", .low, false, false, []⟩
  priority := .int 50
  metadata := []
  checked := by rfl

def second : TaskSpec := { first with taskId := "b", dependsOn := ["a"], checked := by rfl }

theorem valid : Valid [first, second] := validate_ok.mp (by decide)

/-- The second task is ready, and the first one pending. -/
def early : TaskGraph :=
  ⟨[first, second], Function.update (fun _ => .pending) "b" .ready, fun _ => none,
    Function.update (fun _ => 0) "b" 1, valid⟩

theorem early_reachable : Reachable graphSystem early :=
  ⟨_, [.transition "b" .ready], ⟨[first, second], by rfl⟩,
    Run.single (S := graphSystem) (.transition (p := ⟨"b", .pending, .ready, none, 1⟩) (by rfl))⟩

end Sample

end QuantumEntanglement.Scheduler
