import QuantumEntanglement.Kernel.Session

/-
  The stream and the memory of a session — what every commit keeps of both

  Memory is the fold of a part of the stream, the facts whose appends were
  acknowledged: an append that was stored and raised leaves the stream ahead.
  From then on the store takes no further transition of the tasks it was
  about, because a transition's key holds the task's next revision, and that
  key is taken (`Coherent.current`). So what the kernel appends of a task, it
  appends from the task's last standing.

  What is proved:
    1. `LogInv.append` — what a batch has to be like for the stream to stay as
       it should be.
    2. `Coherent.current` — whose next revision the store takes, that task
       stands in memory as it does in the stream.
    3. `publish_ok` — transitions that follow one another are published as
       planned.
    4. `Sound.planned` — which planned batches are sound, and `Sound.appended`,
       what an append of a sound one keeps.
-/

namespace QuantumEntanglement.Kernel

open Scheduler
open Policy (ApprovalRequest)

variable {S : Setup} {log log' b : List Fact} {m m' : Memory} {c : Commit} {o : Outcome}
  {task : TaskSpec} {p : TaskTransition} {ps : List TaskTransition} {id : String} {s s' : TaskStatus}

/-! ## The stream -/

/-- The status of a task, by the stream. -/
def status (log : List Fact) (id : String) : TaskStatus := (standing (moves log id)).status

/-- Where one commit of the kernel takes a task. -/
def goes : TaskStatus → List TaskStatus
  | .pending => [.ready, .blocked]
  | .ready => [.running, .failed, .waitingApproval]
  | .running => [.completed, .failed]
  | .waitingApproval => [.ready, .waitingInput, .canceled]
  | _ => []

/-- The statuses of a task that was never handed to its agent. -/
def unstarted : List TaskStatus := [.pending, .blocked, .ready, .waitingApproval, .waitingInput, .canceled]

/-- The statuses of a task a human refused. -/
def refused : List TaskStatus := [.waitingInput, .canceled]

/-- The task got past its dependencies. -/
def Begun (s : TaskStatus) : Prop := s ≠ .pending ∧ s ≠ .blocked

theorem goes_unstarted (h : s' ∈ goes s) (hs' : s' ∈ unstarted) : s ∈ unstarted := by
  cases s <;> first | decide | (revert h hs'; cases s' <;> decide)

theorem goes_begun (h : s' ∈ goes s) (hs' : Begun s') :
    Begun s ∨ s = .pending ∧ s' = .ready := by
  cases s <;> first | exact .inl ⟨by decide, by decide⟩ | skip
  · cases s' <;> first | exact .inr ⟨rfl, rfl⟩ | exact absurd rfl hs'.2 | exact absurd h (by decide)
  · cases h

/-- A task may be handed to its agent: by its policy, or by its approval. -/
def Permitted (S : Setup) (task : TaskSpec) (log : List Fact) : Prop :=
  (S.policy task).outcome = .allow ∨ (S.policy task).outcome = .needsApproval ∧
    ∃ r, .approvalDecided r ∈ log ∧ r.taskId = task.taskId ∧ r.decision = some .approve

/-- What the stream of a session is like. -/
structure LogInv (S : Setup) (log : List Fact) : Prop where
  keys : KeysDistinct S log
  follows : ∀ id, Follows .start (moves log id)
  known : ∀ f ∈ log, ∀ id, f.task = some id → id ∈ S.graph.ids
  planned : .planCreated ∉ log → ∀ f ∈ log, f.task = none
  unstarted : ∀ id, status log id ∈ unstarted → .invocationStarted id ∉ log
  refused : ∀ r, .approvalDecided r ∈ log → r.decision ≠ some .approve → status log r.taskId ∈ refused
  permitted : ∀ before after id, log = before ++ .invocationStarted id :: after →
    ∀ task ∈ S.plan.tasks, task.taskId = id → Permitted S task before
  deps : ∀ task ∈ S.plan.tasks, Begun (status log task.taskId) → ∀ d ∈ task.dependsOn,
    status log d ∈ doneStatuses

theorem Setup.tasks_eq (S : Setup) : S.graph.tasks = S.plan.tasks := by
  have hmade := S.made
  unfold TaskGraph.make at hmade
  split at hmade
  · rw [← Except.ok.inj hmade]
  · cases hmade

theorem Setup.fresh_standing (S : Setup) (id : String) : graphStanding S.graph id = .start := by
  have hmade := S.made
  unfold TaskGraph.make at hmade
  split at hmade
  · rw [← Except.ok.inj hmade]
    rfl
  · cases hmade

/-- The tasks of a plan are told apart by their ids. -/
theorem Setup.task_unique (S : Setup) {t t' : TaskSpec} (ht : t ∈ S.plan.tasks) (ht' : t' ∈ S.plan.tasks)
    (hid : t.taskId = t'.taskId) : t = t' := by
  have hdistinct := S.graph.valid.distinct
  rw [S.tasks_eq] at hdistinct
  exact List.inj_on_of_nodup_map hdistinct ht ht' hid

theorem status_still (h : moves b id = []) : status (log ++ b) id = status log id := by
  rw [status, moves_append, h, List.append_nil]
  rfl

/-- The last fact of a list is `x`, or follows it. -/
theorem split_append {α : Type} {l b before after : List α} {x : α} (h : l ++ b = before ++ x :: after) :
    (∃ after', l = before ++ x :: after') ∨ ∃ before', before = l ++ before' ∧ x ∈ b := by
  obtain ⟨b', hbefore, hb⟩ | ⟨c, hl, hc⟩ := List.append_eq_append_iff.mp h
  · exact .inr ⟨b', hbefore, by rw [hb]; exact List.mem_append_right _ List.mem_cons_self⟩
  · cases c with
    | nil =>
      rw [List.append_nil] at hl
      exact .inr ⟨[], by rw [hl, List.append_nil], by rw [← List.nil_append b, ← hc]; exact List.mem_cons_self⟩
    | cons y c =>
      obtain ⟨rfl, -⟩ := List.cons.inj hc
      exact .inl ⟨c, hl⟩

/-- What a batch has to be like. -/
structure Extends (S : Setup) (log b : List Fact) : Prop where
  planned : .planCreated ∈ log ++ b ∨ ∀ f ∈ b, f.task = none
  known : ∀ f ∈ b, ∀ id, f.task = some id → id ∈ S.graph.ids
  follows : ∀ id, moves b id ≠ [] → Follows (standing (moves log id)) (moves b id)
  goes : ∀ id, moves b id ≠ [] → status (log ++ b) id ∈ goes (status log id)
  ready : ∀ task ∈ S.plan.tasks, moves b task.taskId ≠ [] → status log task.taskId = .pending →
    status (log ++ b) task.taskId = .ready → ∀ d ∈ task.dependsOn, status log d ∈ doneStatuses
  started : ∀ id, .invocationStarted id ∈ b → status (log ++ b) id ∉ unstarted ∧
    ∀ task ∈ S.plan.tasks, task.taskId = id → Permitted S task log
  decided : ∀ r, .approvalDecided r ∈ b → r.decision ≠ some .approve →
    status (log ++ b) r.taskId ∈ refused

theorem Permitted.mono (h : Permitted S task log) (hsub : ∀ f ∈ log, f ∈ log') :
    Permitted S task log' := by
  obtain hallow | ⟨hneeds, r, hr, hrest⟩ := h
  · exact .inl hallow
  · exact .inr ⟨hneeds, r, hsub _ hr, hrest⟩

/-- **What a batch has to be like** for the stream to stay as it should be. -/
theorem LogInv.append (h : LogInv S log) (hkeys : KeysDistinct S (log ++ b)) (hb : Extends S log b) :
    LogInv S (log ++ b) where
  keys := hkeys
  follows id := by
    rw [moves_append, follows_append]
    refine ⟨h.follows id, ?_⟩
    by_cases hmoves : moves b id = []
    · rw [hmoves]
      trivial
    · exact hb.follows id hmoves
  known f hf := by
    cases List.mem_append.mp hf with
    | inl hlog => exact h.known f hlog
    | inr hnew => exact hb.known f hnew
  planned hnone f hf := by
    cases hb.planned with
    | inl hplan => exact absurd hplan hnone
    | inr hall =>
      cases List.mem_append.mp hf with
      | inl hlog => exact h.planned (fun hplan => hnone (List.mem_append_left _ hplan)) f hlog
      | inr hnew => exact hall f hnew
  unstarted id hid hstarted := by
    cases List.mem_append.mp hstarted with
    | inr hnew => exact (hb.started id hnew).1 hid
    | inl hlog =>
      refine h.unstarted id ?_ hlog
      by_cases hmoves : moves b id = []
      · rwa [status_still hmoves] at hid
      · exact goes_unstarted (hb.goes id hmoves) hid
  refused r hr hne := by
    cases List.mem_append.mp hr with
    | inr hnew => exact hb.decided r hnew hne
    | inl hlog =>
      have hold := h.refused r hlog hne
      by_cases hmoves : moves b r.taskId = []
      · rwa [status_still hmoves]
      · -- A refused task goes nowhere.
        have hgoes := hb.goes r.taskId hmoves
        revert hgoes hold
        cases status log r.taskId <;> simp [Kernel.refused, Kernel.goes]
  permitted before after id heq task htask hid := by
    cases split_append heq with
    | inl hold =>
      obtain ⟨after', hlog⟩ := hold
      exact h.permitted before after' id hlog task htask hid
    | inr hnew =>
      obtain ⟨before', rfl, hmem⟩ := hnew
      exact ((hb.started id hmem).2 task htask hid).mono (fun f hf => List.mem_append_left _ hf)
  deps task htask hnew d hd := by
    have hdone : status log d ∈ doneStatuses := by
      by_cases hmoves : moves b task.taskId = []
      · rw [status_still hmoves] at hnew
        exact h.deps task htask hnew d hd
      · cases goes_begun (hb.goes _ hmoves) hnew with
        | inl hold => exact h.deps task htask hold d hd
        | inr hready => exact hb.ready task htask hmoves hready.1 hready.2 d hd
    by_cases hmoves : moves b d = []
    · rwa [status_still hmoves]
    · -- Nor does one that is done.
      have hgoes := hb.goes d hmoves
      revert hgoes hdone
      cases status log d <;> simp [doneStatuses, Kernel.goes]

/-- A batch that moves no task. -/
theorem Extends.still (hmoves : ∀ id, moves b id = [])
    (hplanned : .planCreated ∈ log ++ b ∨ ∀ f ∈ b, f.task = none)
    (hknown : ∀ f ∈ b, ∀ id, f.task = some id → id ∈ S.graph.ids)
    (hstarted : ∀ id, .invocationStarted id ∈ b → status (log ++ b) id ∉ unstarted ∧
      ∀ task ∈ S.plan.tasks, task.taskId = id → Permitted S task log)
    (hdecided : ∀ r, .approvalDecided r ∉ b) : Extends S log b where
  planned := hplanned
  known := hknown
  follows id hne := absurd (hmoves id) hne
  goes id hne := absurd (hmoves id) hne
  ready task _ hne := absurd (hmoves _) hne
  started := hstarted
  decided r hr := absurd hr (hdecided r)

/-- A batch about no task. -/
theorem Extends.aside (hnone : ∀ f ∈ b, f.task = none) : Extends S log b :=
  .still (fun _ => moves_other (fun f hf heq => nomatch (hnone f hf).symm.trans heq)) (.inr hnone)
    (fun f hf _ hid => nomatch (hnone f hf).symm.trans hid) (fun _ hmem => nomatch hnone _ hmem)
    (fun _ hmem => nomatch hnone _ hmem)

/-! ## Memory -/

/-- The facts `seen` are of the stream, and of each task's transitions the
first ones. -/
structure Mirrors (seen log : List Fact) : Prop where
  sublist : seen.Sublist log
  first : ∀ id, moves seen id <+: moves log id

/-- Memory is the fold of the acknowledged part of the stream. -/
def Mirrored (S : Setup) (log : List Fact) (m : Memory) : Prop :=
  ∃ seen, Mirrors seen log ∧ m = recovered S seen

/-- A session in memory: its plan was written, and the stream and memory are as
they should be. -/
structure Coherent (S : Setup) (log : List Fact) (m : Memory) : Prop where
  planned : .planCreated ∈ log
  stream : LogInv S log
  memory : Mirrored S log m

/-- The task stands in memory as it does in the stream. -/
def Current (log : List Fact) (m : Memory) (id : String) : Prop :=
  graphStanding m.graph id = standing (moves log id)

theorem recovered_standing (S : Setup) (seen : List Fact) (id : String) :
    graphStanding (recovered S seen).graph id = standing (moves seen id) := by
  rw [recovered, Memory.standing_recordAll]
  exact congrArg ((moves seen id).foldl Standing.after) (S.fresh_standing id)

theorem Coherent.tasks (h : Coherent S log m) : m.graph.tasks = S.plan.tasks := by
  obtain ⟨seen, -, rfl⟩ := h.memory
  rw [recovered, Memory.recordAll_tasks]
  exact S.tasks_eq

theorem Coherent.mem_ids (h : Coherent S log m) (htask : task ∈ S.plan.tasks) :
    task.taskId ∈ m.graph.ids := by
  rw [TaskGraph.ids, h.tasks]
  exact List.mem_map_of_mem htask

/-- The store took a key, so no fact before has it. -/
theorem KeysDistinct.fresh (h : KeysDistinct S (log ++ b)) {f g : Fact} (hf : f ∈ log) (hg : g ∈ b)
    (hkey : f.key S.plan.planId = g.key S.plan.planId) : g.key S.plan.planId = none := by
  by_contra hne
  obtain ⟨key, hgkey⟩ := Option.ne_none_iff_exists'.mp hne
  unfold KeysDistinct at h
  rw [List.filterMap_append, List.nodup_append] at h
  exact h.2.2 key (List.mem_filterMap.mpr ⟨f, hf, hkey.trans hgkey⟩) key
    (List.mem_filterMap.mpr ⟨g, hg, hgkey⟩) rfl

/-- **Whose next revision the store takes**, that task's transitions were all
acknowledged. -/
theorem Mirrors.whole {seen : List Fact} (h : Mirrors seen log) (hlog : LogInv S log)
    (hkeys : KeysDistinct S (log ++ b)) (hp : p ∈ moves b id)
    (hrevision : p.revision = (graphStanding (recovered S seen).graph id).revision + 1) :
    moves seen id = moves log id := by
  apply (h.first id).eq_of_length
  by_contra hne
  obtain ⟨rest, hrest⟩ := h.first id
  have hfollows := hlog.follows id
  have hseen : Follows .start (moves seen id) := by
    rw [← hrest, follows_append] at hfollows
    exact hfollows.1
  rw [recovered_standing, show (standing (moves seen id)).revision = _ from hseen.revisions.2] at hrevision
  -- The stream has a transition of that revision already.
  have hmem : p.revision ∈ (moves log id).map (fun q => q.revision) := by
    rw [hfollows.revisions.1, List.mem_range'_1, hrevision]
    have hle := (h.first id).length_le
    constructor <;> (show _ ; simp only [Standing.start]; omega)
  obtain ⟨q, hq, hqp⟩ := List.mem_map.mp hmem
  obtain ⟨hqid, hqlog⟩ := mem_moves.mp hq
  obtain ⟨hpid, hpb⟩ := mem_moves.mp hp
  have hkey := hkeys.fresh hqlog hpb (by simp only [Fact.key, hqid, hpid, hqp])
  cases hkey

/-- So the task stands in memory as it does in the stream. -/
theorem Coherent.current (h : Coherent S log m) (hkeys : KeysDistinct S (log ++ b)) (hp : p ∈ moves b id)
    (hrevision : p.revision = (graphStanding m.graph id).revision + 1) : Current log m id := by
  obtain ⟨seen, hmirrors, rfl⟩ := h.memory
  rw [Current, recovered_standing, hmirrors.whole h.stream hkeys hp hrevision]

/-- A task that is done in memory is done. -/
theorem Coherent.done (h : Coherent S log m) (hdone : m.graph.statuses id ∈ doneStatuses) :
    status log id ∈ doneStatuses := by
  have hkeeps : ∀ (ms : List TaskTransition) (s : Standing), Follows s ms → s.status ∈ doneStatuses →
      (ms.foldl Standing.after s).status ∈ doneStatuses := by
    intro ms
    induction ms with
    | nil => exact fun _ _ h => h
    | cons p rest ih =>
      intro s hfollows hs
      refine ih _ hfollows.2 ?_
      rw [hfollows.1.after]
      exact done_of_allowed hs hfollows.1.current
  obtain ⟨seen, hmirrors, rfl⟩ := h.memory
  obtain ⟨rest, hrest⟩ := hmirrors.first id
  have hfollows := h.stream.follows id
  rw [← hrest, follows_append] at hfollows
  rw [status, ← hrest, standing, List.foldl_append]
  refine hkeeps rest _ hfollows.2 ?_
  rw [show List.foldl Standing.after .start (moves seen id) = _ from (recovered_standing S seen id).symm]
  exact hdone

/-! ## Publishing -/

/-- Transitions that are legal one after the other. -/
def Plannable : TaskGraph → List TaskTransition → Prop
  | _, [] => True
  | g, p :: rest => Legal g p ∧ Plannable (g.apply p) rest

theorem legal_next {g : TaskGraph} (h : Legal g p) : Next (graphStanding g p.taskId) p := by
  have hcurrent := h.current
  rw [h.previous] at hcurrent
  exact ⟨h.previous, hcurrent, h.revision⟩

theorem legal_preview {g : TaskGraph} (h : Legal g p) :
    g.previewTransition p.taskId p.current p.reason = .ok p := by
  have hcurrent := h.current
  have hmoves := (legal_next h).moves
  rw [h.previous] at hcurrent hmoves
  rw [TaskGraph.previewTransition, if_neg (not_not.mpr h.task), if_neg hmoves,
    if_neg (not_not.mpr hcurrent), ← h.previous, ← h.revision]

/-- **Transitions that are legal** are published as planned. -/
theorem publish_ok {message : String} {g : TaskGraph} (h : Plannable g ps) :
    publish message ps g = .ok (ps.foldl TaskGraph.apply g) := by
  induction ps generalizing g with
  | nil => rfl
  | cons p rest ih =>
    obtain ⟨hlegal, hrest⟩ := h
    simp only [publish, TaskGraph.transition, legal_preview hlegal, bind, Except.bind, ne_eq,
      not_true_eq_false, if_false, List.foldl_cons]
    exact ih hrest

theorem recordAll_transitions (m : Memory) (ps : List TaskTransition) :
    m.recordAll (ps.map Fact.statusChanged) = { m with graph := ps.foldl TaskGraph.apply m.graph } := by
  induction ps generalizing m with
  | nil => rfl
  | cons p rest ih => exact ih (m.record (.statusChanged p))

theorem Plannable.follows {g : TaskGraph} (h : Plannable g ps) (id : String) :
    Follows (graphStanding g id) (moves (ps.map Fact.statusChanged) id) := by
  induction ps generalizing g with
  | nil => trivial
  | cons p rest ih =>
    obtain ⟨hlegal, hrest⟩ := h
    have hlater := ih hrest
    rw [graphStanding_apply] at hlater
    rw [List.map_cons, moves, List.filterMap_cons, Fact.move, ← moves]
    by_cases hid : p.taskId = id
    · rw [if_pos hid] at hlater ⊢
      subst hid
      exact ⟨legal_next hlegal, hlater⟩
    · rw [if_neg hid] at hlater ⊢
      exact hlater

theorem Plannable.mem_ids {g : TaskGraph} (h : Plannable g ps) : ∀ p ∈ ps, p.taskId ∈ g.ids := by
  induction ps generalizing g with
  | nil => exact fun p hp => nomatch hp
  | cons p rest ih =>
    have hrest := ih h.2
    rw [apply_ids] at hrest
    exact List.forall_mem_cons.mpr ⟨h.1.task, hrest⟩

/-! ## Commits -/

/-- The task goes where a commit may take it, and gets past its dependencies
when they are done. -/
def Goes (m m' : Memory) (id : String) : Prop :=
  m'.graph.statuses id ∈ goes (m.graph.statuses id) ∧
    (m.graph.statuses id = .pending → m'.graph.statuses id = .ready →
      ∀ t ∈ m.graph.tasks, t.taskId = id → ∀ d ∈ t.dependsOn, m.graph.statuses d ∈ doneStatuses)

theorem Goes.of (hs : m.graph.statuses id = s)
    (hs' : m'.graph.statuses id = s') (hgoes : s' ∈ goes s) (hne : s ≠ .pending) : Goes m m' id := by
  refine ⟨?_, fun hpending => absurd (hs.symm.trans hpending) hne⟩
  rw [hs, hs']
  exact hgoes

/-- A commit the kernel may make. -/
structure Sound (S : Setup) (log : List Fact) (m : Memory) (c : Commit) : Prop where
  published : c.published = .ok (m.recordAll c.batch)
  revises : ∀ id, moves c.batch id ≠ [] →
    ∃ p ∈ moves c.batch id, p.revision = (graphStanding m.graph id).revision + 1
  extends' : KeysDistinct S (log ++ c.batch) → Extends S log c.batch

/-- **A planned batch is sound** if its transitions may be applied and go where
a commit goes. -/
theorem Sound.planned (h : Coherent S log m) (hplannable : Plannable m.graph ps)
    (hpublished : c.published = .ok (m.recordAll c.batch))
    (hmoves : ∀ id, moves c.batch id = moves (ps.map Fact.statusChanged) id)
    (hgoes : ∀ p ∈ ps, Goes m (m.recordAll c.batch) p.taskId)
    (habout : ∀ f ∈ c.batch, ∀ id, f.task = some id → ∃ p ∈ ps, p.taskId = id)
    (hstarts : ∀ id, .invocationStarted id ∉ c.batch)
    (hdecided : ∀ r, .approvalDecided r ∈ c.batch → r.decision ≠ some .approve →
      (m.recordAll c.batch).graph.statuses r.taskId ∈ refused) : Sound S log m c := by
  have hmem : ∀ id, moves c.batch id ≠ [] → ∃ p ∈ ps, p.taskId = id := by
    intro id hne
    obtain ⟨p, hp⟩ := List.exists_mem_of_ne_nil _ hne
    rw [hmoves] at hp
    obtain ⟨hid, hp⟩ := mem_moves.mp hp
    obtain ⟨q, hq, heq⟩ := List.mem_map.mp hp
    exact ⟨p, Fact.statusChanged.inj heq ▸ hq, hid⟩
  have hfollows : ∀ id, Follows (graphStanding m.graph id) (moves c.batch id) := fun id =>
    hmoves id ▸ hplannable.follows id
  have hrevises : ∀ id, moves c.batch id ≠ [] →
      ∃ p ∈ moves c.batch id, p.revision = (graphStanding m.graph id).revision + 1 := by
    intro id hne
    have hid := hfollows id
    obtain ⟨p, rest, hcons⟩ := List.exists_cons_of_ne_nil hne
    rw [hcons] at hid ⊢
    exact ⟨p, List.mem_cons_self, hid.1.revision⟩
  refine ⟨hpublished, hrevises, fun hkeys => ?_⟩
  -- A task that moves stands in memory as in the stream, before and after.
  have hcurrent : ∀ id, moves c.batch id ≠ [] → Current log m id ∧
      status log id = m.graph.statuses id ∧
        status (log ++ c.batch) id = (m.recordAll c.batch).graph.statuses id := by
    intro id hne
    obtain ⟨p, hp, hrevision⟩ := hrevises id hne
    have hcur := h.current hkeys hp hrevision
    refine ⟨hcur, congrArg Standing.status hcur.symm, ?_⟩
    have hafter := Memory.standing_recordAll m c.batch id
    rw [hcur, standing, ← List.foldl_append, ← moves_append] at hafter
    exact congrArg Standing.status hafter.symm
  have hids : ∀ f ∈ c.batch, ∀ id, f.task = some id → moves c.batch id ≠ [] := by
    intro f hf id hid
    obtain ⟨p, hp, rfl⟩ := habout f hf id hid
    rw [hmoves]
    exact List.ne_nil_of_mem (mem_moves.mpr ⟨rfl, List.mem_map_of_mem hp⟩)
  exact
    { planned := .inl (List.mem_append_left _ h.planned)
      known := fun f hf id hid => by
        obtain ⟨p, hp, rfl⟩ := habout f hf id hid
        rw [TaskGraph.ids, S.tasks_eq, ← h.tasks]
        exact hplannable.mem_ids p hp
      follows := fun id hne => by
        have hcur := (hcurrent id hne).1
        rw [Current] at hcur
        exact hcur ▸ hfollows id
      goes := fun id hne => by
        obtain ⟨p, hp, rfl⟩ := hmem id hne
        rw [(hcurrent _ hne).2.1, (hcurrent _ hne).2.2]
        exact (hgoes p hp).1
      ready := fun task htask hne hpending hnew d hd => by
        obtain ⟨p, hp, hid⟩ := hmem _ hne
        rw [(hcurrent _ hne).2.1, ← hid] at hpending
        rw [(hcurrent _ hne).2.2, ← hid] at hnew
        exact h.done ((hgoes p hp).2 hpending hnew task (h.tasks ▸ htask) hid.symm d hd)
      started := fun id hid => absurd hid (hstarts id)
      decided := fun r hr hne => by
        rw [(hcurrent _ (hids _ hr _ rfl)).2.2]
        exact hdecided r hr hne }

/-- A batch of one fact that moves nothing in memory. -/
theorem Sound.fact {f : Fact} (hrecord : m.record f = m) (hmove : ∀ id, f.move id = none)
    (hb : Extends S log [f]) : Sound S log m (factCommit m f) := by
  refine ⟨congrArg Except.ok hrecord.symm, fun id hne => absurd ?_ hne, fun _ => hb⟩
  exact List.filterMap_eq_nil_iff.mpr (fun g hg => List.mem_singleton.mp hg ▸ hmove id)

/-- What was stored of a sound commit is published. -/
theorem Sound.stored (hsound : Sound S log m c) (h : c.published = .ok m') :
    m' = m.recordAll c.batch := by
  rw [hsound.published] at h
  exact (Except.ok.inj h).symm

theorem recovered_append : recovered S (log ++ b) = (recovered S log).recordAll b :=
  Memory.recordAll_append _ _ _

/-- **An append of a sound commit** keeps the session coherent. Unless its
acknowledgement is lost, it leaves memory as recovery would. -/
theorem Sound.appended (hsound : Sound S log m c) (h : Coherent S log m)
    (happend : Appended S c log m o log' m') :
    Coherent S log' m' ∧ (o ≠ .lost → m = recovered S log → m' = recovered S log') := by
  obtain ⟨hplan, hlog, seen, hmirrors, hseen⟩ := h
  cases happend with
  | refused => exact ⟨⟨hplan, hlog, seen, hmirrors, hseen⟩, fun _ hm => hm⟩
  | lost hkeys =>
    refine ⟨⟨List.mem_append_left _ hplan, hlog.append hkeys (hsound.extends' hkeys), seen,
      ⟨?_, fun id => ?_⟩, hseen⟩, fun hlost => absurd rfl hlost⟩
    · exact hmirrors.sublist.trans (List.sublist_append_left log _)
    · rw [moves_append]
      exact (hmirrors.first id).trans (List.prefix_append _ _)
  | stored hkeys hpublished =>
    obtain rfl := hsound.stored hpublished
    refine ⟨⟨List.mem_append_left _ hplan, hlog.append hkeys (hsound.extends' hkeys), seen ++ c.batch,
      ⟨hmirrors.sublist.append_right _, fun id => ?_⟩, ?_⟩, fun _ hm => ?_⟩
    · rw [moves_append, moves_append]
      by_cases hmoves : moves c.batch id = []
      · rw [hmoves, List.append_nil, List.append_nil]
        exact hmirrors.first id
      · obtain ⟨p, hp, hrevision⟩ := hsound.revises id hmoves
        exact hmirrors.whole hlog hkeys hp (hseen ▸ hrevision) ▸ List.prefix_rfl
    · rw [hseen, recovered_append]
    · rw [hm, recovered_append]

end QuantumEntanglement.Kernel
