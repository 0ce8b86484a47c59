import QuantumEntanglement.Kernel.SessionInvariant

/-
  What holds of every run of a session

  A run may crash, be interrupted, lose acknowledgements and be decided upon at
  every point the model has. None of it takes memory ahead of the stream,
  brings a task to its agent twice, or past a person who was to be asked.

  What is proved:
    1. `memory_behind` — memory is a part of the stream, and of each task's
       transitions the first ones, whose revisions count up.
    2. `restart_agrees` — unless an acknowledgement was lost, a restart finds
       what the kernel had.
    3. `planned_published` — what the kernel commits, it publishes.
    4. `invocation_permitted`, `refused_never_invoked` — the gate of approvals.
    5. `call_safe`, `calls_once` — the calls of agents.
    6. `returned_waits` — what `run` leaves behind when it returns.
-/

namespace QuantumEntanglement.Kernel

open Scheduler TransitionSystem
open Policy (ApprovalRequest ApprovalDecision)

variable {S : Setup} {log before after : List Fact} {m : Memory} {s₀ s s' : State} {l : Label}
  {ls : List Label} {id : String}

/-! ## A run -/

namespace RunSample

/-- One task, for which a person is asked. -/
def setup : Setup where
  plan :=
    { sessionId := "s", goal := "ship", initiatedBy := "owner", tasks := [Scheduler.Sample.first],
      planId := "p", correlationId := none, checked := by rfl }
  policy _ := ⟨.needsApproval, "asked"⟩
  graph := ⟨[Scheduler.Sample.first], fun _ => .pending, fun _ => none, fun _ => 0,
    validate_ok.mp (by decide)⟩
  made := by rfl

def request : ApprovalRequest where
  sessionId := "s"
  taskId := "a"
  intent := intentOf Scheduler.Sample.first.action
  reason := "asked"
  requestId := "r"
  createdAt := "t"

/-- The stream when the approval is asked for. -/
def asked : List Fact :=
  [.planCreated, .taskCreated "a", .statusChanged ⟨"a", .pending, .ready, none, 1⟩,
    .statusChanged ⟨"a", .ready, .running, none, 2⟩,
    .statusChanged ⟨"a", .running, .waitingApproval, some request.reason, 3⟩, .approvalRequested request]

/-- When it is decided. -/
def decided (decision : ApprovalDecision) : List Fact :=
  asked ++ [.approvalDecided { request with decision := some decision, decidedBy := some "u" },
    .statusChanged ⟨"a", .waitingApproval, decisionTarget decision, none, 4⟩]

/-- When it is approved, and the task's context compiled. -/
def prepared : List Fact :=
  decided .approve ++ [.statusChanged ⟨"a", .ready, .running, none, 5⟩, .contextCompiled "a" "d"]

/-- When the invocation is recorded. -/
def begun : List Fact := prepared ++ [.invocationStarted "a"]

def stored (log : List Fact) (control : Control) : State := ⟨log, some (recovered setup log), control⟩

/-- The coroutine of the task, in its phases. -/
def phases (walk : List Phase) : Control :=
  .batch ["a"] (walk.foldl (fun phase next => Function.update phase "a" next) (fun _ => .scheduled))

theorem keys {log : List Fact} (h : decide (log.filterMap (Fact.key "p")).Nodup = true) :
    KeysDistinct setup log := by
  unfold KeysDistinct
  exact of_decide_eq_true h

theorem starts : (sessionSystem setup).start ⟨[], none, .idle⟩ :=
  ⟨rfl, rfl, List.nodup_nil, fun _ hf => nomatch hf⟩

/-- The run as far as the request, and how it goes on. -/
def asking : List Label := [.append .stored, .append .stored, .select, .append .stored, .join, .append .stored]

def deciding : List Label := asking ++ [.returned, .append .stored]

def beginning : List Label :=
  deciding ++ [.enter, .append .stored, .select, .append .stored, .append .stored, .append .stored]

theorem works {phase : String → Phase} {c : Commit} {next failed : Phase}
    (hcommits : Commits setup m Scheduler.Sample.first (phase "a") c next failed)
    (htask : Scheduler.Sample.first ∈ m.graph.tasks) :
    Planned setup m (.batch ["a"] phase) c (fun o =>
      .batch ["a"] (Function.update phase "a" (if o = .stored then next else failed))) :=
  .slot List.mem_cons_self htask hcommits

theorem asking_run : Run (sessionSystem setup) ⟨[], none, .idle⟩ asking (stored asked .selecting) := by
  refine .next (Step.create (by simp) rfl (.stored (keys (by decide +kernel)) rfl)) ?_
  refine .next (Step.append (.refresh rfl) (.stored (keys (by decide +kernel)) rfl)) (.next (Step.select nofun) ?_)
  refine .next (Step.append (works (.gate "r" "t" rfl rfl) List.mem_cons_self) (.stored (keys (by decide +kernel)) rfl)) ?_
  refine .next (Step.join (by decide)) ?_
  exact .single (Step.append (.refresh rfl) (.stored (keys (by decide +kernel)) rfl))

theorem returns : Step setup (stored asked .selecting) .returned (stored asked .idle) := .returned rfl

theorem deciding_run (decision : ApprovalDecision) :
    Run (sessionSystem setup) ⟨[], none, .idle⟩ deciding (stored (decided decision) .idle) := by
  refine asking_run.append (.next returns (.single ?_))
  have hcommit : decideCommit (recovered setup asked) request decision "u" none = .ok _ := rfl
  cases decision <;>
    exact .append (.decide List.mem_cons_self rfl hcommit) (.stored (keys (by decide +kernel)) rfl)

theorem beginning_run : Run (sessionSystem setup) ⟨[], none, .idle⟩ beginning
    (stored begun (phases [.running, .compiled, .started])) := by
  have hquiet : (recovered setup (decided .approve)).quiet := by
    intro t ht
    obtain rfl := List.mem_singleton.mp ht
    decide
  refine (deciding_run .approve).append (.next (Step.resume hquiet) ?_)
  refine .next (Step.append (.refresh rfl) (.stored (keys (by decide +kernel)) rfl)) (.next (Step.select nofun) ?_)
  refine .next (Step.append (works (.allow rfl rfl) List.mem_cons_self) (.stored (keys (by decide +kernel)) rfl)) ?_
  refine .next (Step.append (works (.compile "d") List.mem_cons_self) (.stored (keys (by decide +kernel)) rfl)) ?_
  refine .next (Step.append (works .start List.mem_cons_self) (.stored (keys (by decide +kernel)) rfl)) ?_
  exact .done _

theorem calls : Step setup (stored begun (phases [.running, .compiled, .started])) (.call "a")
    (stored begun (phases [.running, .compiled, .started, .calling])) := .call List.mem_cons_self rfl

theorem reached (h : Run (sessionSystem setup) ⟨[], none, .idle⟩ ls s) :
    Reachable (sessionSystem setup) s := ⟨_, ls, starts, h⟩

end RunSample

/-! ## Memory and the stream -/

/-- **Memory is never ahead** of the stream: it is what recovery makes of a part
of it, and what it holds of a task is how the task stood after some of the
transitions in the stream. Those follow one another, from revision 1. -/
theorem memory_behind (h : Reachable (sessionSystem S) s) :
    (∀ id, Follows .start (moves s.log id) ∧
      (moves s.log id).map (fun p => p.revision) = List.range' 1 (moves s.log id).length) ∧
    ∀ m, s.memory = some m → ∃ seen, seen.Sublist s.log ∧ m = recovered S seen ∧
      ∀ id, moves seen id <+: moves s.log id ∧ graphStanding m.graph id = standing (moves seen id) := by
  have hinv := inv_reachable h
  refine ⟨fun id => ⟨hinv.log.follows id, (hinv.log.follows id).revisions.1⟩, fun m hm => ?_⟩
  obtain ⟨seen, hmirrors, rfl⟩ := (hinv.memory m hm).memory
  exact ⟨seen, hmirrors.sublist, rfl, fun id => ⟨hmirrors.first id, recovered_standing S seen id⟩⟩

open RunSample in
theorem memory_behind_begun : (moves begun "a").map (fun p => p.revision) = [1, 2, 3, 4, 5] :=
  ((memory_behind (reached beginning_run)).1 "a").2

/-- **What the kernel commits, it publishes**: once a planned batch is stored, no
comparison of what was stored with what memory makes of it fails. -/
theorem planned_published {control : Control} {c : Commit} {after : Outcome → Control}
    (h : Reachable (sessionSystem S) ⟨log, some m, control⟩) (hplanned : Planned S m control c after) :
    c.published = .ok (m.recordAll c.batch) := by
  have hinv := inv_reachable h
  exact (hplanned.kept (hinv.memory m rfl) hinv.control).1.published

open RunSample in
theorem planned_published_asked : ∃ c after, Planned setup (recovered setup asked) .idle c after ∧
    c.published = .ok ((recovered setup asked).recordAll c.batch) := by
  have hcommit : decideCommit (recovered setup asked) request .approve "u" none = .ok _ := rfl
  have hplanned : Planned setup (recovered setup asked) .idle _ _ := .decide List.mem_cons_self rfl hcommit
  exact ⟨_, _, hplanned, planned_published ((reached asking_run).step returns) hplanned⟩

theorem step_agrees (hinv : Inv S s) (hstep : Step S s l s')
    (hl : l ≠ .append .lost) (h : ∀ m, s.memory = some m → m = recovered S s.log) :
    ∀ m, s'.memory = some m → m = recovered S s'.log := by
  cases hstep with
  | @other s eventType key hkeys =>
    intro m hm
    show m = recovered S (s.log ++ [.other eventType key])
    rw [recovered_append, ← h m hm]
    rfl
  | crash => exact fun m hm => nomatch hm
  | recover => exact fun m hm => (Option.some.inj hm).symm
  | @create log log' c m' o hplan hcommit happend =>
    intro m hm
    by_cases hstored : o = .stored
    · rw [if_pos hstored] at hm ⊢
      subst hstored
      obtain rfl := Option.some.inj hm
      obtain ⟨planned, -, hbatch, hpublish⟩ := initialize_refresh hcommit
      cases happend with
      | stored hkeys hpublished =>
        rw [hpublish] at hpublished
        have hfresh : recovered S log = Memory.fresh S.graph := recordAll_aside (hinv.log.planned hplan)
        rw [← Except.ok.inj hpublished, recovered_append, hfresh, hbatch, Memory.recordAll_append,
          recordAll_aside planFacts_task]
    · rw [if_neg hstored] at hm
      cases hm
  | @append log log' m₁ m' control c after o hplanned happend =>
    intro m hm
    obtain rfl := Option.some.inj hm
    have hcoherent := hinv.memory m₁ rfl
    have hsound := (hplanned.kept hcoherent hinv.control).1
    exact (hsound.appended hcoherent happend).2 (fun heq => hl (heq ▸ rfl)) (h m₁ rfl)
  | _ => exact h

/-- **The gate**: the task of an invocation is one its policy allows, or needs an
approval that was decided before. -/
theorem invocation_permitted (h : Reachable (sessionSystem S) s)
    (hlog : s.log = before ++ .invocationStarted id :: after) :
    ∃ task ∈ S.plan.tasks, task.taskId = id ∧ Permitted S task before := by
  have hinv := (inv_reachable h).log
  have hknown := hinv.known (.invocationStarted id)
    (hlog ▸ List.mem_append_right _ List.mem_cons_self) id rfl
  rw [TaskGraph.ids, S.tasks_eq] at hknown
  obtain ⟨task, htask, rfl⟩ := List.mem_map.mp hknown
  exact ⟨task, htask, rfl, hinv.permitted before after _ hlog task htask rfl⟩

open RunSample in
theorem invocation_permitted_begun : ∃ task ∈ setup.plan.tasks, task.taskId = "a" ∧
    Permitted setup task prepared :=
  invocation_permitted (reached beginning_run) (show begun = prepared ++ .invocationStarted "a" :: [] from rfl)

/-- **A refused task** is never handed to its agent, before or after. -/
theorem refused_never_invoked (h : Reachable (sessionSystem S) s) {r : ApprovalRequest}
    (hr : .approvalDecided r ∈ s.log) (hne : r.decision ≠ some .approve) :
    .invocationStarted r.taskId ∉ s.log := by
  have hinv := (inv_reachable h).log
  have hrefused := hinv.refused r hr hne
  apply hinv.unstarted
  revert hrefused
  cases status s.log r.taskId <;> decide

open RunSample in
theorem refused_never_invoked_rejected : .invocationStarted "a" ∉ decided .reject :=
  refused_never_invoked (r := { request with decision := some .reject, decidedBy := some "u" })
    (reached (deciding_run .reject)) (List.mem_append_right _ List.mem_cons_self) (by decide)

/-! ## The calls of agents -/

/-- A coroutine is about to call its task's agent. -/
def Starting (s : State) (id : String) : Prop :=
  ∃ ids phase, s.control = .batch ids phase ∧ id ∈ ids ∧ phase id = .started

theorem step_log (h : Step S s l s') : s.log ⊆ s'.log := by
  have happended : ∀ {c : Commit} {o : Outcome} {m m' : Memory} {log log' : List Fact},
      Appended S c log m o log' m' → log ⊆ log' := by
    intro c o m m' log log' happend
    cases happend with
    | refused => exact List.Subset.refl _
    | _ => exact List.subset_append_left _ _
  cases h with
  | other => exact List.subset_append_left _ _
  | create hplan hcommit happend =>
    split
    · exact happended happend
    · exact happended happend
  | append hplanned happend => exact happended happend
  | _ => exact List.Subset.refl _

theorem call_starting (h : Step S s (.call id) s') : Starting s id := by
  cases h with
  | call hid hphase => exact ⟨_, _, rfl, hid, hphase⟩

theorem Internal.unstarted {phase phase' : Phase} (h : Internal phase phase') : phase' ≠ .started := by
  cases h <;> decide

theorem started_update {phases : String → Phase} {id' : String} {phase : Phase}
    (h : Function.update phases id' phase id = .started) :
    id = id' ∧ phase = .started ∨ id ≠ id' ∧ phases id = .started := by
  by_cases hsame : id = id'
  · subst hsame
    rw [Function.update_self] at h
    exact .inl ⟨rfl, h⟩
  · rw [Function.update_of_ne hsame] at h
    exact .inr ⟨hsame, h⟩

/-- Only the record of an invocation brings a coroutine there. -/
theorem Commits.started {task : TaskSpec} {phase next failed : Phase} {c : Commit}
    (h : Commits S m task phase c next failed) :
    failed ≠ .started ∧ (next = .started → c.batch = [.invocationStarted task.taskId]) := by
  cases h <;> simp [factCommit]

/-- A coroutine about to call was there before and did not call, or has just
recorded an invocation nobody recorded before. -/
theorem step_starting (h : Step S s l s') (hs : Starting s' id) :
    Starting s id ∧ l ≠ .call id ∨ .invocationStarted id ∈ s'.log ∧ .invocationStarted id ∉ s.log := by
  obtain ⟨ids, phase, hcontrol, hid, hphase⟩ := hs
  cases h with
  | other => exact .inl ⟨⟨ids, phase, hcontrol, hid, hphase⟩, by simp⟩
  | select =>
    obtain ⟨rfl, rfl⟩ := Control.batch.inj hcontrol
    cases hphase
  | @internal log m ids phase' id' moved hid' hmoved =>
    obtain ⟨rfl, rfl⟩ := Control.batch.inj hcontrol
    obtain ⟨-, hstarted⟩ | ⟨-, hold⟩ := started_update hphase
    · exact absurd hstarted hmoved.unstarted
    · exact .inl ⟨⟨_, _, rfl, hid, hold⟩, by simp⟩
  | @call log m ids phase' id' hid' hstarted =>
    obtain ⟨rfl, rfl⟩ := Control.batch.inj hcontrol
    obtain ⟨-, hcalling⟩ | ⟨hother, hold⟩ := started_update hphase
    · cases hcalling
    · exact .inl ⟨⟨_, _, rfl, hid, hold⟩, fun heq => hother (Label.call.inj heq).symm⟩
  | append hplanned happend =>
    cases hplanned with
    | decide => cases hcontrol
    | refresh =>
      simp only at hcontrol
      split at hcontrol <;> cases hcontrol
    | @slot ids phase' task c next failed hid' htask hcommits =>
      obtain ⟨rfl, rfl⟩ := Control.batch.inj hcontrol
      obtain ⟨rfl, hstarted⟩ | ⟨-, hold⟩ := started_update hphase
      · obtain ⟨hfailed, hnext⟩ := hcommits.started
        cases happend with
        | stored hkeys _ =>
          rw [hnext hstarted] at hkeys ⊢
          refine .inr ⟨List.mem_append_right _ List.mem_cons_self, fun hold => ?_⟩
          cases hkeys.fresh hold List.mem_cons_self rfl
        | _ => exact absurd hstarted hfailed
      · exact .inl ⟨⟨_, _, rfl, hid, hold⟩, by simp⟩
  | create => split at hcontrol <;> cases hcontrol
  | _ => cases hcontrol

/-- The calls of a run so far. -/
structure Calls (ls : List Label) (s : State) : Prop where
  once : ∀ id, ls.count (.call id) ≤ 1
  recorded : ∀ id, .call id ∈ ls → .invocationStarted id ∈ s.log
  starting : ∀ id, Starting s id → .invocationStarted id ∈ s.log ∧ .call id ∉ ls

theorem calls_step (h : Calls ls s) (hstep : Step S s l s') : Calls (ls ++ [l]) s' := by
  refine ⟨fun id => ?_, fun id hcall => ?_, fun id hs => ?_⟩
  · rw [List.count_append, List.count_singleton]
    by_cases hcall : l = .call id
    · subst hcall
      have hnone := (h.starting id (call_starting hstep)).2
      simp [List.count_eq_zero_of_not_mem hnone]
    · simpa [hcall] using h.once id
  · cases List.mem_append.mp hcall with
    | inl hold => exact step_log hstep (h.recorded id hold)
    | inr hnew =>
      obtain rfl := List.mem_singleton.mp hnew
      exact step_log hstep (h.starting id (call_starting hstep)).1
  · obtain ⟨hbefore, hl⟩ | ⟨hnew, hnone⟩ := step_starting hstep hs
    · obtain ⟨hrecorded, hcalls⟩ := h.starting id hbefore
      exact ⟨step_log hstep hrecorded, by simp [hcalls, Ne.symm hl]⟩
    · refine ⟨hnew, fun hcall => hnone ?_⟩
      cases List.mem_append.mp hcall with
      | inl hold => exact h.recorded id hold
      | inr hlast =>
        obtain rfl := List.mem_singleton.mp hlast
        exact (h.starting id (call_starting hstep)).1

theorem calls_run (hstart : (sessionSystem S).start s₀)
    (hrun : Run (sessionSystem S) s₀ ls s) : Calls ls s := by
  refine hrun.traced (I := Calls) (fun _ _ _ _ => calls_step) ⟨by simp, by simp, fun id hs => ?_⟩
  obtain ⟨ids, phase, hcontrol, -⟩ := hs
  rw [hstart.2.1] at hcontrol
  cases hcontrol

/-- **An agent is called once**: over any run, through crashes, restarts and lost
acknowledgements, no task is handed to its agent twice. -/
theorem calls_once (hstart : (sessionSystem S).start s₀)
    (hrun : Run (sessionSystem S) s₀ ls s) (id : String) : ls.count (.call id) ≤ 1 :=
  (calls_run hstart hrun).once id

open RunSample in
theorem calls_once_begun : List.count (Label.call "a") (beginning ++ [.call "a"]) ≤ 1 :=
  calls_once starts (beginning_run.append (.single calls)) "a"

/-- The statuses of a task that waits for a person, or failed. -/
def stuckStatuses : List TaskStatus := [.waitingInput, .waitingApproval, .failed, .blocked, .canceled]

/-- **When `run` returns**, no task is ready or running, and every pending one
depends, however indirectly, on one that waits for a person or failed. -/
theorem returned_waits (h : Reachable (sessionSystem S) s)
    (hreturned : Step S s .returned s') :
    ∃ m, s'.memory = some m ∧ ∀ task ∈ S.plan.tasks,
      m.graph.statuses task.taskId ∉ [TaskStatus.ready, .running] ∧
      (m.graph.statuses task.taskId = .pending → ∃ d, m.graph.statuses d ∈ stuckStatuses ∧
        Relation.TransGen (DependsOn S.plan.tasks) d task.taskId) := by
  have hinv := inv_reachable h
  cases hreturned with
  | @returned log m hready =>
    obtain ⟨hquiet, hwaits⟩ : m.quiet ∧ m.waits := hinv.control
    have htasks := (hinv.memory m rfl).tasks
    have hnot : ∀ t ∈ m.graph.tasks, m.graph.statuses t.taskId ∉ [TaskStatus.ready, .running] := by
      intro t ht hmem
      rw [List.mem_cons, List.mem_singleton] at hmem
      obtain hstatus | hstatus := hmem
      · exact absurd (ready_iff.mpr ⟨ht, hstatus⟩) (hready ▸ List.not_mem_nil)
      · exact hquiet t ht hstatus
    rw [← htasks]
    refine ⟨m, rfl, fun t ht => ⟨hnot t ht, fun hpending => ?_⟩⟩
    -- What a task depends on comes before it, and there are finitely many.
    have : IsStrictOrder String (Relation.TransGen (DependsOn m.graph.tasks)) :=
      { irrefl := m.graph.valid.acyclic, trans := fun _ _ _ => Relation.TransGen.trans }
    have hfounded := (List.finite_toSet (m.graph.tasks.map (fun t => t.taskId))).wellFoundedOn
      (r := Relation.TransGen (DependsOn m.graph.tasks))
    refine hfounded.induction (P := fun id => m.graph.statuses id = .pending → ∃ d,
      m.graph.statuses d ∈ stuckStatuses ∧ Relation.TransGen (DependsOn m.graph.tasks) d id)
      (List.mem_map_of_mem ht) (fun id hid ih hpending => ?_) hpending
    obtain ⟨u, hu, rfl⟩ := List.mem_map.mp hid
    obtain ⟨d, hd, hundone⟩ := hwaits u hu hpending
    have hdepends : Relation.TransGen (DependsOn m.graph.tasks) d u.taskId := .single ⟨u, hu, rfl, hd⟩
    have hmem := m.graph.valid.known u hu d hd
    by_cases hd' : m.graph.statuses d = .pending
    · obtain ⟨e, he, hed⟩ := ih d hmem hdepends hd'
      exact ⟨e, he, hed.trans hdepends⟩
    · obtain ⟨v, hv, rfl⟩ := List.mem_map.mp hmem
      have hv' := hnot v hv
      refine ⟨v.taskId, ?_, hdepends⟩
      revert hundone hd' hv'
      cases m.graph.statuses v.taskId <;> decide

open RunSample in
theorem returned_waits_asked : ∃ m, (stored asked .idle).memory = some m ∧ ∀ task ∈ setup.plan.tasks,
    m.graph.statuses task.taskId ∉ [TaskStatus.ready, .running] ∧
    (m.graph.statuses task.taskId = .pending → ∃ d, m.graph.statuses d ∈ stuckStatuses ∧
      Relation.TransGen (DependsOn setup.plan.tasks) d task.taskId) :=
  returned_waits (reached asking_run) returns

end QuantumEntanglement.Kernel
