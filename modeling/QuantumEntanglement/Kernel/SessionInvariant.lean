import QuantumEntanglement.Kernel.SessionLog

/-
  The session's invariant — every commit is sound, in every reachable state

  `_run_task`, `decide` and the refresh at the head of a round each plan a
  batch from memory. What a coroutine relies on at each of its phases is
  `SlotInv`; the other coroutines of its round and everybody else's events
  leave that alone, and its own commit brings it to its next phase.

  What is proved:
    1. `slot_sound`, `decide_sound`, `refresh_sound`, `initialize_sound` — the
       kernel's commits are sound.
    2. `refresh_waits` — after a refresh a pending task has a dependency that
       is not done.
    3. `inv_reachable` — the invariant of a session.
-/

namespace QuantumEntanglement.Kernel

open Scheduler TransitionSystem
open Policy (ApprovalRequest ApprovalDecision NeedsYouQueue)

variable {S : Setup} {log log' b : List Fact} {m m' : Memory} {c : Commit} {o : Outcome}
  {task : TaskSpec} {ps planned : List TaskTransition} {id : String} {s target : TaskStatus}
  {phase phase' next failed : Phase} {ids : List String} {phases : String → Phase}
  {reason : Option String} {control : Control} {after : Outcome → Control}

/-! ## Planned transitions -/

theorem transitions_published (h : Plannable m.graph ps) :
    (commitPlannedTransitions m ps).published = .ok (m.recordAll (ps.map Fact.statusChanged)) := by
  show (publish _ ps m.graph >>= _) = _
  rw [publish_ok h]
  exact congrArg Except.ok (recordAll_transitions m ps).symm

/-- **A planned batch about one task** is sound, and moves no other task. -/
theorem Sound.about (h : Coherent S log m) (hplannable : Plannable m.graph ps)
    (hpublished : c.published = .ok (m.recordAll c.batch))
    (hmoves : ∀ id, moves c.batch id = moves (ps.map Fact.statusChanged) id)
    (habout : ∀ f ∈ c.batch, f.task = some id ∧ f ≠ .invocationStarted id) (hne : ps ≠ [])
    (hs : m.graph.statuses id = s) (hstatus : (m.recordAll c.batch).graph.statuses id = target)
    (hgoes : target ∈ goes s ∧ s ≠ .pending)
    (hdecided : ∀ r, .approvalDecided r ∈ c.batch → r.decision ≠ some .approve → target ∈ refused) :
    Sound S log m c ∧ ∀ id', id' ≠ id → moves c.batch id' = [] := by
  have hps : ∀ p ∈ ps, p.taskId = id := by
    intro p hp
    have hmem := mem_moves.mpr ⟨rfl, List.mem_map_of_mem hp⟩
    rw [← hmoves] at hmem
    exact Option.some.inj (habout _ (mem_moves.mp hmem).2).1
  have hgo : Goes m (m.recordAll c.batch) id := .of hs hstatus hgoes.1 hgoes.2
  obtain ⟨p, hp⟩ := List.exists_mem_of_ne_nil ps hne
  refine ⟨.planned h hplannable hpublished hmoves (fun p hp => (hps p hp).symm ▸ hgo) ?_ ?_ ?_, ?_⟩
  · exact fun f hf id' hid' =>
      ⟨p, hp, (hps p hp).trans (Option.some.inj ((habout f hf).1.symm.trans hid'))⟩
  · intro id' hstarted
    obtain ⟨htask, hnot⟩ := habout _ hstarted
    obtain rfl := Option.some.inj htask
    exact hnot rfl
  · intro r hr hrefused
    rw [Option.some.inj (habout _ hr).1, hstatus]
    exact hdecided r hr hrefused
  · exact fun id' hother => moves_other
      (fun f hf heq => hother (Option.some.inj (heq.symm.trans (habout f hf).1)))

/-- One transition from a task's status. -/
theorem one_planned (reason : Option String) (hid : id ∈ m.graph.ids) (hs : m.graph.statuses id = s)
    (htarget : target ∈ allowed s) :
    Legal m.graph ⟨id, s, target, reason, m.graph.revisions id + 1⟩ ∧
      (m.graph.apply ⟨id, s, target, reason, m.graph.revisions id + 1⟩).statuses id = target := by
  have hlegal : Legal m.graph ⟨id, s, target, reason, m.graph.revisions id + 1⟩ :=
    ⟨hid, hs.symm, htarget, rfl⟩
  exact ⟨hlegal, apply_self (legal_next hlegal).moves⟩

/-- The dispatch of a ready task, and where it goes on by at once. -/
theorem two_planned (reason : Option String) (hid : id ∈ m.graph.ids)
    (hready : m.graph.statuses id = .ready) (htarget : target ∈ allowed .running) :
    Plannable m.graph [⟨id, .ready, .running, none, m.graph.revisions id + 1⟩,
        ⟨id, .running, target, reason, m.graph.revisions id + 2⟩] ∧
      ((m.graph.apply ⟨id, .ready, .running, none, m.graph.revisions id + 1⟩).apply
        ⟨id, .running, target, reason, m.graph.revisions id + 2⟩).statuses id = target := by
  obtain ⟨hfirst, hrunning⟩ := one_planned none hid hready (show TaskStatus.running ∈ _ by decide)
  have hstanding := graphStanding_apply m.graph ⟨id, .ready, .running, none, m.graph.revisions id + 1⟩ id
  rw [if_pos rfl, (legal_next hfirst).after] at hstanding
  have hsecond : Legal (m.graph.apply ⟨id, .ready, .running, none, m.graph.revisions id + 1⟩)
      ⟨id, .running, target, reason, m.graph.revisions id + 2⟩ :=
    ⟨(apply_ids _).symm ▸ hid, hrunning.symm, htarget,
      congrArg (fun standing => standing.revision + 1) hstanding.symm⟩
  exact ⟨⟨hfirst, hsecond, trivial⟩, apply_self (legal_next hsecond).moves⟩

/-- A commit of one transition. -/
theorem Sound.one (h : Coherent S log m) (hid : id ∈ m.graph.ids) (hs : m.graph.statuses id = s)
    (htarget : target ∈ allowed s ∧ target ∈ goes s ∧ s ≠ .pending)
    (hcommit : commitTransition m id target reason = .ok c) :
    (Sound S log m c ∧ ∀ id', id' ≠ id → moves c.batch id' = []) ∧
      (m.recordAll c.batch).graph.statuses id = target ∧ moves c.batch id ≠ [] := by
  obtain ⟨hlegal, hstatus⟩ := one_planned reason hid hs htarget.1
  have hplannable : Plannable m.graph [_] := ⟨hlegal, trivial⟩
  have hpreview := legal_preview hlegal
  simp only at hpreview
  rw [commitTransition, hpreview] at hcommit
  obtain rfl := Except.ok.inj hcommit
  refine ⟨Sound.about h hplannable (transitions_published hplannable) (fun _ => rfl) ?_ (by simp) hs hstatus
    htarget.2 ?_, hstatus, List.ne_nil_of_mem (mem_moves.mpr ⟨rfl, List.mem_cons_self⟩)⟩
  · simp [commitPlannedTransitions, Fact.task]
  · simp [commitPlannedTransitions]

/-! ## Coroutines -/

/-- The task of a coroutine in this phase is running. -/
def Phase.live : Phase → Bool
  | .scheduled => false
  | .done _ => false
  | _ => true

/-- What a coroutine relies on. -/
structure SlotInv (S : Setup) (log : List Fact) (m : Memory) (task : TaskSpec) (phase : Phase) : Prop where
  ready : phase = .scheduled → m.graph.statuses task.taskId = .ready
  live : phase.live = true → m.graph.statuses task.taskId = .running ∧ Current log m task.taskId
  permitted : phase = .running ∨ phase = .compiled → Permitted S task log
  ended : phase = .done false → m.graph.statuses task.taskId ≠ .running

theorem Current.still (h : Current log m task.taskId) (hb : moves b task.taskId = []) :
    Current (log ++ b) m task.taskId := by
  rw [Current, moves_append, hb, List.append_nil]
  exact h

theorem recordAll_still (hb : moves b id = []) :
    graphStanding (m.recordAll b).graph id = graphStanding m.graph id := by
  rw [Memory.standing_recordAll, hb]
  rfl

/-- **A coroutine is left alone** by facts that move another task, whether
memory was told of them or not. -/
theorem SlotInv.frame (h : SlotInv S log m task phase) (hb : moves b task.taskId = [])
    (hm' : m' = m ∨ m' = m.recordAll b) :
    SlotInv S (log ++ b) m' task phase := by
  have hstanding : graphStanding m'.graph task.taskId = graphStanding m.graph task.taskId := by
    obtain rfl | rfl := hm'
    · rfl
    · exact recordAll_still hb
  have hstatus : m'.graph.statuses task.taskId = m.graph.statuses task.taskId :=
    congrArg Standing.status hstanding
  refine ⟨fun hphase => hstatus.trans (h.ready hphase), fun hlive => ?_, fun hphase => ?_, fun hphase => ?_⟩
  · obtain ⟨hrunning, hcurrent⟩ := h.live hlive
    exact ⟨hstatus.trans hrunning, hstanding.trans (hcurrent.still hb)⟩
  · exact (h.permitted hphase).mono (fun f hf => List.mem_append_left _ hf)
  · rw [hstatus]
    exact h.ended hphase

/-- A coroutine that raises relies on nothing. -/
theorem slotInv_raised : SlotInv S log m task (.done true) := by
  refine ⟨?_, ?_, ?_, ?_⟩ <;> simp [Phase.live]

/-- A coroutine in the midst of its work whose task runs. -/
theorem SlotInv.working (hlive : m.graph.statuses task.taskId = .running ∧ Current log m task.taskId)
    (hphase : phase.live = true) (hpermitted : phase = .running ∨ phase = .compiled → Permitted S task log) :
    SlotInv S log m task phase := by
  refine ⟨?_, fun _ => hlive, hpermitted, ?_⟩ <;> (intro heq; rw [heq] at hphase; cases hphase)

/-- What a coroutine does without an append keeps what it relies on. -/
theorem SlotInv.internal (h : SlotInv S log m task phase) (hstep : Internal phase phase') :
    SlotInv S log m task phase' := by
  cases hstep with
  | escaped => exact slotInv_raised
  | returned => exact .working (h.live rfl) rfl (by simp)
  | raised hphase =>
    refine .working (h.live ?_) rfl (by simp)
    revert hphase
    cases phase <;> simp [Phase.live]

/-- What a coroutine's commit has to be like. -/
structure SlotSound (S : Setup) (log : List Fact) (m : Memory) (task : TaskSpec) (c : Commit)
    (next failed : Phase) : Prop where
  sound : Sound S log m c
  about : ∀ id, id ≠ task.taskId → moves c.batch id = []
  next : KeysDistinct S (log ++ c.batch) → SlotInv S (log ++ c.batch) (m.recordAll c.batch) task next
  failed : SlotInv S log m task failed ∧ SlotInv S (log ++ c.batch) m task failed

/-- A sound commit that ends the task's work. -/
theorem SlotSound.ends
    (hsound : Sound S log m c ∧ ∀ id, id ≠ task.taskId → moves c.batch id = [])
    (hstatus : (m.recordAll c.batch).graph.statuses task.taskId = s) (hs : s ≠ .running) :
    SlotSound S log m task c (.done false) (.done true) := by
  refine ⟨hsound.1, hsound.2, fun _ => ?_, slotInv_raised, slotInv_raised⟩
  refine ⟨?_, ?_, ?_, fun _ => hstatus ▸ hs⟩ <;> simp [Phase.live]

/-- One transition that ends a task's work. -/
theorem slot_end (h : Coherent S log m) (htask : task ∈ S.plan.tasks)
    (hrunning : m.graph.statuses task.taskId = .running)
    (htarget : target ∈ [TaskStatus.completed, .failed])
    (hcommit : commitTransition m task.taskId target reason = .ok c) :
    SlotSound S log m task c (.done false) (.done true) := by
  have hallowed : (target ∈ allowed .running ∧ target ∈ goes .running ∧ TaskStatus.running ≠ .pending) ∧
      target ≠ .running := by
    revert htarget
    cases target <;> decide
  obtain ⟨hsound, hstatus, -⟩ := Sound.one h (h.mem_ids htask) hrunning hallowed.1 hcommit
  exact .ends hsound hstatus hallowed.2

theorem slot_deny {reason : String} (h : Coherent S log m) (htask : task ∈ S.plan.tasks)
    (hready : m.graph.statuses task.taskId = .ready) (hcommit : deny m task reason = .ok c) :
    SlotSound S log m task c (.done false) (.done true) := by
  obtain ⟨hplannable, hstatus⟩ := two_planned (some reason) (h.mem_ids htask) hready (show TaskStatus.failed ∈ _ by decide)
  have hpreview := legal_preview hplannable.1
  simp only at hpreview
  rw [deny, hpreview] at hcommit
  obtain rfl := Except.ok.inj hcommit
  refine .ends (Sound.about h hplannable (transitions_published hplannable) (fun _ => rfl) ?_ (by simp) hready
    hstatus (by decide) ?_) hstatus (by decide)
  · simp [commitPlannedTransitions, Fact.task]
  · simp [commitPlannedTransitions]

/-- Nothing pending of the task, so the queue takes the request. -/
theorem create_ok {queue : NeedsYouQueue} {request : ApprovalRequest}
    (hnone : hasPending queue request.sessionId request.taskId = false) :
    queue.create request = (.ok request, queue.assign request) := by
  cases queue.create_cases request with
  | inr hstored => exact hstored.2
  | inl hthere =>
    obtain ⟨existing, hexisting, -⟩ := hthere
    have hfound := List.find?_some hexisting
    rw [hasPending, List.any_eq_false] at hnone
    refine absurd ?_ (hnone existing (List.mem_of_find?_eq_some hexisting))
    simp only [Bool.and_eq_true, beq_iff_eq] at hfound ⊢
    exact ⟨⟨hfound.2, hfound.1.1⟩, hfound.1.2⟩

theorem slot_gate {reason requestId createdAt : String} (h : Coherent S log m)
    (htask : task ∈ S.plan.tasks) (hready : m.graph.statuses task.taskId = .ready)
    (hcommit : gate S m task reason requestId createdAt = .ok c) :
    SlotSound S log m task c (.done false) (.done true) := by
  obtain ⟨hplannable, hstatus⟩ := two_planned (some reason) (h.mem_ids htask) hready
    (show TaskStatus.waitingApproval ∈ _ by decide)
  unfold gate at hcommit
  split at hcommit
  · cases hcommit
  next hnone =>
    obtain rfl := Except.ok.inj hcommit
    refine .ends (Sound.about h hplannable ?_ (fun _ => rfl) (by simp [Fact.task]) (by simp) hready hstatus
      (by decide) (by simp)) hstatus (by decide)
    have hfirst : Plannable m.graph [_] := ⟨hplannable.1, trivial⟩
    have hsecond : Plannable _ [_] := ⟨hplannable.2.1, trivial⟩
    simp only [publishGate, publish_ok hfirst, List.foldl_cons, List.foldl_nil, bind, Except.bind,
      publish_ok hsecond]
    rw [create_ok (Bool.eq_false_iff.mpr hnone)]
    exact if_neg (not_not.mpr rfl)

theorem slot_begin (h : Coherent S log m) (htask : task ∈ S.plan.tasks)
    (hready : m.graph.statuses task.taskId = .ready) (hallow : (decisionFor S m task).outcome = .allow)
    (hcommit : commitTransition m task.taskId .running none = .ok c) :
    SlotSound S log m task c .running (.done true) := by
  obtain ⟨⟨hsound, hothers⟩, hstatus, hne⟩ := Sound.one h (h.mem_ids htask) hready (by decide) hcommit
  refine ⟨hsound, hothers, fun hkeys => ?_, slotInv_raised, slotInv_raised⟩
  obtain ⟨p, hp, hrevision⟩ := hsound.revises _ hne
  have hcurrent := h.current hkeys hp hrevision
  refine .working ⟨hstatus, ?_⟩ rfl (fun _ => ?_)
  · rw [Current, Memory.standing_recordAll, hcurrent, moves_append, standing, standing, List.foldl_append]
  · -- Allowed by the policy itself, or by the approval memory holds.
    suffices h : Permitted S task log from h.mono fun f hf => List.mem_append_left _ hf
    unfold decisionFor at hallow
    split at hallow
    next hcovered =>
      obtain ⟨seen, hmirrors, rfl⟩ := h.memory
      obtain ⟨r, hr, hrest⟩ := (Memory.recorded S.graph seen).approval _ hcovered.1
      exact .inr ⟨hcovered.2, r, hmirrors.sublist.subset hr, hrest⟩
    next => exact .inl hallow

/-- A fact about the task that moves nothing. -/
theorem slot_mark {f : Fact} (hrecord : m.record f = m) (hmove : ∀ id, f.move id = none)
    (hb : Extends S log [f]) (hlive : m.graph.statuses task.taskId = .running ∧ Current log m task.taskId)
    (hnext : next.live = true ∧ (next = .running ∨ next = .compiled → Permitted S task log))
    (hfailed : failed = .failing ∨ failed = .done true) :
    SlotSound S log m task (factCommit m f) next failed := by
  have hnone : ∀ id, moves [f] id = [] := fun id =>
    List.filterMap_eq_nil_iff.mpr (fun g hg => List.mem_singleton.mp hg ▸ hmove id)
  have hnext : SlotInv S log m task next := .working hlive hnext.1 hnext.2
  have hfailed : SlotInv S log m task failed := by
    obtain rfl | rfl := hfailed
    · exact .working hlive rfl (by simp)
    · exact slotInv_raised
  refine ⟨.fact hrecord hmove hb, fun id _ => hnone id, fun _ => ?_, hfailed, hfailed.frame (hnone _) (.inl rfl)⟩
  exact hnext.frame (hnone _) (.inl hrecord)

/-- A fact of a task that moves nothing. -/
theorem extends_mark {f : Fact} (h : Coherent S log m) (htask : task ∈ S.plan.tasks)
    (habout : ∀ id, f.task = some id → id = task.taskId) (hmove : ∀ id, f.move id = none)
    (hdecided : ∀ r, f ≠ .approvalDecided r) (hstarted : ∀ id, f = .invocationStarted id →
      status log id = .running ∧ id = task.taskId ∧ Permitted S task log) : Extends S log [f] := by
  have hnone : ∀ id, moves [f] id = [] := fun id =>
    List.filterMap_eq_nil_iff.mpr (fun g hg => List.mem_singleton.mp hg ▸ hmove id)
  refine .still hnone (.inl (List.mem_append_left _ h.planned)) (fun g hg id hid => ?_) (fun id hmem => ?_)
    (fun r hmem => hdecided r (List.mem_singleton.mp hmem).symm)
  · rw [List.mem_singleton.mp hg] at hid
    rw [habout id hid, TaskGraph.ids, S.tasks_eq]
    exact List.mem_map_of_mem htask
  · obtain ⟨hrunning, hid, hpermitted⟩ := hstarted id (List.mem_singleton.mp hmem).symm
    rw [status_still (hnone id), hrunning]
    exact ⟨by decide, fun t ht htid => S.task_unique htask ht (hid.symm.trans htid.symm) ▸ hpermitted⟩

/-- **A coroutine's commit** is sound, and brings it to its next phase. -/
theorem slot_sound (h : Coherent S log m) (htask : task ∈ S.plan.tasks)
    (hslot : SlotInv S log m task phase) (hcommits : Commits S m task phase c next failed) :
    SlotSound S log m task c next failed := by
  cases hcommits with
  | deny _ hcommit => exact slot_deny h htask (hslot.ready rfl) hcommit
  | gate _ _ _ hcommit => exact slot_gate h htask (hslot.ready rfl) hcommit
  | allow houtcome hcommit => exact slot_begin h htask (hslot.ready rfl) houtcome hcommit
  | complete hcommit => exact slot_end h htask (hslot.live rfl).1 (by decide) hcommit
  | fail hcommit => exact slot_end h htask (hslot.live rfl).1 (by decide) hcommit
  | compile digest =>
    exact slot_mark rfl (fun _ => rfl) (.aside (by simp [Fact.task])) (hslot.live rfl)
      ⟨rfl, fun _ => hslot.permitted (.inl rfl)⟩ (.inl rfl)
  | start =>
    obtain ⟨hrunning, hcurrent⟩ := hslot.live rfl
    refine slot_mark rfl (fun _ => rfl) ?_ (hslot.live rfl) ⟨rfl, by simp⟩ (.inl rfl)
    refine extends_mark h htask (fun id hid => (Option.some.inj hid).symm) (fun _ => rfl) (by simp) ?_
    intro id hid
    obtain rfl := Fact.invocationStarted.inj hid
    exact ⟨(congrArg Standing.status hcurrent).symm.trans hrunning, rfl, hslot.permitted (.inr rfl)⟩
  | receive =>
    exact slot_mark rfl (fun _ => rfl)
      (extends_mark h htask (fun id hid => (Option.some.inj hid).symm) (fun _ => rfl) (by simp) (by simp))
      (hslot.live rfl) ⟨rfl, by simp⟩ (.inr rfl)

/-! ## The other commits -/

/-- **The commit of a decision** is sound. -/
theorem decide_sound {request : ApprovalRequest} {decision : ApprovalDecision} {actorId : String}
    {comment : Option String} (h : Coherent S log m)
    (hrequest : request ∈ m.approvals.requests) (hpending : request.pending = true)
    (hcommit : decideCommit m request decision actorId comment = .ok c) : Sound S log m c := by
  have hid : request.taskId ∈ m.graph.ids := by
    obtain ⟨seen, hmirrors, rfl⟩ := h.memory
    obtain ⟨f, hf, htask⟩ := (Memory.recorded S.graph seen).request _ hrequest
    rw [TaskGraph.ids, h.tasks, ← S.tasks_eq]
    exact h.stream.known _ (hmirrors.sublist.subset hf) _ htask
  unfold decideCommit at hcommit
  split at hcommit
  · cases hcommit
  next hwaiting =>
    have hwaiting := not_not.mp hwaiting
    obtain rfl := Except.ok.inj hcommit
    have htarget : decisionTarget decision ∈ allowed .waitingApproval ∧
        (decisionTarget decision ∈ goes .waitingApproval ∧ TaskStatus.waitingApproval ≠ .pending) ∧
          (decision ≠ .approve → decisionTarget decision ∈ refused) := by
      cases decision <;> decide
    obtain ⟨hlegal, hstatus⟩ := one_planned comment hid hwaiting htarget.1
    have hplannable : Plannable m.graph [_] := ⟨hlegal, trivial⟩
    refine And.left (Sound.about h hplannable ?_ (fun _ => rfl) (by simp [Fact.task]) (by simp) hwaiting
      hstatus htarget.2.1 (fun r hr hne => ?_))
    · have hlookup := NeedsYouQueue.lookup_eq_some.mpr ⟨hrequest, rfl⟩
      have hdecide : m.approvals.decide request.requestId decision actorId comment =
          (.ok { request with decision := some decision, decidedBy := some actorId, comment },
            m.approvals.assign
              { request with decision := some decision, decidedBy := some actorId, comment }) := by
        unfold NeedsYouQueue.decide
        simp [hlookup, hpending]
      unfold publishDecision
      rw [hdecide]
      simp only [ne_eq, not_true_eq_false, if_false, publish_ok hplannable]
      simp [Memory.recordAll, Memory.record, bind, Except.bind]
    · simp only [List.mem_cons, Fact.approvalDecided.injEq, reduceCtorEq, List.not_mem_nil, or_false] at hr
      subst hr
      exact htarget.2.2 (fun heq => hne (congrArg some heq))

theorem plannable_of_legal {g : TaskGraph} (hlegal : ∀ p ∈ ps, Legal g p)
    (hnodup : (ps.map (fun p => p.taskId)).Nodup) : Plannable g ps := by
  induction ps generalizing g with
  | nil => trivial
  | cons p rest ih =>
    obtain ⟨hp, hrest⟩ := List.forall_mem_cons.mp hlegal
    obtain ⟨hnot, hnodup⟩ := List.nodup_cons.mp hnodup
    refine ⟨hp, ih (fun q hq => ?_) hnodup⟩
    have hother : q.taskId ≠ p.taskId := fun heq => hnot (List.mem_map.mpr ⟨q, hq, heq⟩)
    obtain ⟨hstatus, hrevision⟩ := apply_other (g := g) hother
    have hq := hrest q hq
    exact ⟨(apply_ids p).symm ▸ hq.task, hstatus.symm ▸ hq.previous, hq.current, hrevision.symm ▸ hq.revision⟩

theorem settled_cases (g : TaskGraph) (t : TaskSpec) : settled g t = g.statuses t.taskId ∨
    g.statuses t.taskId = .pending ∧ (settled g t = .blocked ∨
      settled g t = .ready ∧ ∀ d ∈ t.dependsOn, g.statuses d ∈ doneStatuses) := by
  unfold settled
  split
  · exact .inl rfl
  next hpending =>
    have hpending := not_not.mp hpending
    split
    · exact .inr ⟨hpending, .inl rfl⟩
    · split
      next hall => exact .inr ⟨hpending, .inr ⟨rfl, hall⟩⟩
      · exact .inl hpending.symm

/-- What a refresh plans. -/
structure Refresh (g : TaskGraph) (planned : List TaskTransition) : Prop where
  plannable : Plannable g planned
  settles : ∀ t ∈ g.tasks, (planned.foldl TaskGraph.apply g).statuses t.taskId = settled g t
  moves : ∀ p ∈ planned, ∃ t ∈ g.tasks, t.taskId = p.taskId ∧ settled g t ≠ g.statuses t.taskId
  run : g.refresh = .ok (planned, planned.foldl TaskGraph.apply g)

theorem previewRefresh_ok {g : TaskGraph} (h : g.previewRefresh = .ok planned) : Refresh g planned := by
  obtain ⟨planned', hplanned, hdescribed⟩ := previewTasks_ok g.tasks (fun _ => id) g.valid.distinct
  obtain rfl := Except.ok.inj (hplanned.symm.trans h)
  have hnodup := hdescribed.from'.nodup g.valid.distinct
  have hplannable := plannable_of_legal hdescribed.legal hnodup
  have happly : ∀ (ps : List TaskTransition) (g : TaskGraph), Plannable g ps →
      applyAll ps g = .ok (ps.foldl TaskGraph.apply g) := by
    intro ps
    induction ps with
    | nil => exact fun _ _ => rfl
    | cons p rest ih =>
      intro g hps
      simp only [applyAll, TaskGraph.transition, legal_preview hps.1, bind, Except.bind, ne_eq,
        not_true_eq_false, if_false]
      exact ih _ hps.2
  have hrun : g.refresh = .ok (planned', planned'.foldl TaskGraph.apply g) := by
    unfold TaskGraph.refresh
    rw [h]
    show (applyAll planned' g >>= _) = _
    rw [happly _ _ hplannable]
    rfl
  obtain ⟨planned, g', -, hrefresh, -, -, hsettled⟩ := refresh_eq g
  obtain ⟨rfl, rfl⟩ := Prod.mk.inj (Except.ok.inj (hrun.symm.trans hrefresh))
  refine ⟨hplannable, hsettled, fun p hp => ?_, hrun⟩
  obtain ⟨t, ht, hid⟩ := List.mem_map.mp (hdescribed.legal p hp).task
  have hid : t.taskId = p.taskId := hid
  cases hdescribed.settles t ht with
  | inr hstill => exact absurd hid.symm (hstill.2 p hp)
  | inl hmoved =>
    obtain ⟨q, hq, hqid, hcurrent⟩ := hmoved
    obtain rfl := List.inj_on_of_nodup_map hnodup hq hp (hqid.trans hid)
    refine ⟨t, ht, hid, ?_⟩
    rw [← hcurrent, hid, ← (hdescribed.legal q hp).previous]
    exact hdescribed.moves q hp

/-- A refresh leaves each task where it settles. -/
theorem refresh_status (h : Refresh m.graph planned) {t : TaskSpec}
    (ht : t ∈ m.graph.tasks) :
    (m.recordAll (planned.map Fact.statusChanged)).graph.statuses t.taskId = settled m.graph t := by
  rw [recordAll_transitions]
  exact h.settles t ht

/-- **The commit of a refresh** is sound. -/
theorem refresh_sound (h : Coherent S log m) (hplanned : Refresh m.graph planned) :
    Sound S log m (commitPlannedTransitions m planned) := by
  refine .planned h hplanned.plannable (transitions_published hplanned.plannable) (fun _ => rfl)
    (fun p hp => ?_) (fun f hf id hid => ?_) ?_ ?_
  · obtain ⟨t, ht, hid, hne⟩ := hplanned.moves p hp
    rw [← hid]
    show Goes m (m.recordAll (planned.map Fact.statusChanged)) t.taskId
    obtain hsame | ⟨hpending, hmoved⟩ := settled_cases m.graph t
    · exact absurd hsame hne
    · refine ⟨?_, fun _ hready u hu huid d hd => ?_⟩
      · rw [refresh_status hplanned ht, hpending]
        obtain hblocked | hready := hmoved
        · rw [hblocked]
          decide
        · rw [hready.1]
          decide
      · rw [refresh_status hplanned ht] at hready
        obtain rfl := List.inj_on_of_nodup_map m.graph.valid.distinct hu ht huid
        obtain hblocked | hdone := hmoved
        · exact nomatch hblocked.symm.trans hready
        · exact hdone.2 d hd
  · obtain ⟨p, hp, rfl⟩ := List.mem_map.mp hf
    exact ⟨p, hp, Option.some.inj hid⟩
  · simp [commitPlannedTransitions]
  · simp [commitPlannedTransitions]

/-- A task that is neither ready nor blocked after a refresh was not moved. -/
theorem refresh_kept (h : Refresh m.graph planned) {t : TaskSpec} (ht : t ∈ m.graph.tasks)
    (hs : (m.recordAll (planned.map Fact.statusChanged)).graph.statuses t.taskId = s)
    (hmoved : s ≠ .blocked ∧ s ≠ .ready) : m.graph.statuses t.taskId = s := by
  rw [refresh_status h ht] at hs
  obtain hsame | ⟨-, hblocked | hready⟩ := settled_cases m.graph t
  · exact hsame.symm.trans hs
  · exact absurd (hs.symm.trans hblocked) hmoved.1
  · exact absurd (hs.symm.trans hready.1) hmoved.2

theorem refresh_quiet (h : Refresh m.graph planned) (hquiet : m.quiet) :
    (m.recordAll (planned.map Fact.statusChanged)).quiet := by
  intro t ht hrunning
  rw [Memory.recordAll_tasks] at ht
  exact hquiet t ht (refresh_kept h ht hrunning (by decide))

/-- Every pending task has a dependency that is not done. -/
def Memory.waits (m : Memory) : Prop := ∀ t ∈ m.graph.tasks, m.graph.statuses t.taskId = .pending →
  ∃ d ∈ t.dependsOn, m.graph.statuses d ∉ doneStatuses

/-- **After a refresh** a pending task has a dependency that is not done. -/
theorem refresh_waits (h : Refresh m.graph planned) :
    (m.recordAll (planned.map Fact.statusChanged)).waits := by
  intro t ht hpending
  have htask := Memory.recordAll_tasks m _ ▸ ht
  rw [recordAll_transitions] at ht hpending
  obtain ⟨d, hd, hnot⟩ := refreshed_waits h.run ht hpending
  refine ⟨d, hd, fun hdone => ?_⟩
  obtain ⟨u, hu, rfl⟩ := List.mem_map.mp (m.graph.valid.known t htask d hd)
  have hmoved : ∀ s ∈ doneStatuses, s ≠ .blocked ∧ s ≠ .ready := by decide
  rw [refresh_kept h hu rfl (hmoved _ hdone)] at hnot
  exact hnot hdone

/-- What is left of a stream's keys. -/
theorem KeysDistinct.before (h : KeysDistinct S (log ++ b)) : KeysDistinct S log := by
  unfold KeysDistinct at h ⊢
  rw [List.filterMap_append] at h
  exact (List.nodup_append.mp h).1

/-- Facts about no task change nothing in memory. -/
theorem recordAll_aside (hnone : ∀ f ∈ b, f.task = none) : m.recordAll b = m := by
  induction b with
  | nil => rfl
  | cons f rest ih =>
    obtain ⟨hf, hrest⟩ := List.forall_mem_cons.mp hnone
    have hrecord : m.record f = m := by
      cases f <;> first | rfl | exact nomatch hf
    show (m.record f).recordAll rest = m
    rw [hrecord, ih hrest]

/-- The facts of a plan itself. -/
def planFacts (S : Setup) : List Fact := .planCreated :: S.plan.tasks.map (fun t => .taskCreated t.taskId)

theorem planFacts_task : ∀ f ∈ planFacts S, f.task = none := by
  simp [planFacts, Fact.task]

/-- The commit of a plan is its facts, and a refresh. -/
theorem initialize_refresh (h : initializePlan S = .ok c) :
    ∃ planned, Refresh (Memory.fresh S.graph).graph planned ∧
      c.batch = planFacts S ++ planned.map Fact.statusChanged ∧
        c.published = .ok ((Memory.fresh S.graph).recordAll (planned.map Fact.statusChanged)) := by
  obtain ⟨planned, g', hpreview, -⟩ := refresh_eq S.graph
  have hplanned := previewRefresh_ok hpreview
  unfold initializePlan at h
  rw [hplanned.run] at h
  obtain rfl := Except.ok.inj h
  exact ⟨planned, hplanned, rfl, by rw [recordAll_transitions]; rfl⟩

/-- **The commit of a plan** begins the session as it should be. -/
theorem initialize_sound (hlog : LogInv S log) (hcommit : initializePlan S = .ok c)
    (happend : Appended S c log (Memory.fresh S.graph) o log' m') :
    LogInv S log' ∧ (o = .stored → Coherent S log' m' ∧ m'.quiet) := by
  obtain ⟨planned, hplanned, hbatch, hpublish⟩ := initialize_refresh hcommit
  -- The plan's own facts move nothing, and what follows is a refresh.
  have hbase : KeysDistinct S (log ++ c.batch) → Coherent S (log ++ planFacts S) (Memory.fresh S.graph) := by
    intro hkeys
    rw [hbatch, ← List.append_assoc] at hkeys
    exact ⟨List.mem_append_right _ List.mem_cons_self, hlog.append hkeys.before (.aside planFacts_task),
      [], ⟨List.nil_sublist _, fun _ => List.nil_prefix⟩, rfl⟩
  cases happend with
  | refused => exact ⟨hlog, fun hstored => nomatch hstored⟩
  | lost hkeys =>
    refine ⟨?_, fun hstored => nomatch hstored⟩
    have hbase := hbase hkeys
    rw [hbatch, ← List.append_assoc] at hkeys ⊢
    exact ((refresh_sound hbase hplanned).appended hbase (.lost hkeys)).1.stream
  | stored hkeys hpublished =>
    have hbase := hbase hkeys
    rw [hpublish] at hpublished
    obtain rfl := Except.ok.inj hpublished
    rw [hbatch, ← List.append_assoc] at hkeys ⊢
    have hsound := refresh_sound hbase hplanned
    obtain ⟨hcoherent, -⟩ := hsound.appended hbase (.stored hkeys hsound.published)
    refine ⟨hcoherent.stream, fun _ => ⟨hcoherent, refresh_quiet hplanned (fun t _ => ?_)⟩⟩
    rw [show (Memory.fresh S.graph).graph.statuses t.taskId = .pending from
      congrArg Standing.status (S.fresh_standing t.taskId)]
    decide

/-! ## The invariant -/

/-- What holds while the coroutines of a round work. -/
structure BatchInv (S : Setup) (log : List Fact) (m : Memory) (ids : List String)
    (phase : String → Phase) : Prop where
  tasks : ∀ id ∈ ids, ∃ task ∈ S.plan.tasks, task.taskId = id
  slots : ∀ task ∈ S.plan.tasks, task.taskId ∈ ids → SlotInv S log m task (phase task.taskId)
  rest : ∀ task ∈ S.plan.tasks, task.taskId ∉ ids → m.graph.statuses task.taskId ≠ .running

/-- What holds where the kernel stands so. -/
def ControlInv (S : Setup) (log : List Fact) : Option Memory → Control → Prop
  | _, .idle => True
  | some m, .looping => m.quiet
  | some m, .selecting => m.quiet ∧ m.waits
  | some m, .batch ids phase => BatchInv S log m ids phase
  | none, _ => False

/-- **The invariant of a session.** -/
structure Inv (S : Setup) (s : State) : Prop where
  log : LogInv S s.log
  memory : ∀ m, s.memory = some m → Coherent S s.log m
  control : ControlInv S s.log s.memory s.control

theorem Inv.of (h : Coherent S log m) (hcontrol : ControlInv S log (some m) control) :
    Inv S ⟨log, some m, control⟩ :=
  ⟨h.stream, fun _ heq => Option.some.inj heq ▸ h, hcontrol⟩

/-- One coroutine of a round moves on, and the others stay. -/
theorem BatchInv.move (h : BatchInv S log m ids phases) (hid : task.taskId ∈ ids) (htask : task ∈ S.plan.tasks)
    (hm' : m' = m ∨ m' = m.recordAll b) (hothers : ∀ id, id ≠ task.taskId → moves b id = [])
    (hslot : SlotInv S (log ++ b) m' task phase') :
    BatchInv S (log ++ b) m' ids (Function.update phases task.taskId phase') := by
  refine ⟨h.tasks, fun t ht htid => ?_, fun t ht hnot => ?_⟩
  · by_cases hsame : t.taskId = task.taskId
    · obtain rfl := S.task_unique ht htask hsame
      rw [Function.update_self]
      exact hslot
    · rw [Function.update_of_ne hsame]
      exact (h.slots t ht htid).frame (hothers _ hsame) hm'
  · have hother : t.taskId ≠ task.taskId := fun heq => hnot (heq ▸ hid)
    have hstatus : m'.graph.statuses t.taskId = m.graph.statuses t.taskId := by
      obtain rfl | rfl := hm'
      · rfl
      · exact congrArg Standing.status (recordAll_still (hothers _ hother))
    rw [hstatus]
    exact h.rest t ht hnot

/-- A coroutine moves on without an append. -/
theorem BatchInv.still (h : BatchInv S log m ids phases) (hid : id ∈ ids)
    (hslot : ∀ task ∈ S.plan.tasks, task.taskId = id → SlotInv S log m task (phases id) →
      SlotInv S log m task phase') :
    BatchInv S log m ids (Function.update phases id phase') := by
  obtain ⟨task, htask, rfl⟩ := h.tasks id hid
  have hnext := hslot task htask rfl (h.slots task htask hid)
  rw [← List.append_nil log] at hnext ⊢
  exact h.move hid htask (.inl rfl) (fun _ _ => rfl) hnext

/-- **What the kernel plans** is sound, and the kernel stands after it as it
should. -/
theorem Planned.kept (hplanned : Planned S m control c after) (h : Coherent S log m)
    (hcontrol : ControlInv S log (some m) control) : Sound S log m c ∧
      ∀ {o log' m'}, Appended S c log m o log' m' → ControlInv S log' (some m') (after o) := by
  cases hplanned with
  | decide hrequest hpending hcommit => exact ⟨decide_sound h hrequest hpending hcommit, fun _ => trivial⟩
  | refresh hplanned =>
    have hplanned := previewRefresh_ok hplanned
    have hsound := refresh_sound h hplanned
    refine ⟨hsound, fun happend => ?_⟩
    cases happend with
    | stored hkeys hpublished =>
      obtain rfl := hsound.stored hpublished
      exact ⟨refresh_quiet hplanned hcontrol, refresh_waits hplanned⟩
    | _ => trivial
  | @slot ids phase task c next failed hid htask hcommits =>
    have hbatch : BatchInv S log m ids phase := hcontrol
    have htask : task ∈ S.plan.tasks := h.tasks ▸ htask
    have hslot := slot_sound h htask (hbatch.slots task htask hid) hcommits
    refine ⟨hslot.sound, fun happend => ?_⟩
    cases happend with
    | stored hkeys hpublished =>
      obtain rfl := hslot.sound.stored hpublished
      exact hbatch.move hid htask (.inr rfl) hslot.about (hslot.next hkeys)
    | lost => exact hbatch.move hid htask (.inl rfl) hslot.about hslot.failed.2
    | refused => exact hbatch.still hid (fun t ht hid _ => S.task_unique htask ht hid.symm ▸ hslot.failed.1)

/-- **What one step keeps.** -/
theorem inv_step {s s' : State} {l : Label} (h : Inv S s) (hstep : Step S s l s') : Inv S s' := by
  cases hstep with
  | @other s eventType key hkeys =>
    -- For memory it is as if the append's acknowledgement had been lost.
    have haside : Extends S s.log [.other eventType key] := .aside (by simp [Fact.task])
    refine ⟨h.log.append hkeys haside, fun m hm => ?_, ?_⟩
    · exact ((Sound.fact (m := m) rfl (fun _ => rfl) haside).appended (h.memory m hm) (.lost hkeys)).1
    · obtain ⟨log, memory, control⟩ := s
      have hcontrol := h.control
      cases control with
      | batch ids phase =>
        cases memory with
        | none => exact hcontrol
        | some m =>
          have hbatch : BatchInv S log m ids phase := hcontrol
          exact ⟨hbatch.tasks, fun t ht hid => (hbatch.slots t ht hid).frame rfl (.inl rfl),
            hbatch.rest⟩
      | _ => cases memory <;> exact hcontrol
  | crash => exact ⟨h.log, fun m hm => (nomatch hm), trivial⟩
  | cancel => exact ⟨h.log, h.memory, trivial⟩
  | resume hquiet => exact ⟨h.log, h.memory, hquiet⟩
  | recover hplan hquiet =>
    exact .of ⟨hplan, h.log, _, ⟨List.Sublist.refl _, fun _ => List.prefix_rfl⟩, rfl⟩ hquiet
  | @create log log' c m' o hplan hcommit happend =>
    obtain ⟨hlog, hstored⟩ := initialize_sound h.log hcommit happend
    split
    next heq =>
      obtain ⟨hcoherent, hquiet⟩ := hstored heq
      exact .of hcoherent hquiet
    next => exact ⟨hlog, fun m hm => (nomatch hm), trivial⟩
  | @append log log' m m' control c after o hplanned happend =>
    obtain ⟨hsound, hcontrol⟩ := hplanned.kept (h.memory m rfl) h.control
    exact .of (hsound.appended (h.memory m rfl) happend).1 (hcontrol happend)
  | @select log m hready =>
    have hcoherent := h.memory m rfl
    obtain ⟨hquiet, -⟩ : m.quiet ∧ m.waits := h.control
    refine .of hcoherent ⟨fun id hid => ?_, fun task htask hid => ?_, fun task htask hid => ?_⟩
    · obtain ⟨t, ht, rfl⟩ := List.mem_map.mp hid
      exact ⟨t, hcoherent.tasks ▸ (ready_iff.mp ht).1, rfl⟩
    · obtain ⟨t, ht, heq⟩ := List.mem_map.mp hid
      have hstatus := (ready_iff.mp ht).2
      rw [show t.taskId = task.taskId from heq] at hstatus
      refine ⟨fun _ => hstatus, ?_, ?_, ?_⟩ <;> simp [Phase.live]
    · exact hquiet task (hcoherent.tasks ▸ htask)
  | returned => exact ⟨h.log, h.memory, trivial⟩
  | @internal log m ids phase id phase' hid hphase =>
    have hbatch : BatchInv S log m ids phase := h.control
    exact ⟨h.log, h.memory, hbatch.still hid (fun _ _ _ hslot => hslot.internal hphase)⟩
  | @call log m ids phase id hid hphase =>
    have hbatch : BatchInv S log m ids phase := h.control
    exact ⟨h.log, h.memory, hbatch.still hid (fun _ _ _ hslot => .working (hslot.live (hphase ▸ rfl)) rfl (by simp))⟩
  | @join log m ids phase hdone =>
    have hbatch : BatchInv S log m ids phase := h.control
    refine ⟨h.log, h.memory, fun t ht => ?_⟩
    have ht : t ∈ S.plan.tasks := (h.memory m rfl).tasks ▸ ht
    by_cases hid : t.taskId ∈ ids
    · exact (hbatch.slots t ht hid).ended (hdone _ hid)
    · exact hbatch.rest t ht hid
  | leave => exact ⟨h.log, h.memory, trivial⟩

theorem inv_start {s : State} (h : (sessionSystem S).start s) : Inv S s := by
  obtain ⟨hmemory, hcontrol, hkeys, hothers⟩ := h
  have hnone : ∀ f ∈ s.log, f.task = none := by
    intro f hf
    obtain ⟨eventType, key, rfl⟩ := hothers f hf
    rfl
  -- Nothing stands in the stream but what others wrote.
  have hempty : LogInv S [] := by
    refine ⟨List.nodup_nil, fun _ => trivial, by simp, by simp, by simp, by simp, by simp, ?_⟩
    exact fun task _ hbegun => absurd rfl hbegun.1
  refine ⟨hempty.append (b := s.log) hkeys (.aside hnone), fun m hm => ?_, ?_⟩
  · rw [hmemory] at hm
    cases hm
  · rw [hcontrol]
    trivial

/-- **The invariant** holds of every state a session reaches. -/
theorem inv_reachable {s : State} (h : Reachable (sessionSystem S) s) : Inv S s :=
  invariant_of_reachable (S := sessionSystem S) (I := Inv S) (fun _ => inv_start)
    (fun _ _ _ hinv hstep => inv_step hinv hstep) h

end QuantumEntanglement.Kernel
