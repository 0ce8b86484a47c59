import QuantumEntanglement.Lib.TransitionSystem

/-
  The callable runtime — handler calls, and a close that waits for them

  The tasks of an event loop take turns at their awaits. No section of the
  state lock awaits anything, so what a task does between two awaits is one
  step: a call is registered and its handler started, a call is taken off
  again, a closer reads the registered tasks, or marks the runtime closed. The
  lock of the closers is held while the pending tasks are awaited. What is
  registered are tasks, not calls: the end of a call inside a call of the same
  task takes the task off while the outer call runs, and a closer does not
  await its own task, whose calls then run in a closed runtime.

  What is proved:
    1. `exec_shut` — no step accepts again once a close has begun.
    2. `close_drains` — in every run whose steps keep the tasks registered, a
       close that returns leaves no call but those of its own task.
    3. `close_loses_calls` — the two runs where one is left.
-/

namespace QuantumEntanglement.AgentRuntime

open TransitionSystem

/-! ## States -/

/-- What a task is in the middle of, in one call of the runtime. -/
inductive Frame (Task : Type) where
  /-- A handler call. -/
  | call
  /-- A close, waiting for the lock of the closers. -/
  | waiting
  /-- A close, waiting for the pending tasks. -/
  | gathering (pending : List Task)
  deriving DecidableEq

def Frame.isCall {Task : Type} : Frame Task → Bool
  | .call => true
  | _ => false

structure RuntimeState (Task : Type) where
  /-- The calls of the runtime on the stack of each task, innermost first. -/
  frames : Task → List (Frame Task)
  finished : Task → Bool
  inflight : List Task
  accepting : Bool
  closed : Bool
  closeLock : Option Task
  waiters : List Task

variable {Task : Type} [DecidableEq Task]

def RuntimeState.start : RuntimeState Task :=
  ⟨fun _ => [], fun _ => false, [], true, false, none, []⟩

/-- Whether a task has a running handler call. -/
def RuntimeState.calling (s : RuntimeState Task) (t : Task) : Bool := (s.frames t).any Frame.isCall

/-- Whether a task is at none of the runtime's own awaits, and not finished. -/
def RuntimeState.free (s : RuntimeState Task) (t : Task) : Bool :=
  !s.finished t && match s.frames t with
    | [] => true
    | f :: _ => f.isCall

def RuntimeState.setFrames (s : RuntimeState Task) (t : Task) (fs : List (Frame Task)) :
    RuntimeState Task :=
  { s with frames := fun u => if u = t then fs else s.frames u }

/-- The tasks a closer awaits. -/
def RuntimeState.pending (s : RuntimeState Task) (t : Task) : List Task := s.inflight.filter (· ≠ t)

/-! ## Steps -/

/-- How a handler call ends. -/
inductive Outcome where
  | returned
  | wrongType
  | raised
  | cancelled
  deriving DecidableEq

/-- A step of a task, from one await to the next. -/
inductive Action (Task : Type) where
  | invoke (t : Task)
  | leave (t : Task) (outcome : Outcome)
  | close (t : Task)
  | acquire
  | drained (t : Task)
  | cancelClose (t : Task)
  | finish (t : Task)

inductive Event (Task : Type) where
  /-- A call was accepted and its handler started. -/
  | started (t : Task)
  /-- `AgentRuntimeClosedError`. -/
  | rejected (t : Task)
  | left (t : Task) (outcome : Outcome)
  /-- A close waits, for the lock or for the pending tasks. -/
  | waits (t : Task)
  | closeReturned (t : Task)
  | closeCancelled (t : Task)
  | finished (t : Task)
  deriving DecidableEq

/-- The section of a close that follows the lock of the closers, up to its next await. -/
def enter (s : RuntimeState Task) (t : Task) : RuntimeState Task × Event Task :=
  if s.closed then (s, .closeReturned t)
  else if s.pending t = [] then ({ s with accepting := false, closed := true }, .closeReturned t)
  else
    (({ s with accepting := false, closeLock := some t }).setFrames t
      (.gathering (s.pending t) :: s.frames t), .waits t)

/-- One step, or nothing where the task cannot take it. -/
def exec (s : RuntimeState Task) : Action Task → Option (RuntimeState Task × Event Task)
  | .invoke t =>
    if s.free t = false then none
    else if s.accepting = false then some (s, .rejected t)
    else some (({ s with inflight := if t ∈ s.inflight then s.inflight else t :: s.inflight }).setFrames t
      (.call :: s.frames t), .started t)
  | .leave t outcome =>
    match s.frames t with
    | .call :: rest =>
      some (({ s with inflight := s.inflight.filter (· ≠ t) }).setFrames t rest, .left t outcome)
    | _ => none
  | .close t =>
    if s.free t = false then none
    else if s.closeLock.isSome || !s.waiters.isEmpty then
      some (({ s with waiters := s.waiters ++ [t] }).setFrames t (.waiting :: s.frames t), .waits t)
    else some (enter s t)
  | .acquire =>
    match s.closeLock, s.waiters with
    | none, t :: rest =>
      match s.frames t with
      | .waiting :: fs => some (enter (({ s with waiters := rest }).setFrames t fs) t)
      | _ => none
    | _, _ => none
  | .drained t =>
    match s.frames t with
    | .gathering pending :: rest =>
      if pending.all s.finished then
        some (({ s with closed := true, closeLock := none }).setFrames t rest, .closeReturned t)
      else none
    | _ => none
  | .cancelClose t =>
    match s.frames t with
    | .waiting :: rest =>
      some (({ s with waiters := s.waiters.filter (· ≠ t) }).setFrames t rest, .closeCancelled t)
    | .gathering _ :: rest => some (({ s with closeLock := none }).setFrames t rest, .closeCancelled t)
    | _ => none
  | .finish t =>
    if s.frames t = [] ∧ s.finished t = false then
      some ({ s with finished := fun u => if u = t then true else s.finished u }, .finished t)
    else none

/-- The runtime, from a state without calls. -/
def runtimeSystem (Task : Type) [DecidableEq Task] :
    System (RuntimeState Task) (Action Task × Event Task) where
  start := fun s => s = RuntimeState.start
  step := fun s l s' => exec s l.1 = some (s', l.2)

/-- Whether an action is a call of `close`. -/
def Action.isClose : Action Task → Bool
  | .close _ => true
  | _ => false

/-! ## Frames -/

variable {s s' : RuntimeState Task} {t : Task}

@[simp] theorem setFrames_frames (s : RuntimeState Task) (t u : Task) (fs : List (Frame Task)) :
    (s.setFrames t fs).frames u = if u = t then fs else s.frames u := rfl

theorem calling_setFrames (s : RuntimeState Task) (t u : Task) (fs : List (Frame Task)) :
    (s.setFrames t fs).calling u = if u = t then fs.any Frame.isCall else s.calling u := by
  simp only [RuntimeState.calling, setFrames_frames]
  split <;> rfl

/-- A frame that is no call changes nothing about who calls. -/
theorem calling_push (s : RuntimeState Task) (t u : Task) {f : Frame Task} (hf : f.isCall = false) :
    (s.setFrames t (f :: s.frames t)).calling u = s.calling u := by
  rw [calling_setFrames]
  split
  next h => rw [h, List.any_cons, hf, Bool.false_or, RuntimeState.calling]
  next => rfl

theorem calling_pop {f : Frame Task} {rest : List (Frame Task)} (hframes : s.frames t = f :: rest)
    (hf : f.isCall = false) (u : Task) : (s.setFrames t rest).calling u = s.calling u := by
  rw [calling_setFrames]
  split
  next h => rw [h, RuntimeState.calling, hframes, List.any_cons, hf, Bool.false_or]
  next => rfl

/-! ## Once a close has begun -/

/-- No close has begun. -/
structure Untouched (s : RuntimeState Task) : Prop where
  open_ : s.closed = false
  unlocked : s.closeLock = none
  unawaited : s.waiters = []
  calls : ∀ t, ∀ f ∈ s.frames t, f.isCall = true

/-- A runtime that accepts has seen no close. -/
def Shut (s : RuntimeState Task) : Prop := s.accepting = true → Untouched s

theorem enter_accepting (h : Shut s) (t : Task) : (enter s t).1.accepting = false := by
  unfold enter
  split
  next hclosed =>
    cases haccepting : s.accepting with
    | false => rfl
    | true =>
      rw [(h haccepting).open_] at hclosed
      cases hclosed
  next =>
    split
    · rfl
    · rfl

/-- A step that leaves a runtime accepting found it so, and was no close. -/
theorem exec_shut {a : Action Task} {e : Event Task} (h : Shut s) (hrun : exec s a = some (s', e))
    (haccepting : s'.accepting = true) : s.accepting = true ∧ Untouched s' ∧ a.isClose = false := by
  cases a with
  | invoke t =>
    simp only [exec] at hrun
    split at hrun
    · cases hrun
    · split at hrun
      · obtain ⟨rfl, -⟩ := Prod.mk.inj (Option.some.inj hrun)
        exact ⟨haccepting, h haccepting, rfl⟩
      · obtain ⟨rfl, -⟩ := Prod.mk.inj (Option.some.inj hrun)
        obtain ⟨hopen, hlock, hwaiters, hcalls⟩ := h haccepting
        refine ⟨haccepting, ⟨hopen, hlock, hwaiters, fun u f hf => ?_⟩, rfl⟩
        rw [setFrames_frames] at hf
        split at hf
        · rcases List.mem_cons.mp hf with rfl | hf
          · rfl
          · exact hcalls t f hf
        · exact hcalls u f hf
  | leave t outcome =>
    simp only [exec] at hrun
    split at hrun
    next rest hframes =>
      obtain ⟨rfl, -⟩ := Prod.mk.inj (Option.some.inj hrun)
      obtain ⟨hopen, hlock, hwaiters, hcalls⟩ := h haccepting
      refine ⟨haccepting, ⟨hopen, hlock, hwaiters, fun u f hf => ?_⟩, rfl⟩
      rw [setFrames_frames] at hf
      split at hf
      · exact hcalls t f (by rw [hframes]; exact List.mem_cons_of_mem _ hf)
      · exact hcalls u f hf
    · cases hrun
  | close t =>
    simp only [exec] at hrun
    split at hrun
    · cases hrun
    · split at hrun
      next hbusy =>
        obtain ⟨rfl, -⟩ := Prod.mk.inj (Option.some.inj hrun)
        obtain ⟨-, hlock, hwaiters, -⟩ := h haccepting
        simp [hlock, hwaiters] at hbusy
      next =>
        have hshut := enter_accepting h t
        rw [Option.some.inj hrun, haccepting] at hshut
        cases hshut
  | acquire =>
    simp only [exec] at hrun
    split at hrun
    next t rest hlock hwaiters =>
      split at hrun
      next fs hframes =>
        have hrest : Shut (({ s with waiters := rest }).setFrames t fs) := by
          intro haccepting'
          have hnone := (h haccepting').unawaited
          rw [hwaiters] at hnone
          cases hnone
        have hshut := enter_accepting hrest t
        rw [Option.some.inj hrun, haccepting] at hshut
        cases hshut
      · cases hrun
    · cases hrun
  | drained t =>
    simp only [exec] at hrun
    split at hrun
    next pending rest hframes =>
      split at hrun
      · obtain ⟨rfl, -⟩ := Prod.mk.inj (Option.some.inj hrun)
        have hcall := (h haccepting).calls t _ (by rw [hframes]; exact List.mem_cons_self)
        cases hcall
      · cases hrun
    · cases hrun
  | cancelClose t =>
    simp only [exec] at hrun
    split at hrun
    next rest hframes =>
      obtain ⟨rfl, -⟩ := Prod.mk.inj (Option.some.inj hrun)
      have hcall := (h haccepting).calls t _ (by rw [hframes]; exact List.mem_cons_self)
      cases hcall
    next pending rest hframes =>
      obtain ⟨rfl, -⟩ := Prod.mk.inj (Option.some.inj hrun)
      have hcall := (h haccepting).calls t _ (by rw [hframes]; exact List.mem_cons_self)
      cases hcall
    · cases hrun
  | finish t =>
    simp only [exec] at hrun
    split at hrun
    · obtain ⟨rfl, -⟩ := Prod.mk.inj (Option.some.inj hrun)
      obtain ⟨hopen, hlock, hwaiters, hcalls⟩ := h haccepting
      exact ⟨haccepting, ⟨hopen, hlock, hwaiters, hcalls⟩, rfl⟩
    · cases hrun

/-- A handler starts only in a runtime that accepts. -/
theorem exec_started {a : Action Task} (hrun : exec s a = some (s', .started t)) : s.accepting = true := by
  cases a with
  | invoke u =>
    simp only [exec] at hrun
    split at hrun
    · cases hrun
    · split at hrun
      · cases hrun
      next haccepting => exact Bool.not_eq_false _ ▸ haccepting
  | close u =>
    simp only [exec] at hrun
    split at hrun
    · cases hrun
    · split at hrun
      · cases hrun
      · have hevent := congrArg Prod.snd (Option.some.inj hrun)
        unfold enter at hevent
        split at hevent
        · cases hevent
        · split at hevent <;> cases hevent
  | acquire =>
    simp only [exec] at hrun
    split at hrun
    · split at hrun
      · have hevent := congrArg Prod.snd (Option.some.inj hrun)
        unfold enter at hevent
        split at hevent
        · cases hevent
        · split at hevent <;> cases hevent
      · cases hrun
    · cases hrun
  | leave u outcome =>
    simp only [exec] at hrun
    split at hrun <;> cases hrun
  | drained u =>
    simp only [exec] at hrun
    split at hrun
    · split at hrun <;> cases hrun
    · cases hrun
  | cancelClose u =>
    simp only [exec] at hrun
    split at hrun <;> cases hrun
  | finish u =>
    simp only [exec] at hrun
    split at hrun <;> cases hrun

/-- What a run says about closes. -/
def Begun (ls : List (Action Task × Event Task)) (s : RuntimeState Task) : Prop :=
  Shut s ∧ ((∃ l ∈ ls, l.1.isClose = true) → s.accepting = false)

theorem run_begun {ls : List (Action Task × Event Task)} (h : Run (runtimeSystem Task) .start ls s) :
    Begun ls s := by
  apply h.traced (I := Begun)
  · rintro before s ⟨a, e⟩ s' ⟨hshut, hbegun⟩ hrun
    have hstep := exec_shut hshut hrun
    refine ⟨fun haccepting => (hstep haccepting).2.1, ?_⟩
    rintro ⟨l, hl, hclose⟩
    cases haccepting' : s'.accepting with
    | false => rfl
    | true =>
      obtain ⟨haccepting, -, hnone⟩ := hstep haccepting'
      rcases List.mem_append.mp hl with hl | hl
      · rw [hbegun ⟨l, hl, hclose⟩] at haccepting
        cases haccepting
      · rw [List.mem_singleton.mp hl, hnone] at hclose
        cases hclose
  · refine ⟨fun _ => ⟨rfl, rfl, rfl, fun t f hf => absurd hf List.not_mem_nil⟩, ?_⟩
    rintro ⟨l, hl, -⟩
    cases hl

/-! ## Registered tasks -/

/-- The tasks that call handlers are registered; no closed runtime has one, and a
closer awaits every other one. -/
structure Registered (s : RuntimeState Task) : Prop where
  shut : Shut s
  called : ∀ t, s.calling t = true → t ∈ s.inflight
  done : ∀ t, s.finished t = true → s.frames t = []
  empty : s.closed = true → ∀ t, s.calling t = false
  gathered : ∀ t pending, .gathering pending ∈ s.frames t →
    s.accepting = false ∧ ∀ u, u ≠ t → s.calling u = true → u ∈ pending

/-- A close that would mark the runtime closed. -/
def Settles (s : RuntimeState Task) (t : Task) : Prop := s.closed = false ∧ s.pending t = []

/-- The steps that keep registered what runs: no call ends inside another one of
its task, and no close marks the runtime closed while its own task calls a handler. -/
def Keeps (s : RuntimeState Task) : Action Task → Prop
  | .leave t _ => (s.frames t).tail.any Frame.isCall = false
  | .close t => s.closeLock = none → s.waiters = [] → Settles s t → s.calling t = false
  | .acquire => ∀ t, s.waiters.head? = some t → Settles s t → s.calling t = false
  | .drained t => s.calling t = false
  | _ => True

/-- The runtime, by such steps. -/
def trackedSystem (Task : Type) [DecidableEq Task] :
    System (RuntimeState Task) (Action Task × Event Task) where
  start := fun s => s = RuntimeState.start
  step := fun s l s' => exec s l.1 = some (s', l.2) ∧ Keeps s l.1

/-- Whether only the task that closed calls handlers, where a close returned. -/
def Drained (s : RuntimeState Task) (e : Event Task) : Prop :=
  ∀ t, e = .closeReturned t → ∀ u, u ≠ t → s.calling u = false

theorem Registered.not_pending (h : Registered s) {u : Task} (hu : u ≠ t) (hcalling : s.calling u = true) :
    u ∈ s.pending t :=
  List.mem_filter.mpr ⟨h.called u hcalling, decide_eq_true hu⟩

omit [DecidableEq Task] in
theorem Registered.frames_nil (h : Registered s) {f : Frame Task} {rest : List (Frame Task)}
    (hframes : s.frames t = f :: rest) : s.finished t = false := by
  cases hfinished : s.finished t with
  | false => rfl
  | true =>
    rw [h.done t hfinished] at hframes
    cases hframes

/-- A frame of a stack where one frame was put on. -/
theorem mem_push {u : Task} {f g : Frame Task} (h : f ∈ (s.setFrames t (g :: s.frames t)).frames u) :
    (u = t ∧ f = g) ∨ f ∈ s.frames u := by
  rw [setFrames_frames] at h
  split at h
  next hu =>
    rcases List.mem_cons.mp h with rfl | h
    · exact .inl ⟨hu, rfl⟩
    · exact .inr (hu ▸ h)
  next => exact .inr h

/-- A frame of a stack where one frame was taken off. -/
theorem mem_pop {u : Task} {f g : Frame Task} {rest : List (Frame Task)} (hframes : s.frames t = g :: rest)
    (h : f ∈ (s.setFrames t rest).frames u) : f ∈ s.frames u := by
  rw [setFrames_frames] at h
  split at h
  next hu => rw [hu, hframes]; exact List.mem_cons_of_mem _ h
  next => exact h

/-- A finished task has an empty stack also where the stack of another changed. -/
theorem done_setFrames {fs : List (Frame Task)} (h : ∀ u, s.finished u = true → s.frames u = [])
    (ht : s.finished t = false) (u : Task) (hu : s.finished u = true) : (s.setFrames t fs).frames u = [] := by
  rw [setFrames_frames]
  split
  next heq =>
    rw [heq, ht] at hu
    cases hu
  next => exact h u hu

omit [DecidableEq Task] in
/-- Frames that are no calls come and go. -/
theorem Registered.reframed {r : RuntimeState Task} (h : Registered s) (hshut : Shut r)
    (hcalling : ∀ u, r.calling u = s.calling u) (hinflight : r.inflight = s.inflight)
    (haccepting : r.accepting = s.accepting) (hclosed : r.closed = s.closed)
    (hdone : ∀ u, r.finished u = true → r.frames u = [])
    (hgathering : ∀ u pending, .gathering pending ∈ r.frames u → .gathering pending ∈ s.frames u) :
    Registered r := by
  refine ⟨hshut, ?_, hdone, ?_, ?_⟩
  · intro u hu
    rw [hcalling] at hu
    rw [hinflight]
    exact h.called u hu
  · intro hclosed' u
    rw [hcalling]
    exact h.empty (hclosed ▸ hclosed') u
  · intro u pending hmem
    have hbefore := h.gathered u pending (hgathering u pending hmem)
    refine ⟨haccepting ▸ hbefore.1, fun v hv hcalls => hbefore.2 v hv ?_⟩
    rwa [hcalling] at hcalls

theorem Registered.entered (h : Registered s) (ht : s.finished t = false)
    (hkeeps : Settles s t → s.calling t = false) :
    Registered (enter s t).1 ∧ Drained (enter s t).1 (enter s t).2 := by
  unfold enter
  by_cases hclosed : s.closed = true
  · rw [if_pos hclosed]
    exact ⟨h, fun u _ v _ => h.empty hclosed v⟩
  · rw [if_neg hclosed]
    have hopen : s.closed = false := Bool.not_eq_true _ ▸ hclosed
    by_cases hpending : s.pending t = []
    · rw [if_pos hpending]
      have hnone : ∀ u, s.calling u = false := by
        intro u
        by_cases hu : u = t
        · rw [hu]
          exact hkeeps ⟨hopen, hpending⟩
        · cases hcalling : s.calling u with
          | false => rfl
          | true =>
            have hmem := h.not_pending hu hcalling
            rw [hpending] at hmem
            cases hmem
      refine ⟨⟨fun haccepting => absurd haccepting (by simp), h.called, h.done, fun _ => hnone, ?_⟩, ?_⟩
      · intro u pending hmem
        exact ⟨rfl, (h.gathered u pending hmem).2⟩
      · intro u heq v hv
        exact hnone v
    · rw [if_neg hpending]
      have hcalling : ∀ u, (({ s with accepting := false, closeLock := some t }).setFrames t
          (.gathering (s.pending t) :: s.frames t)).calling u = s.calling u :=
        fun u => calling_push { s with accepting := false, closeLock := some t } t u rfl
      refine ⟨⟨fun haccepting => absurd haccepting (by simp [RuntimeState.setFrames]), ?_, ?_, ?_, ?_⟩, ?_⟩
      · intro u hu
        rw [hcalling] at hu
        exact h.called u hu
      · exact done_setFrames (s := { s with accepting := false, closeLock := some t }) h.done ht
      · intro hclosed'
        exact absurd hclosed' hclosed
      · intro u pending hmem
        refine ⟨rfl, fun v hv hcalls => ?_⟩
        rw [hcalling] at hcalls
        rcases mem_push (s := { s with accepting := false, closeLock := some t }) hmem with ⟨rfl, hf⟩ | hmem
        · obtain rfl := Frame.gathering.inj hf
          exact h.not_pending hv hcalls
        · exact (h.gathered u pending hmem).2 v hv hcalls
      · intro u heq
        cases heq

/-- **Every such step keeps the tasks registered**, and where a close returns in
it, only the task that closed calls handlers. -/
theorem exec_registered {a : Action Task} {e : Event Task} (h : Registered s) (hkeeps : Keeps s a)
    (hrun : exec s a = some (s', e)) : Registered s' ∧ Drained s' e := by
  have hshut : Shut s' := fun haccepting => (exec_shut h.shut hrun haccepting).2.1
  cases a with
  | invoke t =>
    simp only [exec] at hrun
    split at hrun
    · cases hrun
    next hfree =>
      have ht : s.finished t = false := by
        simp only [RuntimeState.free, Bool.not_eq_false, Bool.and_eq_true, Bool.not_eq_true'] at hfree
        exact hfree.1
      split at hrun
      · obtain ⟨rfl, rfl⟩ := Prod.mk.inj (Option.some.inj hrun)
        exact ⟨h, fun u heq => by cases heq⟩
      next haccepting =>
        obtain ⟨rfl, rfl⟩ := Prod.mk.inj (Option.some.inj hrun)
        have hopen := h.shut (Bool.not_eq_false _ ▸ haccepting)
        refine ⟨⟨hshut, ?_, ?_, ?_, ?_⟩, fun u heq => by cases heq⟩
        · intro u hu
          rw [calling_setFrames] at hu
          show u ∈ if t ∈ s.inflight then s.inflight else t :: s.inflight
          split at hu
          next heq =>
            rw [heq]
            split
            next hmem => exact hmem
            next => exact List.mem_cons_self
          next =>
            have hmem := h.called u hu
            split
            · exact hmem
            · exact List.mem_cons_of_mem _ hmem
        · exact done_setFrames (s := { s with inflight := _ }) h.done ht
        · intro hclosed
          have hnot := hopen.open_
          rw [show s.closed = true from hclosed] at hnot
          cases hnot
        · intro u pending hmem
          rcases mem_push (s := { s with inflight := _ }) hmem with ⟨-, hf⟩ | hmem
          · cases hf
          · exact absurd (hopen.calls u _ hmem) (by simp [Frame.isCall])
  | leave t outcome =>
    simp only [exec] at hrun
    split at hrun
    next rest hframes =>
      obtain ⟨rfl, rfl⟩ := Prod.mk.inj (Option.some.inj hrun)
      have hrest : rest.any Frame.isCall = false := by
        simp only [Keeps, hframes, List.tail_cons] at hkeeps
        exact hkeeps
      have hfewer : ∀ u, (({ s with inflight := s.inflight.filter (· ≠ t) }).setFrames t rest).calling u =
          true → u ≠ t ∧ s.calling u = true := by
        intro u hu
        rw [calling_setFrames] at hu
        split at hu
        · rw [hrest] at hu
          cases hu
        next hne => exact ⟨hne, hu⟩
      refine ⟨⟨hshut, ?_, ?_, ?_, ?_⟩, fun u heq => by cases heq⟩
      · intro u hu
        obtain ⟨hne, hcalling⟩ := hfewer u hu
        exact List.mem_filter.mpr ⟨h.called u hcalling, decide_eq_true hne⟩
      · exact done_setFrames (s := { s with inflight := _ }) h.done (h.frames_nil hframes)
      · intro hclosed u
        cases hu : (({ s with inflight := s.inflight.filter (· ≠ t) }).setFrames t rest).calling u with
        | false => rfl
        | true =>
          obtain ⟨-, hcalling⟩ := hfewer u hu
          rw [h.empty hclosed u] at hcalling
          cases hcalling
      · intro u pending hmem
        have hbefore := h.gathered u pending (mem_pop (s := { s with inflight := _ }) hframes hmem)
        exact ⟨hbefore.1, fun v hv hcalls => hbefore.2 v hv (hfewer v hcalls).2⟩
    · cases hrun
  | close t =>
    simp only [exec] at hrun
    split at hrun
    · cases hrun
    next hfree =>
      have ht : s.finished t = false := by
        simp only [RuntimeState.free, Bool.not_eq_false, Bool.and_eq_true, Bool.not_eq_true'] at hfree
        exact hfree.1
      split at hrun
      · obtain ⟨rfl, rfl⟩ := Prod.mk.inj (Option.some.inj hrun)
        refine ⟨h.reframed hshut (fun u => calling_push { s with waiters := s.waiters ++ [t] } t u rfl) rfl
          rfl rfl (done_setFrames (s := { s with waiters := s.waiters ++ [t] }) h.done ht) ?_,
          fun u heq => by cases heq⟩
        intro u pending hmem
        rcases mem_push (s := { s with waiters := s.waiters ++ [t] }) hmem with ⟨-, hf⟩ | hmem
        · cases hf
        · exact hmem
      next hidle =>
        have hidle' : s.closeLock = none ∧ s.waiters = [] := by simpa using hidle
        have hentered := h.entered ht (hkeeps hidle'.1 hidle'.2)
        rwa [Option.some.inj hrun] at hentered
  | acquire =>
    simp only [exec] at hrun
    split at hrun
    next t rest hlock hwaiters =>
      split at hrun
      next fs hframes =>
        have hcalling : ∀ u, (({ s with waiters := rest }).setFrames t fs).calling u = s.calling u :=
          fun u => calling_pop (s := { s with waiters := rest }) hframes rfl u
        have hpopped : Registered (({ s with waiters := rest }).setFrames t fs) := by
          refine h.reframed ?_ hcalling rfl rfl rfl
            (done_setFrames (s := { s with waiters := rest }) h.done (h.frames_nil hframes))
            (fun u pending hmem => mem_pop (s := { s with waiters := rest }) hframes hmem)
          intro haccepting
          have hnone := (h.shut haccepting).unawaited
          rw [hwaiters] at hnone
          cases hnone
        have hentered := hpopped.entered (t := t) (h.frames_nil hframes) (fun hsettles => by
          rw [hcalling]
          exact hkeeps t (by rw [hwaiters]; rfl) hsettles)
        rwa [Option.some.inj hrun] at hentered
      · cases hrun
    · cases hrun
  | drained t =>
    simp only [exec] at hrun
    split at hrun
    next pending rest hframes =>
      split at hrun
      next hall =>
        obtain ⟨rfl, rfl⟩ := Prod.mk.inj (Option.some.inj hrun)
        have hgathered := h.gathered t pending (by rw [hframes]; exact List.mem_cons_self)
        -- every other call was of a pending task, and these are finished
        have hnone : ∀ u, s.calling u = false := by
          intro u
          by_cases hu : u = t
          · rw [hu]
            exact hkeeps
          · cases hcalling : s.calling u with
            | false => rfl
            | true =>
              have hfinished := List.all_eq_true.mp hall u (hgathered.2 u hu hcalling)
              rw [RuntimeState.calling, h.done u hfinished] at hcalling
              cases hcalling
        have hcalling : ∀ u, (({ s with closed := true, closeLock := none }).setFrames t rest).calling u =
            false := by
          intro u
          rw [calling_pop (s := { s with closed := true, closeLock := none }) hframes rfl u]
          exact hnone u
        refine ⟨⟨hshut, ?_, ?_, fun _ => hcalling, ?_⟩, fun u _ v _ => hcalling v⟩
        · intro u hu
          rw [hcalling] at hu
          cases hu
        · exact done_setFrames (s := { s with closed := true, closeLock := none }) h.done (h.frames_nil hframes)
        · intro u pending' hmem
          refine ⟨hgathered.1, fun v hv hcalls => ?_⟩
          rw [hcalling] at hcalls
          cases hcalls
      · cases hrun
    · cases hrun
  | cancelClose t =>
    simp only [exec] at hrun
    split at hrun
    next rest hframes =>
      obtain ⟨rfl, rfl⟩ := Prod.mk.inj (Option.some.inj hrun)
      exact ⟨h.reframed hshut
        (fun u => calling_pop (s := { s with waiters := s.waiters.filter (· ≠ t) }) hframes rfl u) rfl rfl rfl
        (done_setFrames (s := { s with waiters := s.waiters.filter (· ≠ t) }) h.done (h.frames_nil hframes))
        (fun u pending hmem => mem_pop (s := { s with waiters := s.waiters.filter (· ≠ t) }) hframes hmem),
        fun u heq => by cases heq⟩
    next pending rest hframes =>
      obtain ⟨rfl, rfl⟩ := Prod.mk.inj (Option.some.inj hrun)
      exact ⟨h.reframed hshut (fun u => calling_pop (s := { s with closeLock := none }) hframes rfl u) rfl rfl rfl
        (done_setFrames (s := { s with closeLock := none }) h.done (h.frames_nil hframes))
        (fun u pending' hmem => mem_pop (s := { s with closeLock := none }) hframes hmem),
        fun u heq => by cases heq⟩
    · cases hrun
  | finish t =>
    simp only [exec] at hrun
    split at hrun
    next hidle =>
      obtain ⟨rfl, rfl⟩ := Prod.mk.inj (Option.some.inj hrun)
      refine ⟨⟨hshut, h.called, fun u hu => ?_, h.empty, h.gathered⟩, fun u heq => by cases heq⟩
      by_cases heq : u = t
      · rw [heq]
        exact hidle.1
      · exact h.done u (by simpa [heq] using hu)
    · cases hrun

omit [DecidableEq Task] in
theorem registered_start : Registered (RuntimeState.start : RuntimeState Task) where
  shut := fun _ => ⟨rfl, rfl, rfl, fun _ _ hf => absurd hf List.not_mem_nil⟩
  called := fun _ h => absurd h (by simp [RuntimeState.calling, RuntimeState.start])
  done := fun _ _ => rfl
  empty := fun _ _ => rfl
  gathered := fun _ _ hmem => absurd hmem List.not_mem_nil

/-! ## Runs -/

theorem trackedSystem_run {ls : List (Action Task × Event Task)} {s s' : RuntimeState Task}
    (h : Run (trackedSystem Task) s ls s') : Run (runtimeSystem Task) s ls s' := by
  induction h with
  | done s => exact .done s
  | next hstep _ ih => exact .next hstep.1 ih

/-- **A close that returns leaves no call but those of its own task, and after
it has begun no handler starts**: at every step of every run that keeps the
tasks registered. -/
theorem close_drains {ls : List (Action Task × Event Task)} {s s' : RuntimeState Task} {l : Action Task × Event Task}
    (h : Run (trackedSystem Task) .start ls s) (hstep : (trackedSystem Task).step s l s') :
    (∀ t, l.2 = .closeReturned t → ∀ u, u ≠ t → s'.calling u = false) ∧
      ((∃ l' ∈ ls, l'.1.isClose = true) → ∀ t, l.2 ≠ .started t) := by
  have hkept : ∀ s l s', Registered s → (trackedSystem Task).step s l s' → Registered s' := by
    intro s l s' hi hrun
    exact (exec_registered hi hrun.2 hrun.1).1
  have hregistered : Registered s := h.invariant hkept registered_start
  refine ⟨(exec_registered hregistered hstep.2 hstep.1).2, fun hclose t heq => ?_⟩
  have hrefused := (run_begun (trackedSystem_run h)).2 hclose
  have hrun := hstep.1
  rw [heq] at hrun
  rw [exec_started hrun] at hrefused
  cases hrefused

/-- A close waits for the one call of another task. -/
theorem close_drains_waiting : ∃ ls s s', Run (trackedSystem Nat) .start ls s ∧
    exec s (.drained 2) = some (s', .closeReturned 2) ∧ s'.calling 1 = false := by
  have hrun : ∃ s s', Run (trackedSystem Nat) .start [(.invoke 1, .started 1), (.close 2, .waits 2),
      (.leave 1 .returned, .left 1 .returned), (.finish 1, .finished 1)] s ∧
      (trackedSystem Nat).step s (.drained 2, .closeReturned 2) s' :=
    ⟨_, _, .next ⟨rfl, trivial⟩ (.next ⟨rfl, fun _ _ _ => rfl⟩ (.next ⟨rfl, rfl⟩ (.next ⟨rfl, trivial⟩ (.done _)))),
      rfl, rfl⟩
  obtain ⟨s, s', hrun, hstep⟩ := hrun
  exact ⟨_, s, s', hrun, hstep.1, (close_drains hrun hstep).1 2 rfl 1 (by decide)⟩

/-- **A close returns while a call of another task runs**: a call inside that
call has ended, or that task has closed the runtime itself. -/
theorem close_loses_calls :
    (∃ s, Run (runtimeSystem Nat) .start [(.invoke 1, .started 1), (.invoke 1, .started 1),
        (.leave 1 .returned, .left 1 .returned), (.close 2, .closeReturned 2)] s ∧ s.calling 1 = true) ∧
      ∃ s, Run (runtimeSystem Nat) .start [(.invoke 1, .started 1), (.close 1, .closeReturned 1),
        (.close 2, .closeReturned 2)] s ∧ s.calling 1 = true :=
  ⟨⟨_, .next rfl (.next rfl (.next rfl (.next rfl (.done _)))), rfl⟩,
    _, .next rfl (.next rfl (.next rfl (.done _))), rfl⟩

end QuantumEntanglement.AgentRuntime
