import QuantumEntanglement.Publisher.Attempt

/-
  The fleet — any number of publishers over one outbox

  A publisher runs one cycle at a time: it claims a batch, publishes its
  messages as concurrent attempts, and counts the batch when all of them
  returned. A cancelled cycle cancels its attempts, waits for them and counts
  no batch. Between any two steps a publisher may crash, and then its attempts
  are gone and a fresh one takes its place.

  `fleetSystem` interleaves the steps of all publishers with those of clients
  who enqueue messages and of an operator who resolves ambiguities. A label is
  an action with what it showed.
-/

namespace QuantumEntanglement.Publisher

open Transaction TransitionSystem Outbox Sha256 IsoTime

/-- A running cycle. -/
structure Cycle (py : PyVersion) where
  attempts : List (Attempt py)
  cancelling : Bool

/-- A publisher: its counters, the connector calls it gave up on and that still
run, and its cycle. -/
structure OutboxPublisher (py : PyVersion) where
  counters : Counters
  abandoned : Nat
  cycle : Option (Cycle py)

def OutboxPublisher.fresh {py : PyVersion} : OutboxPublisher py := ⟨{}, 0, none⟩

/-- The outbox, the digests of the lease tokens drawn so far, and the publishers. -/
structure Fleet (py : PyVersion) where
  db : Db
  issued : List String
  publishers : Nat → OutboxPublisher py

def Fleet.start {py : PyVersion} : Fleet py := ⟨Db.empty, [], fun _ => .fresh⟩

/-- The fleet with one publisher replaced. -/
def Fleet.put {py : PyVersion} (s : Fleet py) (p : Nat) (me : OutboxPublisher py) : Fleet py :=
  { s with publishers := Function.update s.publishers p me }

/-- A step of the fleet. -/
inductive Action (py : PyVersion) where
  | enqueue (event : DomainEvent) (messages : List (OutboxMessage py)) (expectedVersion : Option Int)
  | resolve (messageId digest : String) (resolution : AmbiguityResolution)
      (resolvedAt retryAt : Option String) (now : UtcMoment)
  | claim (p : Nat) (clock : String) (supply : Nat → String) (fault : Fault) (cancelled : Bool)
  | attempt (p i : Nat) (event : AttemptEvent)
  | cancelCycle (p : Nat)
  | finish (p : Nat)
  | callbackDone (p : Nat)
  | crash (p : Nat)

variable [SqliteTime] {cfg : StoreConfig}

/-! ## Claiming a batch -/

/-- What the store leased, whether or not the caller learnt of it. -/
def leasedOf (fault : Fault) (call : OutboxCall cfg.py) (db : Db) :
    List (StoredOutboxMessage cfg.py) :=
  match fault with
  | .before => []
  | _ =>
    match (call.exec db).1 with
    | .claimed ms => ms
    | _ => []

/-- The digest a lease is known by. -/
def leaseDigest {py : PyVersion} (x : StoredOutboxMessage py) : String :=
  hexDigest (x.leaseToken.getD "")

/-- Lease tokens are never drawn twice, nor two of one digest. -/
def Drawable {py : PyVersion} (issued : List String) (ms : List (StoredOutboxMessage py)) : Prop :=
  (ms.map leaseDigest).Nodup ∧ ∀ d ∈ ms.map leaseDigest, d ∉ issued

instance {py : PyVersion} (issued : List String) (ms : List (StoredOutboxMessage py)) :
    Decidable (Drawable issued ms) :=
  inferInstanceAs (Decidable (_ ∧ _))

/-- The call a publisher claims its batch with. -/
def claimCall (pub : PublisherConfig) (me : OutboxPublisher cfg.py) (clock : String)
    (supply : Nat → String) : OutboxCall cfg.py :=
  .claim pub.workerId (min pub.batchSize (pub.maxCallbackTasks - me.abandoned) : Nat)
    (timedeltaMicros pub.leaseSeconds) clock supply

/-- The publisher after the claim's answer. -/
def afterClaim {py : PyVersion} (me : OutboxPublisher py) : OutboxReply py → OutboxPublisher py
  | .claimed [] => { me with counters := me.counters.recordBatch {} }
  | .claimed ms => { me with cycle := some ⟨ms.map (⟨·, .created⟩), false⟩ }
  | _ => { me with counters := me.counters.recordBatch { storeErrors := 1 } }

/-- `run_once`, up to the start of its attempts. -/
def claimBatch (pub : PublisherConfig) (s : Fleet cfg.py) (p : Nat) (clock : String)
    (supply : Nat → String) (fault : Fault) (cancelled : Bool) :
    Option (Fleet cfg.py × Report cfg.py) :=
  let me := s.publishers p
  if me.cycle.isSome then none
  else if pub.maxCallbackTasks ≤ me.abandoned then
    some (s.put p { me with counters := me.counters.recordBatch { admissionRejected := 1 } }, .quiet)
  else
    let call := claimCall pub me clock supply
    let out := faulty fault call s.db
    let leased := leasedOf fault call s.db
    if Drawable s.issued leased then
      let s' : Fleet cfg.py :=
        ⟨out.2, s.issued ++ leased.map leaseDigest, s.publishers⟩
      some (s'.put p (if cancelled then { me with counters := me.counters.cancelCycle }
        else afterClaim me out.1), .leased leased)
    else none

/-! ## Attempts of a cycle -/

/-- An event that carries a cancellation. -/
def AttemptEvent.cancels : AttemptEvent → Bool
  | .cancel => true
  | .acknowledged _ _ cancelled => cancelled
  | .marked _ _ _ cancelled => cancelled
  | .rejected _ _ _ _ cancelled => cancelled
  | _ => false

/-- A connector call that is given up on while it runs. -/
def givesUp (phase : Phase) (event : AttemptEvent) : Nat :=
  if phase = .invoking ∧ (event = .deadline ∨ event = .cancel) then 1 else 0

/-- One event of one attempt of a publisher's cycle. -/
def stepAttempt (pub : PublisherConfig) (s : Fleet cfg.py) (p i : Nat) (event : AttemptEvent) :
    Option (Fleet cfg.py × Report cfg.py) :=
  let me := s.publishers p
  match me.cycle with
  | none => none
  | some c =>
    match c.attempts[i]? with
    | none => none
    | some a =>
      match a.step pub event me.counters s.db with
      | none => none
      | some out =>
        let s' : Fleet cfg.py := { s with db := out.db }
        some (s'.put p
          { counters := out.counters
            abandoned := me.abandoned + givesUp a.phase event
            cycle := some ⟨c.attempts.set i { a with phase := out.phase },
              c.cancelling || event.cancels⟩ }, out.report)

/-- The outcome of an attempt that returned. -/
def Attempt.outcome? {py : PyVersion} (a : Attempt py) : Option AttemptOutcome :=
  match a.phase with
  | .returned o => some o
  | _ => none

/-- An attempt whose task is done. -/
def Attempt.isDone {py : PyVersion} (a : Attempt py) : Bool :=
  match a.phase with
  | .returned _ => true
  | .cancelled => true
  | _ => false

/-- `run_once` from its gather: a batch is counted where every attempt
returned and nobody cancelled the cycle. -/
def finishCycle (s : Fleet cfg.py) (p : Nat) : Option (Fleet cfg.py × Report cfg.py) :=
  let me := s.publishers p
  match me.cycle with
  | none => none
  | some c =>
    if c.attempts.all (·.isDone) then
      if !c.cancelling && c.attempts.all (·.outcome?.isSome) then
        some (s.put p { me with
          counters := me.counters.recordBatch (batchOf (c.attempts.filterMap (·.outcome?)))
          cycle := none }, .quiet)
      else some (s.put p { me with counters := me.counters.cancelCycle, cycle := none }, .quiet)
    else none

/-! ## The system -/

/-- What a resolution reports. -/
def resolveReport {py : PyVersion} (messageId : String) (resolution : AmbiguityResolution) :
    OutboxReply py → Report py
  | .held true => .resolved messageId resolution
  | _ => .quiet

/-- A call of somebody who is no publisher. -/
def clientStep (s : Fleet cfg.py) (call : OutboxCall cfg.py)
    (report : OutboxReply cfg.py → Report cfg.py) : Option (Fleet cfg.py × Report cfg.py) :=
  let out := call.exec s.db
  some ({ s with db := out.2 }, report out.1)

/-- **One step of the fleet.** -/
def Action.exec (configs : Nat → PublisherConfig) (action : Action cfg.py) (s : Fleet cfg.py) :
    Option (Fleet cfg.py × Report cfg.py) :=
  match action with
  | .enqueue event messages expected =>
    clientStep s (.enqueue event messages expected) fun _ => .quiet
  | .resolve messageId digest resolution resolvedAt retryAt now =>
    clientStep s (.resolve messageId digest resolution resolvedAt retryAt now)
      (resolveReport messageId resolution)
  | .claim p clock supply fault cancelled => claimBatch (configs p) s p clock supply fault cancelled
  | .attempt p i event => stepAttempt (configs p) s p i event
  | .cancelCycle p =>
    let me := s.publishers p
    match me.cycle with
    | none => some (s.put p { me with counters := me.counters.cancelCycle }, .quiet)
    | some c => some (s.put p { me with cycle := some { c with cancelling := true } }, .quiet)
  | .finish p => finishCycle s p
  | .callbackDone p =>
    let me := s.publishers p
    if me.abandoned = 0 then none
    else some (s.put p { me with abandoned := me.abandoned - 1 }, .quiet)
  | .crash p => some (s.put p .fresh, .restarted)

/-- The fleet from an empty outbox. -/
def fleetSystem (cfg : StoreConfig) (configs : Nat → PublisherConfig) :
    System (Fleet cfg.py) (Action cfg.py × Report cfg.py) :=
  ⟨fun s => s = Fleet.start, fun s l s' => l.1.exec configs s = some (s', l.2)⟩

/-! ## What a step can do -/

section Cases

variable {configs : Nat → PublisherConfig} {s s' : Fleet cfg.py} {r : Report cfg.py} {p : Nat}

@[simp] theorem Fleet.put_db (s : Fleet cfg.py) (p : Nat) (me : OutboxPublisher cfg.py) :
    (s.put p me).db = s.db := rfl

@[simp] theorem Fleet.put_issued (s : Fleet cfg.py) (p : Nat) (me : OutboxPublisher cfg.py) :
    (s.put p me).issued = s.issued := rfl

@[simp] theorem Fleet.put_self (s : Fleet cfg.py) (p : Nat) (me : OutboxPublisher cfg.py) :
    (s.put p me).publishers p = me := Function.update_self _ _ _

theorem Fleet.put_other (s : Fleet cfg.py) {p q : Nat} (me : OutboxPublisher cfg.py) (h : q ≠ p) :
    (s.put p me).publishers q = s.publishers q := Function.update_of_ne h _ _

/-- A claim found the publisher idle. It was turned away by its own callbacks,
or it made its call. -/
theorem claimBatch_cases {pub : PublisherConfig} {clock : String} {supply : Nat → String}
    {fault : Fault} {cancelled : Bool}
    (h : claimBatch pub s p clock supply fault cancelled = some (s', r)) :
    (s.publishers p).cycle = none ∧
      ((r = .quiet ∧ s' = s.put p { s.publishers p with
          counters := (s.publishers p).counters.recordBatch { admissionRejected := 1 } }) ∨
        ∃ call, call = claimCall pub (s.publishers p) clock supply ∧
          Drawable s.issued (leasedOf fault call s.db) ∧ r = .leased (leasedOf fault call s.db) ∧
          s' = Fleet.put ⟨(faulty fault call s.db).2,
            s.issued ++ (leasedOf fault call s.db).map leaseDigest, s.publishers⟩ p
            (if cancelled then
              { s.publishers p with counters := (s.publishers p).counters.cancelCycle }
            else afterClaim (s.publishers p) (faulty fault call s.db).1)) := by
  unfold claimBatch at h
  by_cases hcycle : (s.publishers p).cycle.isSome = true
  · rw [if_pos hcycle] at h
    exact absurd h (by simp)
  rw [if_neg hcycle] at h
  refine ⟨by simpa using hcycle, ?_⟩
  by_cases hfull : pub.maxCallbackTasks ≤ (s.publishers p).abandoned
  · rw [if_pos hfull, Option.some.injEq, Prod.mk.injEq] at h
    exact .inl ⟨h.2.symm, h.1.symm⟩
  rw [if_neg hfull] at h
  by_cases hdraw : Drawable s.issued
      (leasedOf fault (claimCall pub (s.publishers p) clock supply) s.db)
  · rw [if_pos hdraw, Option.some.injEq, Prod.mk.injEq] at h
    exact .inr ⟨_, rfl, hdraw, h.2.symm, h.1.symm⟩
  · rw [if_neg hdraw] at h
    exact absurd h (by simp)

/-- An event reached one attempt of the publisher's cycle. -/
theorem stepAttempt_cases {pub : PublisherConfig} {i : Nat} {event : AttemptEvent}
    (h : stepAttempt pub s p i event = some (s', r)) :
    ∃ c a out, (s.publishers p).cycle = some c ∧ c.attempts[i]? = some a ∧
      AttemptStep pub a (s.publishers p).counters s.db event out ∧ r = out.report ∧
      s' = Fleet.put { s with db := out.db } p
        { counters := out.counters
          abandoned := (s.publishers p).abandoned + givesUp a.phase event
          cycle := some ⟨c.attempts.set i { a with phase := out.phase },
            c.cancelling || event.cancels⟩ } := by
  unfold stepAttempt at h
  cases hcycle : (s.publishers p).cycle with
  | none => simp [hcycle] at h
  | some c =>
    cases ha : c.attempts[i]? with
    | none => simp [hcycle, ha] at h
    | some a =>
      cases hout : a.step pub event (s.publishers p).counters s.db with
      | none => simp [hcycle, ha, hout] at h
      | some out =>
        simp only [hcycle, ha, hout, Option.some.injEq, Prod.mk.injEq] at h
        exact ⟨c, a, out, rfl, ha, Attempt.step_cases hout, h.2.symm, h.1.symm⟩

/-- A cycle ended once all its attempts had: it was counted where they all
returned, and not counted otherwise. -/
theorem finishCycle_cases (h : finishCycle s p = some (s', r)) :
    ∃ c, (s.publishers p).cycle = some c ∧ c.attempts.all (·.isDone) = true ∧ r = .quiet ∧
      ((c.attempts.all (·.outcome?.isSome) = true ∧ s' = s.put p { s.publishers p with
          counters := (s.publishers p).counters.recordBatch
            (batchOf (c.attempts.filterMap (·.outcome?)))
          cycle := none }) ∨
        s' = s.put p { s.publishers p with
          counters := (s.publishers p).counters.cancelCycle
          cycle := none }) := by
  unfold finishCycle at h
  cases hcycle : (s.publishers p).cycle with
  | none => simp [hcycle] at h
  | some c =>
    simp only [hcycle] at h
    by_cases hdone : c.attempts.all (·.isDone) = true
    · rw [if_pos hdone] at h
      refine ⟨c, rfl, hdone, ?_⟩
      split at h
      next hall =>
        rw [Option.some.injEq, Prod.mk.injEq] at h
        rw [Bool.and_eq_true] at hall
        exact ⟨h.2.symm, .inl ⟨hall.2, h.1.symm⟩⟩
      next =>
        rw [Option.some.injEq, Prod.mk.injEq] at h
        exact ⟨h.2.symm, .inr h.1.symm⟩
    · rw [if_neg hdone] at h
      exact absurd h (by simp)

end Cases

/-! ## Runs of given actions -/

/-- The labels of a list of actions, and the fleet they leave; `none` where one
of them is not enabled. -/
def runActions (configs : Nat → PublisherConfig) :
    List (Action cfg.py) → Fleet cfg.py → Option (List (Action cfg.py × Report cfg.py) × Fleet cfg.py)
  | [], s => some ([], s)
  | action :: rest, s =>
    match action.exec configs s with
    | none => none
    | some (s', r) =>
      match runActions configs rest s' with
      | none => none
      | some (ls, s'') => some ((action, r) :: ls, s'')

theorem runActions_run {configs : Nat → PublisherConfig} {actions : List (Action cfg.py)}
    {s s' : Fleet cfg.py} {ls : List (Action cfg.py × Report cfg.py)}
    (h : runActions configs actions s = some (ls, s')) : Run (fleetSystem cfg configs) s ls s' := by
  induction actions generalizing s ls with
  | nil =>
    simp only [runActions, Option.some.injEq, Prod.mk.injEq] at h
    obtain ⟨rfl, rfl⟩ := h
    exact .done s
  | cons action rest ih =>
    rw [runActions] at h
    cases hstep : action.exec configs s with
    | none => simp [hstep] at h
    | some out =>
      cases hrest : runActions configs rest out.1 with
      | none => simp [hstep, hrest] at h
      | some tail =>
        simp only [hstep, hrest, Option.some.injEq, Prod.mk.injEq] at h
        obtain ⟨rfl, rfl⟩ := h
        exact .next hstep (ih hrest)

/-- A publisher that gives a message one attempt. -/
def sampleConfig : PublisherConfig where
  workerId := "w"
  batchSize := 32
  leaseSeconds := 30
  publishTimeout := 10
  maxAttempts := 1
  maxCallbackTasks := 64
  allowedErrorCodes := []
  named := by decide
  positive := by decide +kernel
  leaseLonger := by decide +kernel

/-- 2024-01-01T00:00:00Z. -/
def sampleNow : UtcMoment := ⟨63839750400000000, by decide +kernel⟩

end QuantumEntanglement.Publisher
