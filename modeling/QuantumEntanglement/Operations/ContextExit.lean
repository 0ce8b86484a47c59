import Mathlib

/-
  The composer as a context manager — leaving the block

  Entering a block leaves a lease with the composer, bound to the thread and to
  the exit of that block. The exit consumes the lease, closes the composer and
  retires the lease, each in a call of its own that may fail before or after it
  took effect. Where the consumption is not acknowledged it is read back, twice
  at most; if that fails as well, the composer is closed all the same.

  What is proved:
    1. `authenticate_spec` — what the exit knows once it has consumed the lease
       or read it back.
    2. `returned_iff` — the exit returns exactly if every call went well.
    3. `closes_consumed` — a consumed lease closes the composer.
    4. `keeps_open` — another lease than the active one of the thread does not.
    5. `context_exit` — the three, for every pattern of faults.
-/

namespace QuantumEntanglement.ContextExit

/-! ## Calls that may fail -/

inductive ControlSignal where
  | keyboardInterrupt
  | systemExit
  | generatorExit
  | cancelledError
  deriving DecidableEq

/-- A status of `SystemExit` that is kept. -/
inductive SystemExitStatus where
  | flag (value : Bool)
  | code (value : Fin 256)
  deriving DecidableEq

/-- `_BoundaryFailure`: a public code, or a control signal, or neither. -/
structure BoundaryFailure where
  operationCode : Option String
  controlSignal : Option ControlSignal
  systemExitStatus : Option SystemExitStatus
  deriving DecidableEq

/-- `OperationAuthorizationError(code)`, caught. -/
def operationFailure (code : String) : BoundaryFailure := ⟨some code, none, none⟩

def internalFailure : String := "protected_operation_internal_failure"

def processMismatch : String := "protected_operation_process_mismatch"

/-- `_ProtectedOperationContextLease`; objects by their identity. -/
structure ContextLease where
  active : Bool
  consumed : Bool
  entryCallback : Nat
  exitBound : Bool
  ownerThreadToken : Nat
  token : Nat
  deriving DecidableEq

/-- What the exit reads and writes of the composer. -/
structure ComposerState where
  closed : Bool
  registryClosed : Bool
  contextLease : Option ContextLease
  deriving DecidableEq

/-- Where the exit runs: the token of the thread, and whether the process is
the one that made the composer. -/
structure Place where
  threadToken : Nat
  ownProcess : Bool

/-- A call: what it answers or raises, and what it leaves. -/
abbrev Action (α : Type) : Type := ComposerState → Except BoundaryFailure α × ComposerState

/-- What goes wrong with a call from outside: something is raised before it
takes effect, or after. -/
inductive Fault where
  | never
  | before (failure : BoundaryFailure)
  | after (failure : BoundaryFailure)
  deriving DecidableEq

/-- `_invoke_boundary`. -/
def invokeBoundary {α : Type} (fault : Fault) (action : Action α) : Action α := fun s =>
  match fault with
  | .never => action s
  | .before failure => (.error failure, s)
  | .after failure => (.error failure, (action s).2)

section

variable {α : Type} (failure : BoundaryFailure) (action : Action α) (s : ComposerState)

@[simp] theorem invokeBoundary_never : invokeBoundary .never action s = action s := rfl

@[simp] theorem invokeBoundary_before :
    invokeBoundary (.before failure) action s = (.error failure, s) := rfl

@[simp] theorem invokeBoundary_after :
    invokeBoundary (.after failure) action s = (.error failure, (action s).2) := rfl

end

/-- The faults of the calls of one exit. -/
structure Faults where
  consume : Fault
  reconcile : Nat → Fault
  close : Fault
  closeRegistry : Fault
  finalize : Fault

section Code

variable (place : Place) (faults : Faults)

/-- `_ensure_process`, and then the call. -/
def ensureProcess {α : Type} (action : Action α) : Action α := fun s =>
  if place.ownProcess then action s else (.error (operationFailure processMismatch), s)

/-- `_consume_context_exit_lease`. -/
def consumeContextExitLease (lease : Nat) : Action Bool := ensureProcess place fun s =>
  match s.contextLease with
  | none => (.error (operationFailure internalFailure), s)
  | some c =>
    if !c.active || c.consumed || !c.exitBound || c.ownerThreadToken != place.threadToken ||
        c.token != lease then
      (.error (operationFailure internalFailure), s)
    else (.ok true, { s with contextLease := some { c with active := true, consumed := true, exitBound := true } })

/-- `_reconcile_context_exit_lease`. -/
def reconcileContextExitLease (lease : Nat) : Action Bool := ensureProcess place fun s =>
  match s.contextLease with
  | none => (.ok false, s)
  | some c =>
    (.ok (c.active && c.consumed && c.exitBound && c.ownerThreadToken == place.threadToken &&
      c.token == lease), s)

/-- `_finalize_context_exit_lease`. -/
def finalizeContextExitLease (lease : Nat) : Action Bool := ensureProcess place fun s =>
  match s.contextLease with
  | none => (.ok false, s)
  | some c =>
    if !c.active || !c.consumed || !c.exitBound || c.ownerThreadToken != place.threadToken ||
        c.token != lease then
      (.ok false, s)
    else (.ok true, { s with contextLease := none })

/-- What the public method raises of a failure that was caught. -/
def rethrown (failure : BoundaryFailure) : BoundaryFailure :=
  match failure.controlSignal with
  | some signal => ⟨none, some signal, failure.systemExitStatus⟩
  | none => operationFailure (failure.operationCode.getD internalFailure)

/-- `close` of the registry. -/
def closeRegistry : Action Unit := fun s =>
  match invokeBoundary faults.closeRegistry
      (ensureProcess place fun s => (.ok (), { s with registryClosed := true })) s with
  | (.ok _, s) => (.ok (), s)
  | (.error failure, s) => (.error (rethrown failure), s)

/-- `_close` of the composer. -/
def close : Action Unit := ensureProcess place fun s =>
  closeRegistry place faults { s with closed := true }

/-! ## The exit -/

def contextExitReconciliationAttempts : Nat := 2

/-- What the exit knows of the lease it was called with. -/
structure Authentication where
  authenticated : Bool
  cleanupRequired : Bool
  pendingFailure : Option BoundaryFailure

/-- The rounds that read the consumption back. -/
def reconcile (lease : Nat) : Nat → Nat → Option BoundaryFailure → ComposerState →
    Authentication × ComposerState
  | 0, _, pending, s => (⟨false, true, pending⟩, s)
  | rounds + 1, attempt, pending, s =>
    match invokeBoundary (faults.reconcile attempt) (reconcileContextExitLease place lease) s with
    | (.error failure, s) => reconcile lease rounds (attempt + 1) (some failure) s
    | (.ok reconciled, s) => (⟨reconciled, reconciled, pending⟩, s)

/-- The first part of `__exit__`. -/
def authenticate : Option Nat → ComposerState → Authentication × ComposerState
  | none, s => (⟨false, true, none⟩, s)
  | some lease, s =>
    match invokeBoundary faults.consume (consumeContextExitLease place lease) s with
    | (.ok true, s) => (⟨true, true, none⟩, s)
    | (.ok false, s) => reconcile place faults lease contextExitReconciliationAttempts 1 none s
    | (.error failure, s) =>
      reconcile place faults lease contextExitReconciliationAttempts 1 (some failure) s

/-- What the closing and the retiring came to. -/
structure Cleanup where
  cleanupFailure : Option BoundaryFailure
  finalized : Option Bool
  finalizationFailure : Option BoundaryFailure

def failureOf {α : Type} : Except BoundaryFailure α → Option BoundaryFailure
  | .ok _ => none
  | .error failure => some failure

def valueOf {α : Type} : Except BoundaryFailure α → Option α
  | .ok value => some value
  | .error _ => none

/-- The `finally` of `__exit__`. -/
def cleanUp (required : Bool) (lease : Option Nat) (s : ComposerState) : Cleanup × ComposerState :=
  if required then
    let (cleanup, s) := invokeBoundary faults.close (close place faults) s
    match lease with
    | none => (⟨failureOf cleanup, none, none⟩, s)
    | some lease =>
      let (finalized, s) := invokeBoundary faults.finalize (finalizeContextExitLease place lease) s
      (⟨failureOf cleanup, valueOf finalized, failureOf finalized⟩, s)
  else (⟨none, none, none⟩, s)

/-- What is raised, if anything; a failure of no kind is an internal one. -/
inductive Selected where
  | nothing
  | failure (failure : Option BoundaryFailure)

def selectFailure (lease : Option Nat) (known : Authentication) (cleanup : Cleanup) : Selected :=
  if lease = none then
    match cleanup.cleanupFailure with
    | none => .nothing
    | some failure => .failure (some failure)
  else if !known.authenticated then .failure known.pendingFailure
  else if cleanup.finalizationFailure.isSome then .failure cleanup.finalizationFailure
  else if cleanup.finalized ≠ some true then .failure none
  else if cleanup.cleanupFailure.isSome then .failure cleanup.cleanupFailure
  else if known.pendingFailure.isSome then .failure known.pendingFailure
  else .nothing

/-- An exception by the identities of its type, value and trace, and the signal
its value is of, if any. -/
structure Raised where
  excType : Option Nat
  excValue : Option Nat
  trace : Option Nat
  signal : Option ControlSignal
  deriving DecidableEq

/-- The block ended with the control signal that is being handled. -/
def originatingControlSignal (presented active : Raised) : Bool :=
  active.excType == presented.excType && active.excValue == presented.excValue &&
    active.trace == presented.trace && presented.signal.isSome

inductive Outcome where
  | returned
  | raised (code : String)
  | signalled (signal : ControlSignal) (status : Option SystemExitStatus)
  deriving DecidableEq

/-- The rethrow at the end of `__exit__`. -/
def rethrow (failure : Option BoundaryFailure) : Outcome :=
  match failure with
  | none => .raised internalFailure
  | some failure =>
    match failure.controlSignal with
    | some signal => .signalled signal failure.systemExitStatus
    | none => .raised (failure.operationCode.getD internalFailure)

/-- `__exit__`. -/
def exit (lease : Option Nat) (presented active : Raised) (s : ComposerState) :
    Outcome × ComposerState :=
  let (known, s) := authenticate place faults lease s
  let (cleanup, s) := cleanUp place faults known.cleanupRequired lease s
  if known.authenticated && originatingControlSignal presented active then (.returned, s)
  else
    match selectFailure lease known cleanup with
    | .nothing => (.returned, s)
    | .failure failure => (rethrow failure, s)

end Code

/-! ## One call -/

section Calls

variable (place : Place)

/-- The active lease of the current thread. -/
def ActiveLease (lease : Nat) (s : ComposerState) : Prop :=
  ∃ c, s.contextLease = some c ∧ c.active = true ∧ c.ownerThreadToken = place.threadToken ∧
    c.token = lease

/-- The lease, consumed or not. -/
def HoldsLease (consumed : Bool) (lease : Nat) (s : ComposerState) : Prop :=
  ∃ c, s.contextLease = some c ∧ c.active = true ∧ c.consumed = consumed ∧ c.exitBound = true ∧
    c.ownerThreadToken = place.threadToken ∧ c.token = lease

instance (consumed : Bool) (lease : Nat) (s : ComposerState) :
    Decidable (HoldsLease place consumed lease s) :=
  match h : s.contextLease with
  | none => isFalse fun hheld => by
      obtain ⟨c, hc, -⟩ := hheld
      rw [h] at hc
      cases hc
  | some c => decidable_of_iff (c.active = true ∧ c.consumed = consumed ∧ c.exitBound = true ∧
      c.ownerThreadToken = place.threadToken ∧ c.token = lease)
      ⟨fun hheld => ⟨c, h, hheld⟩, fun hheld => by
        obtain ⟨c', hc, hheld⟩ := hheld
        rw [h] at hc
        cases hc
        exact hheld⟩

variable {place}

theorem HoldsLease.active {consumed : Bool} {lease : Nat} {s : ComposerState}
    (h : HoldsLease place consumed lease s) : ActiveLease place lease s := by
  obtain ⟨c, hc, hactive, -, -, howner, htoken⟩ := h
  exact ⟨c, hc, hactive, howner, htoken⟩

/-- The lease, once it is consumed. -/
def ComposerState.consume (s : ComposerState) : ComposerState :=
  { s with contextLease := s.contextLease.map fun c =>
      { c with active := true, consumed := true, exitBound := true } }

theorem HoldsLease.consume {lease : Nat} {s : ComposerState} (h : HoldsLease place false lease s) :
    HoldsLease place true lease s.consume := by
  obtain ⟨c, hc, -, -, -, howner, htoken⟩ := h
  refine ⟨{ c with active := true, consumed := true, exitBound := true }, ?_, rfl, rfl, rfl, howner,
    htoken⟩
  rw [ComposerState.consume, hc]
  rfl

/-- **Consuming** takes the active lease of the thread, if it was not consumed. -/
theorem consume_call (lease : Nat) (s : ComposerState) :
    (place.ownProcess = true ∧ HoldsLease place false lease s ∧
      consumeContextExitLease place lease s = (.ok true, s.consume)) ∨
    (¬(place.ownProcess = true ∧ HoldsLease place false lease s) ∧
      ∃ failure, consumeContextExitLease place lease s = (.error failure, s)) := by
  by_cases hown : place.ownProcess = true
  · by_cases hheld : HoldsLease place false lease s
    · refine .inl ⟨hown, hheld, ?_⟩
      obtain ⟨c, hc, hactive, hconsumed, hbound, howner, htoken⟩ := hheld
      simp [consumeContextExitLease, ensureProcess, hown, hc, hactive, hconsumed, hbound, howner,
        htoken, ComposerState.consume]
    · refine .inr ⟨fun h => hheld h.2, operationFailure internalFailure, ?_⟩
      rw [consumeContextExitLease, ensureProcess, if_pos hown]
      cases hc : s.contextLease with
      | none => rfl
      | some c =>
        simp only
        rw [if_pos]
        by_contra hno
        simp only [Bool.or_eq_true, Bool.not_eq_true', bne_iff_ne, ne_eq, not_or,
          Bool.not_eq_false, Bool.not_eq_true, Decidable.not_not] at hno
        obtain ⟨⟨⟨⟨hactive, hconsumed⟩, hbound⟩, howner⟩, htoken⟩ := hno
        exact hheld ⟨c, hc, hactive, hconsumed, hbound, howner, htoken⟩
  · exact .inr ⟨fun h => hown h.1, operationFailure processMismatch, by
      rw [consumeContextExitLease, ensureProcess, if_neg hown]⟩

/-- **Reading back** says whether the lease is consumed. -/
theorem reconcile_call (lease : Nat) (s : ComposerState) :
    (place.ownProcess = true ∧ reconcileContextExitLease place lease s =
      (.ok (decide (HoldsLease place true lease s)), s)) ∨
    (place.ownProcess = false ∧
      ∃ failure, reconcileContextExitLease place lease s = (.error failure, s)) := by
  cases hown : place.ownProcess with
  | false => exact .inr ⟨rfl, _, by rw [reconcileContextExitLease, ensureProcess, hown]; rfl⟩
  | true =>
    refine .inl ⟨rfl, ?_⟩
    rw [reconcileContextExitLease, ensureProcess, if_pos hown]
    cases hc : s.contextLease with
    | none =>
      have hnone : ¬HoldsLease place true lease s := by
        intro hheld
        obtain ⟨c, hc', -⟩ := hheld
        rw [hc] at hc'
        cases hc'
      simp [hnone]
    | some c =>
      have hdecide : decide (HoldsLease place true lease s) = (c.active && c.consumed && c.exitBound &&
          c.ownerThreadToken == place.threadToken && c.token == lease) := by
        rw [Bool.eq_iff_iff, decide_eq_true_iff]
        simp only [HoldsLease, hc, Option.some.injEq, exists_eq_left', Bool.and_eq_true, beq_iff_eq,
          and_assoc]
      rw [hdecide]

/-- **Retiring** takes the consumed lease of the thread. -/
theorem finalize_call (lease : Nat) (s : ComposerState) :
    (HoldsLease place true lease s ∧ place.ownProcess = true ∧
      finalizeContextExitLease place lease s = (.ok true, { s with contextLease := none })) ∨
    ¬(HoldsLease place true lease s ∧ place.ownProcess = true) ∧
      (finalizeContextExitLease place lease s).2 = s ∧
      (finalizeContextExitLease place lease s).1 ≠ .ok true := by
  by_cases hown : place.ownProcess = true
  · rw [finalizeContextExitLease, ensureProcess, if_pos hown]
    cases hc : s.contextLease with
    | none =>
      refine .inr ⟨fun h => ?_, rfl, by simp⟩
      obtain ⟨⟨c, hc', -⟩, -⟩ := h
      rw [hc] at hc'
      cases hc'
    | some c =>
      simp only
      split
      next hyes =>
        refine .inr ⟨fun h => ?_, rfl, by simp⟩
        obtain ⟨⟨c', hc', hactive, hconsumed, hbound, howner, htoken⟩, -⟩ := h
        rw [hc] at hc'
        cases hc'
        simp [hactive, hconsumed, hbound, howner, htoken] at hyes
      next hno =>
        simp only [Bool.or_eq_true, Bool.not_eq_true', bne_iff_ne, ne_eq, not_or,
          Bool.not_eq_false, Decidable.not_not] at hno
        obtain ⟨⟨⟨⟨hactive, hconsumed⟩, hbound⟩, howner⟩, htoken⟩ := hno
        exact .inl ⟨⟨c, hc, hactive, hconsumed, hbound, howner, htoken⟩, hown, rfl⟩
  · refine .inr ⟨fun h => hown h.2, ?_⟩
    rw [finalizeContextExitLease, ensureProcess, if_neg hown]
    exact ⟨rfl, by simp⟩

end Calls

/-! ## What the exit knows -/

section Exit

variable {place : Place} {faults : Faults}

/-- What `rounds` rounds from `attempt` on find out: the lease is authenticated
only if it is consumed, and no cleanup is required only if it is not. A failure
that was pending stays so. -/
structure ReadBack (place : Place) (faults : Faults) (lease : Nat) (s : ComposerState)
    (rounds attempt : Nat) (pending : Option BoundaryFailure) (known : Authentication) : Prop where
  authenticated : known.authenticated = true → HoldsLease place true lease s ∧
    known.cleanupRequired = true
  unrequired : known.cleanupRequired = false → ¬HoldsLease place true lease s
  pending : pending.isSome = true → known.pendingFailure.isSome = true
  completed : ¬HoldsLease place true lease s → place.ownProcess = true →
    (∃ i, attempt ≤ i ∧ i < attempt + rounds ∧ faults.reconcile i = .never) →
      known.cleanupRequired = false

/-- A round that fails is followed by the next. -/
theorem ReadBack.later {lease : Nat} {s : ComposerState} {rounds attempt : Nat}
    {pending : Option BoundaryFailure} {failure : BoundaryFailure} {known : Authentication}
    (h : ReadBack place faults lease s rounds (attempt + 1) (some failure) known)
    (hfault : faults.reconcile attempt ≠ .never ∨ place.ownProcess = false) :
    ReadBack place faults lease s (rounds + 1) attempt pending known := by
  refine ⟨h.authenticated, h.unrequired, fun _ => h.pending rfl, fun hheld hown hround => ?_⟩
  obtain ⟨i, hle, hlt, hnever⟩ := hround
  have hne : i ≠ attempt := by
    rintro rfl
    rcases hfault with hfault | hother
    · exact hfault hnever
    · rw [hown] at hother
      cases hother
  exact h.completed hheld hown ⟨i, by omega, by omega, hnever⟩

/-- **Reading back in rounds** changes nothing. -/
theorem reconcile_spec (lease : Nat) (s : ComposerState) : ∀ rounds attempt pending,
    ∃ known, reconcile place faults lease rounds attempt pending s = (known, s) ∧
      ReadBack place faults lease s rounds attempt pending known := by
  intro rounds
  induction rounds with
  | zero =>
    intro attempt pending
    refine ⟨⟨false, true, pending⟩, rfl, nofun, nofun, id, fun _ _ h => ?_⟩
    obtain ⟨i, hle, hlt, -⟩ := h
    omega
  | succ rounds ih =>
    intro attempt pending
    rw [reconcile]
    cases hfault : faults.reconcile attempt with
    | before failure =>
      obtain ⟨known, hrun, hknown⟩ := ih (attempt + 1) (some failure)
      exact ⟨known, hrun, hknown.later (.inl (by rw [hfault]; nofun))⟩
    | after failure =>
      obtain ⟨known, hrun, hknown⟩ := ih (attempt + 1) (some failure)
      have hsame : (reconcileContextExitLease place lease s).2 = s := by
        rcases @reconcile_call place lease s with ⟨-, hcall⟩ | ⟨-, _, hcall⟩ <;> rw [hcall]
      rw [invokeBoundary_after, hsame]
      exact ⟨known, hrun, hknown.later (.inl (by rw [hfault]; nofun))⟩
    | never =>
      rw [invokeBoundary_never]
      rcases @reconcile_call place lease s with ⟨hown, hcall⟩ | ⟨hother, failure, hcall⟩
      · rw [hcall]
        exact ⟨⟨decide (HoldsLease place true lease s), decide (HoldsLease place true lease s), pending⟩,
          rfl, fun h => ⟨of_decide_eq_true h, h⟩, of_decide_eq_false, id,
          fun hheld _ _ => decide_eq_false hheld⟩
      · obtain ⟨known, hrun, hknown⟩ := ih (attempt + 1) (some failure)
        rw [hcall]
        exact ⟨known, hrun, hknown.later (.inr hother)⟩

/-- What consuming the lease left. -/
def afterConsume (place : Place) (faults : Faults) (lease : Nat) (s : ComposerState) : ComposerState :=
  (invokeBoundary faults.consume (consumeContextExitLease place lease) s).2

theorem afterConsume_closed (lease : Nat) (s : ComposerState) :
    (afterConsume place faults lease s).closed = s.closed ∧
      (¬ActiveLease place lease s → afterConsume place faults lease s = s) := by
  have hcall : (consumeContextExitLease place lease s).2.closed = s.closed ∧
      (¬ActiveLease place lease s → (consumeContextExitLease place lease s).2 = s) := by
    rcases @consume_call place lease s with ⟨-, hheld, hcall⟩ | ⟨-, failure, hcall⟩
    · rw [hcall]
      exact ⟨rfl, fun h => absurd hheld.active h⟩
    · rw [hcall]
      exact ⟨rfl, fun _ => rfl⟩
  rw [afterConsume]
  cases faults.consume with
  | never => exact hcall
  | before failure => exact ⟨rfl, fun _ => rfl⟩
  | after failure => exact hcall

/-- The consumption takes effect and is acknowledged. -/
def Acknowledged (place : Place) (faults : Faults) (lease : Nat) (s : ComposerState) : Prop :=
  faults.consume = .never ∧ place.ownProcess = true ∧ HoldsLease place false lease s

/-- What the exit knows of the lease it was called with. There is no failure to
report only if the consumption was acknowledged. -/
structure Knows (place : Place) (faults : Faults) (lease : Nat) (s : ComposerState)
    (known : Authentication) : Prop where
  authenticated : known.authenticated = true →
    HoldsLease place true lease (afterConsume place faults lease s) ∧ known.cleanupRequired = true
  unrequired : known.cleanupRequired = false →
    ¬HoldsLease place true lease (afterConsume place faults lease s)
  pending : known.pendingFailure = none ↔ Acknowledged place faults lease s
  acknowledged : Acknowledged place faults lease s → known.authenticated = true ∧
    afterConsume place faults lease s = s.consume
  completed : ¬HoldsLease place true lease (afterConsume place faults lease s) →
    place.ownProcess = true →
    (∃ i, 1 ≤ i ∧ i ≤ contextExitReconciliationAttempts ∧ faults.reconcile i = .never) →
      known.cleanupRequired = false

/-- Where the consumption is not acknowledged, it is read back. -/
theorem ReadBack.knows {lease : Nat} {s : ComposerState} {failure : BoundaryFailure}
    {known : Authentication} (h : ReadBack place faults lease (afterConsume place faults lease s)
      contextExitReconciliationAttempts 1 (some failure) known)
    (hno : ¬Acknowledged place faults lease s) : Knows place faults lease s known := by
  have hsome := Option.isSome_iff_ne_none.mp (h.pending rfl)
  refine ⟨h.authenticated, h.unrequired, ⟨fun hnone => absurd hnone hsome, fun hack => absurd hack hno⟩,
    fun hack => absurd hack hno, fun hheld hown hround => h.completed hheld hown ?_⟩
  obtain ⟨i, hle, hlt, hnever⟩ := hround
  exact ⟨i, hle, by omega, hnever⟩

/-- **What the exit knows.** -/
theorem authenticate_spec (lease : Nat) (s : ComposerState) :
    ∃ known, authenticate place faults (some lease) s = (known, afterConsume place faults lease s) ∧
      Knows place faults lease s known := by
  by_cases hack : Acknowledged place faults lease s
  · obtain ⟨hfault, hown, hheld⟩ := hack
    have hcall : invokeBoundary faults.consume (consumeContextExitLease place lease) s =
        (.ok true, s.consume) := by
      rcases @consume_call place lease s with ⟨-, -, hcall⟩ | ⟨hno, -⟩
      · rw [hfault, invokeBoundary_never, hcall]
      · exact absurd ⟨hown, hheld⟩ hno
    have hafter : afterConsume place faults lease s = s.consume := by rw [afterConsume, hcall]
    refine ⟨⟨true, true, none⟩, by rw [authenticate, hcall, hafter], fun _ => ⟨hafter ▸ hheld.consume, rfl⟩,
      nofun, ⟨fun _ => ⟨hfault, hown, hheld⟩, fun _ => rfl⟩, fun _ => ⟨rfl, hafter⟩,
      fun hnot => absurd (hafter ▸ hheld.consume) hnot⟩
  · have hfailed : ∃ failure, invokeBoundary faults.consume (consumeContextExitLease place lease) s =
        (.error failure, afterConsume place faults lease s) := by
      rw [afterConsume]
      cases hfault : faults.consume with
      | before failure => exact ⟨failure, rfl⟩
      | after failure => exact ⟨failure, rfl⟩
      | never =>
        rcases @consume_call place lease s with ⟨hown, hheld, -⟩ | ⟨-, failure, hcall⟩
        · exact absurd ⟨hfault, hown, hheld⟩ hack
        · exact ⟨failure, by rw [invokeBoundary_never, hcall]⟩
    obtain ⟨failure, hfailed⟩ := hfailed
    obtain ⟨known, hrun, hknown⟩ := @reconcile_spec place faults lease
      (afterConsume place faults lease s) contextExitReconciliationAttempts 1 (some failure)
    exact ⟨known, by rw [authenticate, hfailed]; exact hrun, hknown.knows hack⟩

/-! ## Closing -/

/-- Closing fails before it takes effect. -/
def CloseFailsBefore (place : Place) (faults : Faults) : Prop :=
  place.ownProcess = false ∨ ∃ failure, faults.close = .before failure

/-- **Closing** writes that the composer is closed, unless it fails before; the
lease it leaves alone. -/
theorem close_spec (s : ComposerState) :
    (invokeBoundary faults.close (close place faults) s).2.contextLease = s.contextLease ∧
      (¬CloseFailsBefore place faults →
        (invokeBoundary faults.close (close place faults) s).2.closed = true) ∧
      (failureOf (invokeBoundary faults.close (close place faults) s).1 = none ↔
        faults.close = .never ∧ faults.closeRegistry = .never ∧ place.ownProcess = true) ∧
      (faults.close = .never → faults.closeRegistry = .never → place.ownProcess = true →
        (invokeBoundary faults.close (close place faults) s).2 =
          { s with closed := true, registryClosed := true }) := by
  rw [CloseFailsBefore]
  cases hown : place.ownProcess <;> cases hfault : faults.close <;>
    cases hregistry : faults.closeRegistry <;>
      simp [close, closeRegistry, ensureProcess, hown, hregistry, failureOf]

/-- **The cleanup** of a lease, in its parts. -/
theorem cleanUp_some (required : Bool) (lease : Nat) (s : ComposerState) :
    cleanUp place faults required (some lease) s =
      if required then
        (⟨failureOf (invokeBoundary faults.close (close place faults) s).1,
          valueOf (invokeBoundary faults.finalize (finalizeContextExitLease place lease)
            (invokeBoundary faults.close (close place faults) s).2).1,
          failureOf (invokeBoundary faults.finalize (finalizeContextExitLease place lease)
            (invokeBoundary faults.close (close place faults) s).2).1⟩,
          (invokeBoundary faults.finalize (finalizeContextExitLease place lease)
            (invokeBoundary faults.close (close place faults) s).2).2)
      else (⟨none, none, none⟩, s) := rfl

/-- Retiring a lease says nothing about closing. -/
theorem finalize_closed (lease : Nat) (s : ComposerState) :
    (invokeBoundary faults.finalize (finalizeContextExitLease place lease) s).2.closed = s.closed := by
  have hcall : (finalizeContextExitLease place lease s).2.closed = s.closed := by
    rcases @finalize_call place lease s with ⟨-, -, hcall⟩ | ⟨-, hsame, -⟩
    · rw [hcall]
    · rw [hsame]
  cases faults.finalize with
  | never => exact hcall
  | before failure => rfl
  | after failure => exact hcall

/-- A lease is known to be retired only if it was. -/
theorem finalized_true {lease : Nat} {s : ComposerState}
    (h : valueOf (invokeBoundary faults.finalize (finalizeContextExitLease place lease) s).1 = some true) :
    faults.finalize = .never ∧
      (invokeBoundary faults.finalize (finalizeContextExitLease place lease) s).2 =
        { s with contextLease := none } := by
  cases hfault : faults.finalize with
  | before failure =>
    rw [hfault] at h
    cases h
  | after failure =>
    rw [hfault] at h
    cases h
  | never =>
    rw [hfault, invokeBoundary_never] at h
    rcases @finalize_call place lease s with ⟨-, -, hcall⟩ | ⟨-, -, hno⟩
    · exact ⟨rfl, by rw [invokeBoundary_never, hcall]⟩
    · cases hvalue : (finalizeContextExitLease place lease s).1 with
      | error failure =>
        rw [hvalue] at h
        cases h
      | ok value =>
        rw [hvalue] at h hno
        cases h
        exact absurd rfl hno

/-! ## The exit -/

/-- The exit of a lease, by what it knows of it. -/
theorem exit_some (lease : Nat) (presented active : Raised) (s : ComposerState)
    {known : Authentication} {s' : ComposerState}
    (h : authenticate place faults (some lease) s = (known, s')) :
    exit place faults (some lease) presented active s =
      (if known.authenticated && originatingControlSignal presented active then .returned
        else match selectFailure (some lease) known
            (cleanUp place faults known.cleanupRequired (some lease) s').1 with
          | .nothing => .returned
          | .failure failure => rethrow failure,
        (cleanUp place faults known.cleanupRequired (some lease) s').2) := by
  rw [exit, h]
  simp only
  split
  · rfl
  · split <;> rfl

/-- Nothing is raised exactly if every part went well. -/
theorem selectFailure_nothing (lease : Nat) (known : Authentication) (cleanup : Cleanup) :
    selectFailure (some lease) known cleanup = .nothing ↔
      known.authenticated = true ∧ cleanup.finalizationFailure = none ∧
        cleanup.finalized = some true ∧ cleanup.cleanupFailure = none ∧
          known.pendingFailure = none := by
  rw [selectFailure, if_neg (by simp)]
  cases known.authenticated with
  | false => simp
  | true =>
    cases cleanup.finalizationFailure with
    | some failure => simp
    | none =>
      by_cases hfinalized : cleanup.finalized = some true
      · cases cleanup.cleanupFailure <;> cases known.pendingFailure <;> simp [hfinalized]
      · simp [hfinalized]

theorem rethrow_ne_returned (failure : Option BoundaryFailure) : rethrow failure ≠ .returned := by
  cases failure with
  | none => nofun
  | some failure =>
    rw [rethrow]
    split <;> nofun

/-- **The exit returns** exactly if the lease was consumed, the composer closed
and the lease retired, each without a failure. -/
theorem returned_iff (lease : Nat) (presented active : Raised) (s : ComposerState)
    (hblock : originatingControlSignal presented active = false) :
    (exit place faults (some lease) presented active s).1 = .returned ↔
      Acknowledged place faults lease s ∧ faults.close = .never ∧ faults.closeRegistry = .never ∧
        faults.finalize = .never := by
  obtain ⟨known, hrun, hknown⟩ := @authenticate_spec place faults lease s
  rw [exit_some lease presented active s hrun, hblock, Bool.and_false, if_neg (by simp)]
  have hselect : (match selectFailure (some lease) known
      (cleanUp place faults known.cleanupRequired (some lease) (afterConsume place faults lease s)).1 with
      | .nothing => Outcome.returned
      | .failure failure => rethrow failure) = .returned ↔
      selectFailure (some lease) known
        (cleanUp place faults known.cleanupRequired (some lease) (afterConsume place faults lease s)).1 =
          .nothing := by
    split
    next heq => simp [heq]
    next failure heq => simp [heq, rethrow_ne_returned]
  rw [hselect, selectFailure_nothing, hknown.pending]
  constructor
  · intro h
    obtain ⟨hauth, -, hfinalized, hcleanup, hack⟩ := h
    obtain ⟨hheld, hrequired⟩ := hknown.authenticated hauth
    rw [cleanUp_some, if_pos hrequired] at hfinalized hcleanup
    obtain ⟨-, -, hclose, -⟩ := @close_spec place faults
      (afterConsume place faults lease s)
    obtain ⟨hnever, hregistry, -⟩ := hclose.mp hcleanup
    exact ⟨hack, hnever, hregistry, (finalized_true hfinalized).1⟩
  · intro h
    obtain ⟨hack, hnever, hregistry, hfinalize⟩ := h
    obtain ⟨hauth, hafter⟩ := hknown.acknowledged hack
    obtain ⟨hheld, hrequired⟩ := hknown.authenticated hauth
    obtain ⟨-, -, hclose, hclosed⟩ := @close_spec place faults
      (afterConsume place faults lease s)
    have hstill : HoldsLease place true lease
        (invokeBoundary faults.close (close place faults) (afterConsume place faults lease s)).2 := by
      rw [hclosed hnever hregistry hack.2.1]
      exact hheld
    have hretired : (invokeBoundary faults.finalize (finalizeContextExitLease place lease)
        (invokeBoundary faults.close (close place faults) (afterConsume place faults lease s)).2).1 =
          .ok true := by
      rw [hfinalize, invokeBoundary_never]
      rcases @finalize_call place lease
        (invokeBoundary faults.close (close place faults) (afterConsume place faults lease s)).2 with
        ⟨-, -, hcall⟩ | ⟨hno, -⟩
      · rw [hcall]
      · exact absurd ⟨hstill, hack.2.1⟩ hno
    rw [cleanUp_some, if_pos hrequired]
    exact ⟨hauth, by simp only [hretired, failureOf], by simp only [hretired, valueOf],
      hclose.mpr ⟨hnever, hregistry, hack.2.1⟩, hack⟩

/-- An exit that returns leaves the composer closed and the lease retired. -/
theorem returned_state {lease : Nat} {presented active : Raised} {s : ComposerState}
    (hblock : originatingControlSignal presented active = false)
    (h : (exit place faults (some lease) presented active s).1 = .returned) :
    (exit place faults (some lease) presented active s).2 = ⟨true, true, none⟩ := by
  obtain ⟨hack, hnever, hregistry, hfinalize⟩ := (returned_iff lease presented active s hblock).mp h
  obtain ⟨known, hrun, hknown⟩ := @authenticate_spec place faults lease s
  obtain ⟨hauth, -⟩ := hknown.acknowledged hack
  obtain ⟨hheld, hrequired⟩ := hknown.authenticated hauth
  obtain ⟨-, -, -, hclosed⟩ := @close_spec place faults
    (afterConsume place faults lease s)
  rw [exit_some lease presented active s hrun, cleanUp_some, if_pos hrequired]
  rw [hclosed hnever hregistry hack.2.1, hfinalize, invokeBoundary_never]
  rcases @finalize_call place lease
    { afterConsume place faults lease s with closed := true, registryClosed := true } with
    ⟨-, -, hcall⟩ | ⟨hno, -⟩
  · rw [hcall]
  · exact absurd ⟨hheld, hack.2.1⟩ hno

/-- **A consumed lease closes the composer**, whatever else fails. -/
theorem closes_consumed {lease : Nat} {s : ComposerState}
    (hheld : HoldsLease place true lease (afterConsume place faults lease s))
    (hclose : ¬CloseFailsBefore place faults) (presented active : Raised) :
    (exit place faults (some lease) presented active s).2.closed = true := by
  obtain ⟨known, hrun, hknown⟩ := @authenticate_spec place faults lease s
  have hrequired : known.cleanupRequired = true := by
    cases hcase : known.cleanupRequired with
    | true => rfl
    | false => exact absurd hheld (hknown.unrequired hcase)
  obtain ⟨-, hclosed, -⟩ := @close_spec place faults
    (afterConsume place faults lease s)
  rw [exit_some lease presented active s hrun, cleanUp_some, if_pos hrequired]
  exact (finalize_closed lease _).trans (hclosed hclose)

/-- A round of reading back can be completed. -/
def ReconciliationCompletes (place : Place) (faults : Faults) : Prop :=
  place.ownProcess = true ∧
    ∃ i, 1 ≤ i ∧ i ≤ contextExitReconciliationAttempts ∧ faults.reconcile i = .never

/-- **Another lease** than the active one of the thread changes nothing. -/
theorem keeps_open {lease : Nat} {s : ComposerState} (hother : ¬ActiveLease place lease s)
    (hround : ReconciliationCompletes place faults) (presented active : Raised) :
    (exit place faults (some lease) presented active s).2 = s := by
  obtain ⟨known, hrun, hknown⟩ := @authenticate_spec place faults lease s
  have hsame := (@afterConsume_closed place faults lease s).2 hother
  have hrequired : known.cleanupRequired = false := by
    apply hknown.completed _ hround.1 hround.2
    rw [hsame]
    exact fun hheld => hother hheld.active
  rw [exit_some lease presented active s hrun, hrequired, hsame]
  rfl

/-- An exit without a lease closes the composer, and leaves leases alone. -/
theorem exit_none {presented active : Raised} {s : ComposerState}
    (h : (exit place faults none presented active s).1 = .returned) :
    (exit place faults none presented active s).2 = { s with closed := true, registryClosed := true } := by
  obtain ⟨-, -, hclose, hclosed⟩ := @close_spec place faults s
  have hrun : exit place faults none presented active s =
      (match failureOf (invokeBoundary faults.close (close place faults) s).1 with
        | none => .returned
        | some failure => rethrow (some failure),
        (invokeBoundary faults.close (close place faults) s).2) := by
    have hknown : authenticate place faults none s = (⟨false, true, none⟩, s) := rfl
    have hcleanup : cleanUp place faults true none s =
        (⟨failureOf (invokeBoundary faults.close (close place faults) s).1, none, none⟩,
          (invokeBoundary faults.close (close place faults) s).2) := rfl
    rw [exit, hknown]
    simp only [hcleanup, Bool.false_and]
    rw [if_neg (by simp), selectFailure, if_pos rfl]
    cases failureOf (invokeBoundary faults.close (close place faults) s).1 <;> rfl
  rw [hrun] at h ⊢
  cases hfailure : failureOf (invokeBoundary faults.close (close place faults) s).1 with
  | some failure =>
    rw [hfailure] at h
    have hrethrow : rethrow (some failure) = .returned := h
    exact absurd hrethrow (rethrow_ne_returned _)
  | none =>
    obtain ⟨hnever, hregistry, hown⟩ := hclose.mp hfailure
    exact hclosed hnever hregistry hown

/-- **Leaving the block**, for every pattern of faults and every state of the
lease. An exit that returns, unless the block ended with a control signal, has
closed the composer and retired its lease; a consumed lease closes the composer
unless closing fails before it takes effect; and a lease that is not the active
one of the thread leaves it open if reading back can be completed. -/
theorem context_exit (place : Place) (faults : Faults) (presented active : Raised)
    (s : ComposerState) :
    (∀ lease, originatingControlSignal presented active = false →
      (exit place faults lease presented active s).1 = .returned →
        (exit place faults lease presented active s).2.closed = true ∧
          (lease.isSome = true → (exit place faults lease presented active s).2.contextLease = none)) ∧
    (∀ lease, HoldsLease place true lease (afterConsume place faults lease s) →
      (exit place faults (some lease) presented active s).2.closed = true ∨
        CloseFailsBefore place faults) ∧
    (∀ lease, ¬ActiveLease place lease s → ReconciliationCompletes place faults →
      (exit place faults (some lease) presented active s).2 = s) := by
  refine ⟨fun lease hblock h => ?_, fun lease hheld => ?_, fun lease hother hround => ?_⟩
  · cases lease with
    | none =>
      rw [exit_none h]
      exact ⟨rfl, nofun⟩
    | some lease =>
      rw [returned_state hblock h]
      exact ⟨rfl, fun _ => rfl⟩
  · by_cases hclose : CloseFailsBefore place faults
    · exact .inr hclose
    · exact .inl (closes_consumed hheld hclose presented active)
  · exact keeps_open hother hround presented active

end Exit

end QuantumEntanglement.ContextExit
