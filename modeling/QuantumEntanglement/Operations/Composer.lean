import QuantumEntanglement.Operations.Registry

/-
  The composer of protected operations — authorizing and consuming by any
  number of threads

  `authorize` and `consume` are made of critical sections of the issuer of
  contexts and of the registry, with the provider and the authorizer in
  between; any other call may come between any two of them. `close` holds the
  composer's lock over two writes, and a call looks at the first of them under
  that lock when it starts.

  The composer's state is followed by what has happened: `issued`, `consumed`
  and `retired` list the handles with what was known of them at that moment,
  and `steps` counts, so that what happened can be told to be before or after.
  No step looks at them.

  Correspondence (Python ↔ Lean), of `ProtectedOperationComposer`:
    `_authorize`, `_consume`, by section    ↔ `prepare`, `check`, `before`, `load`, `decide`,
                                              `after`, `issue`, `refresh`, `consume`
    a failure in any of them                ↔ `fail`
    `_retire`, `_close`                     ↔ `retire`, `unretired`, `closing`, `closed`
-/

namespace QuantumEntanglement.Operations

open Tenancy RequestContext Transaction Transaction.Txn TransitionSystem HandleRegistry

/-! ## The system -/

inductive Kind where
  | authorize
  | consume (operation : Nat)

/-- What the provider and the authorizer answered, and when. -/
structure Evaluation where
  state : CurrentAuthorizationState
  decision : AuthorizationDecision
  decidedAt : Nat

/-- How far a call is. -/
inductive Stage where
  | opened
  | prepared (basis : ReauthorizationBasis)
  | checked (basis : ReauthorizationBasis)
  | loading (basis : ReauthorizationBasis) (beforeLoad : UtcMoment)
  | loaded (basis : ReauthorizationBasis) (state : CurrentAuthorizationState)
  | decided (basis : ReauthorizationBasis) (evaluation : Evaluation)
  | evaluated (basis : ReauthorizationBasis) (evaluation : Evaluation) (afterDecision : UtcMoment)
  | refreshed (basis : ReauthorizationBasis) (evaluation : Evaluation) (afterDecision : UtcMoment)
      (refreshed : ReauthorizationBasis) (contexts : World) (refreshedAt : Nat)

structure Call where
  kind : Kind
  context : Nat
  request : AccessRequest
  startedAt : Nat
  stage : Stage

/-- A handle that was issued, and by which call. -/
structure IssuedOperation where
  operation : Nat
  snapshot : OperationSnapshot
  context : Nat
  request : AccessRequest
  basis : ReauthorizationBasis
  decision : AuthorizationDecision

/-- The composer as one moment finds it. -/
structure Scene where
  contexts : World
  registry : Registry
  heap : Heap OperationSnapshot
  closed : Bool
  closing : Bool
  retired : List Nat

/-- A handle that was consumed, by which call, and what it found. -/
structure Consumption where
  operation : Nat
  context : Nat
  request : AccessRequest
  basis : ReauthorizationBasis
  evaluation : Evaluation
  afterDecision : UtcMoment
  contexts : World
  startedAt : Nat
  refreshedAt : Nat
  consumedAt : Nat
  scene : Scene

structure Composer extends Scene where
  calls : Nat → Option Call
  issued : List IssuedOperation
  consumed : List Consumption
  steps : Nat

/-- The issuer's sections are steps of its world. -/
def Composer.withIssuer (w : Composer) (issuer : Issuer) : World := { w.contexts with issuer := issuer }

/-- Call `c` got on. -/
def Composer.goOn (w : Composer) (c : Nat) (call : Call) (stage : Stage) : Composer :=
  { w with
    calls := Function.update w.calls c (some { call with stage := stage })
    steps := w.steps + 1 }

/-- Call `c` is over. -/
def Composer.finish (w : Composer) (c : Nat) : Composer :=
  { w with calls := Function.update w.calls c none, steps := w.steps + 1 }

variable (issuerPolicy : IssuerPolicy) (policy : ComposerPolicy)

/-- The expiry of a handle: the earliest of three moments. -/
def operationExpiry (basis : ReauthorizationBasis) (state : CurrentAuthorizationState)
    (afterDecision : UtcMoment) : Except OperationError UtcMoment := do
  let byTtl ← later afterDecision policy.operationTtl
  let byAge ← later state.observedAt policy.maxStateAge
  let first := if basis.contextExpiresAt.micros < byTtl.micros then basis.contextExpiresAt else byTtl
  .ok (if byAge.micros < first.micros then byAge else first)

/-- What a failing call leaves of the issuer and of the registry. -/
inductive Failing (w : Composer) (call : Call) : Issuer → Registry → Prop where
  /-- The provider or the authorizer failed, or a check did. -/
  | dependency : Failing w call w.contexts.issuer w.registry
  /-- The context was rejected. -/
  | context (reading : Option UtcMoment) :
    Failing w call (prepareReauthorization issuerPolicy w.contexts.heap call.context call.request reading
      w.contexts.issuer).2 w.registry
  | observe (reading : Option UtcMoment) :
    Failing w call w.contexts.issuer (observeNow policy reading w.registry).2
  | check {operation : Nat} {basis : ReauthorizationBasis} (reading : Option UtcMoment)
      (hkind : call.kind = .consume operation) (hstage : call.stage = .prepared basis) :
    Failing w call w.contexts.issuer
      (checkRequest policy w.heap operation basis call.request reading w.registry).2
  | issue {binding : OperationBinding} {expiry : UtcMoment} {reading : Option UtcMoment}
      {drawn : List (Option String)} {object address : Nat} {e : OperationError} {registry : Registry}
      (hkind : call.kind = .authorize)
      (hrun : issue policy w.heap binding expiry reading drawn object address w.registry =
        (.error e, registry)) :
    Failing w call w.contexts.issuer registry
  | consume {operation : Nat} {basis : ReauthorizationBasis} {reading : Option UtcMoment}
      {e : OperationError} {registry : Registry} (hkind : call.kind = .consume operation)
      (hrun : consumeRequest policy w.heap operation basis call.request reading w.registry =
        (.error e, registry)) :
    Failing w call w.contexts.issuer registry

inductive ComposerLabel where
  | call (c : Nat)
  | retire (operation : Nat)
  | close
  | contexts (label : IssuerLabel)
  | object (i : Nat)

inductive ComposerStep (w : Composer) : ComposerLabel → Composer → Prop where
  /-- `_ensure_open`, which waits for a `close` to be done. -/
  | start {c : Nat} (kind : Kind) (context : Nat) (request : AccessRequest) (h : w.calls c = none)
      (hopen : w.closed = false) (hfree : w.closing = false) :
    ComposerStep w (.call c)
      { w with
        calls := Function.update w.calls c (some ⟨kind, context, request, w.steps, .opened⟩)
        steps := w.steps + 1 }
  | prepare {c : Nat} {call : Call} {reading : Option UtcMoment} {basis : ReauthorizationBasis}
      {issuer : Issuer} (h : w.calls c = some call) (hstage : call.stage = .opened)
      (hrun : prepareReauthorization issuerPolicy w.contexts.heap call.context call.request reading
        w.contexts.issuer = (.ok basis, issuer))
      (hmatches : BasisMatchesRequest basis call.request) :
    ComposerStep w (.call c) ({ w with contexts := w.withIssuer issuer }.goOn c call (.prepared basis))
  | check {c : Nat} {call : Call} {operation : Nat} {basis : ReauthorizationBasis}
      {reading : Option UtcMoment} {registry : Registry} (h : w.calls c = some call)
      (hkind : call.kind = .consume operation) (hstage : call.stage = .prepared basis)
      (hrun : checkRequest policy w.heap operation basis call.request reading w.registry =
        (.ok (), registry)) :
    ComposerStep w (.call c) ({ w with registry := registry }.goOn c call (.checked basis))
  | before {c : Nat} {call : Call} {basis : ReauthorizationBasis} {reading : Option UtcMoment}
      {beforeLoad : UtcMoment} {registry : Registry} (h : w.calls c = some call)
      (hstage : (call.kind = .authorize ∧ call.stage = .prepared basis) ∨ call.stage = .checked basis)
      (hrun : observeNow policy reading w.registry = (.ok beforeLoad, registry))
      (hcheck : checkBefore policy basis beforeLoad = .ok ()) :
    ComposerStep w (.call c) ({ w with registry := registry }.goOn c call (.loading basis beforeLoad))
  | load {c : Nat} {call : Call} {basis : ReauthorizationBasis} {beforeLoad : UtcMoment}
      {state : CurrentAuthorizationState} (answer : Except OperationError CurrentAuthorizationState)
      (h : w.calls c = some call) (hstage : call.stage = .loading basis beforeLoad)
      (hcheck : checkState policy basis beforeLoad answer = .ok state) :
    ComposerStep w (.call c) (w.goOn c call (.loaded basis state))
  | decide {c : Nat} {call : Call} {basis : ReauthorizationBasis} {state : CurrentAuthorizationState}
      (decision : AuthorizationDecision) (h : w.calls c = some call)
      (hstage : call.stage = .loaded basis state) (hrequest : decision.request = call.request) :
    ComposerStep w (.call c) (w.goOn c call (.decided basis ⟨state, decision, w.steps⟩))
  | after {c : Nat} {call : Call} {basis : ReauthorizationBasis} {evaluation : Evaluation}
      {reading : Option UtcMoment} {afterDecision : UtcMoment} {registry : Registry}
      (h : w.calls c = some call) (hstage : call.stage = .decided basis evaluation)
      (hrun : observeNow policy reading w.registry = (.ok afterDecision, registry))
      (hcheck : checkAfter policy basis evaluation.state evaluation.decision afterDecision = .ok ()) :
    ComposerStep w (.call c)
      ({ w with registry := registry }.goOn c call (.evaluated basis evaluation afterDecision))
  | issue {c : Nat} {call : Call} {basis : ReauthorizationBasis} {evaluation : Evaluation}
      {afterDecision expiry : UtcMoment} {binding : OperationBinding} {reading : Option UtcMoment}
      {drawn : List (Option String)} {object address : Nat} {snapshot : OperationSnapshot}
      {registry : Registry} (h : w.calls c = some call) (hkind : call.kind = .authorize)
      (hstage : call.stage = .evaluated basis evaluation afterDecision)
      (hbinding : operationBinding basis call.request evaluation.decision = .ok binding)
      (hexpiry : operationExpiry policy basis evaluation.state afterDecision = .ok expiry)
      (hrun : issue policy w.heap binding expiry reading drawn object address w.registry =
        (.ok snapshot, registry))
      (hnew : w.heap.objects object = none)
      (hfree : ∀ j b, w.heap.objects j = some b → b.alive = true → b.address ≠ address) :
    ComposerStep w (.call c)
      ({ w with
        registry := registry
        heap := w.heap.allocate object address snapshot hfree
        issued := w.issued ++ [(⟨object, snapshot, call.context, call.request, basis,
          evaluation.decision⟩ : IssuedOperation)] }.finish c)
  | refresh {c : Nat} {call : Call} {operation : Nat} {basis refreshed : ReauthorizationBasis}
      {evaluation : Evaluation} {afterDecision : UtcMoment} {reading : Option UtcMoment}
      {issuer : Issuer} (h : w.calls c = some call) (hkind : call.kind = .consume operation)
      (hstage : call.stage = .evaluated basis evaluation afterDecision)
      (hrun : prepareReauthorization issuerPolicy w.contexts.heap call.context call.request reading
        w.contexts.issuer = (.ok refreshed, issuer))
      (hsame : SameContextBasis basis refreshed) :
    ComposerStep w (.call c)
      ({ w with contexts := w.withIssuer issuer }.goOn c call
        (.refreshed basis evaluation afterDecision refreshed w.contexts w.steps))
  | consume {c : Nat} {call : Call} {operation : Nat} {basis refreshed : ReauthorizationBasis}
      {evaluation : Evaluation} {afterDecision : UtcMoment} {contexts : World} {refreshedAt : Nat}
      {reading : Option UtcMoment} {registry : Registry} (h : w.calls c = some call)
      (hkind : call.kind = .consume operation)
      (hstage : call.stage = .refreshed basis evaluation afterDecision refreshed contexts refreshedAt)
      (hrun : consumeRequest policy w.heap operation refreshed call.request reading w.registry =
        (.ok (), registry)) :
    ComposerStep w (.call c)
      ({ w with
        registry := registry
        consumed := w.consumed ++ [(⟨operation, call.context, call.request, basis, evaluation,
          afterDecision, contexts, call.startedAt, refreshedAt, w.steps, w.toScene⟩ :
            Consumption)] }.finish c)
  | fail {c : Nat} {call : Call} {issuer : Issuer} {registry : Registry} (h : w.calls c = some call)
      (hfails : Failing issuerPolicy policy w call issuer registry) :
    ComposerStep w (.call c)
      ({ w with contexts := w.withIssuer issuer, registry := registry }.finish c)
  | retire {operation : Nat} {registry : Registry}
      (hrun : retire w.heap operation w.registry = (.ok (), registry)) :
    ComposerStep w (.retire operation)
      { w with
        registry := registry
        retired := w.retired ++ [operation]
        steps := w.steps + 1 }
  | unretired {operation : Nat} {e : OperationError} {registry : Registry}
      (hrun : retire w.heap operation w.registry = (.error e, registry)) :
    ComposerStep w (.retire operation) { w with registry := registry, steps := w.steps + 1 }
  | closing (hfree : w.closing = false) :
    ComposerStep w .close { w with closed := true, closing := true, steps := w.steps + 1 }
  | closed (hheld : w.closing = true) :
    ComposerStep w .close
      { w with registry := (close w.registry).2, closing := false, steps := w.steps + 1 }
  /-- The issuer is used by others too. -/
  | contexts {label : IssuerLabel} {contexts : World}
      (hstep : IssuerStep issuerPolicy w.contexts label contexts) :
    ComposerStep w (.contexts label) { w with contexts := contexts, steps := w.steps + 1 }
  /-- A handle this composer did not make. -/
  | foreign {i address : Nat} (attributes : OperationSnapshot) (hnew : w.heap.objects i = none)
      (hfree : ∀ j b, w.heap.objects j = some b → b.alive = true → b.address ≠ address) :
    ComposerStep w (.object i)
      { w with heap := w.heap.allocate i address attributes hfree, steps := w.steps + 1 }
  /-- A handle is altered, or collected. -/
  | touch {i : Nat} {a : Object OperationSnapshot} (attributes : Option OperationSnapshot)
      (alive : Bool) (ha : w.heap.objects i = some a) (halive : alive = true → a.alive = true) :
    ComposerStep w (.object i)
      { w with heap := w.heap.replace i a attributes alive ha halive, steps := w.steps + 1 }

/-- A new composer, of an issuer that may have been used before. -/
def composerSystem : System Composer ComposerLabel where
  start w := Reachable (issuerSystem issuerPolicy) w.contexts ∧ w.registry = ⟨[], false, none⟩ ∧
    w.closed = false ∧ w.closing = false ∧ w.retired = [] ∧ (∀ c, w.calls c = none) ∧
    w.issued = [] ∧ w.consumed = []
  step := ComposerStep issuerPolicy policy

end QuantumEntanglement.Operations
