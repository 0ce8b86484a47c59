import QuantumEntanglement.RequestContext.Sessions

/-
  Protected operations — the values a composer works on

  An authorized operation is an opaque handle that stands for one decision:
  who may do what to which resource, in which context, until when. The current
  state is what the provider loads for a basis; what it tells of membership,
  revocations and capabilities goes to the authorizer only and is not here.

  What is built from values that passed their checks passes them again, so
  those second checks are left out.

  Correspondence (Python ↔ Lean):
    `_validate_state_binding`, and the checks
    of `_evaluate_current_authorization`        ↔ `validateStateBinding`, `checkBefore`,
                                                  `checkState`, `checkAfter`
-/

namespace QuantumEntanglement.Operations

open Tenancy RequestContext

/-- `raise OperationAuthorizationError(code)`. -/
structure OperationError where
  code : String
  deriving DecidableEq

def failed {α : Type} (code : String) : Except OperationError α := .error ⟨code⟩

/-! ## Handles -/

/-- What a handle is bound to; construction alone grants no authority. -/
structure OperationBinding where
  contextId : String
  authenticatorId : String
  audience : String
  requestId : String
  principalId : String
  subjectId : String
  tenantId : TenantId
  workspaceId : WorkspaceId
  action : RequestedAction
  resourceType : String
  resourceId : String
  decisionId : String
  identityRevision : String
  scopeRevision : String
  deriving DecidableEq

structure OperationSnapshot extends OperationBinding where
  operationId : String
  issuedAt : UtcMoment
  expiresAt : UtcMoment
  deriving DecidableEq

/-- Exact point-in-time state loaded by the provider. -/
structure CurrentAuthorizationState where
  contextId : String
  authenticatorId : String
  audience : String
  requestId : String
  principalId : String
  subjectId : String
  tenantId : TenantId
  workspaceId : WorkspaceId
  identityRevision : String
  scopeRevision : String
  observedAt : UtcMoment
  deriving DecidableEq

/-! ## Comparisons -/

/-- `_basis_matches_request`. -/
structure BasisMatchesRequest (basis : ReauthorizationBasis) (request : AccessRequest) : Prop where
  workspace : request.resource.workspaceId ≠ none
  requestId : basis.requestId = request.requestId
  subjectId : basis.subjectId = request.subjectId
  tenantId : basis.tenantId = request.tenantId
  workspaceId : basis.workspaceId = request.resource.workspaceId
  resource : request.resource.tenantId = request.tenantId

instance (basis : ReauthorizationBasis) (request : AccessRequest) :
    Decidable (BasisMatchesRequest basis request) :=
  decidable_of_iff
    (request.resource.workspaceId ≠ none ∧ basis.requestId = request.requestId ∧
      basis.subjectId = request.subjectId ∧ basis.tenantId = request.tenantId ∧
      basis.workspaceId = request.resource.workspaceId ∧ request.resource.tenantId = request.tenantId)
    ⟨fun ⟨a, b, c, d, e, f⟩ => ⟨a, b, c, d, e, f⟩, fun ⟨a, b, c, d, e, f⟩ => ⟨a, b, c, d, e, f⟩⟩

/-- `_same_context_basis`: the same but for the moment of preparation. -/
def SameContextBasis (first second : ReauthorizationBasis) : Prop :=
  first.contextId = second.contextId ∧ first.authenticatorId = second.authenticatorId ∧
    first.audience = second.audience ∧ first.requestId = second.requestId ∧
    first.principalId = second.principalId ∧ first.subjectId = second.subjectId ∧
    first.tenantId = second.tenantId ∧ first.workspaceId = second.workspaceId ∧
    first.identityRevision = second.identityRevision ∧
    first.scopeRevision = second.scopeRevision ∧
    first.evidenceFingerprint = second.evidenceFingerprint ∧
    first.authenticatedAt = second.authenticatedAt ∧
    first.contextIssuedAt = second.contextIssuedAt ∧
    first.contextExpiresAt = second.contextExpiresAt

instance (first second : ReauthorizationBasis) : Decidable (SameContextBasis first second) :=
  inferInstanceAs (Decidable (_ ∧ _))

/-- `_snapshot_matches_request`. -/
structure SnapshotMatchesRequest (snapshot : OperationSnapshot) (basis : ReauthorizationBasis)
    (request : AccessRequest) : Prop where
  context : snapshot.contextId = basis.contextId ∧ snapshot.authenticatorId = basis.authenticatorId ∧
    snapshot.audience = basis.audience
  actor : snapshot.principalId = basis.principalId ∧ snapshot.subjectId = request.subjectId
  asked : snapshot.requestId = request.requestId
  scope : snapshot.tenantId = request.tenantId ∧
    some snapshot.workspaceId = request.resource.workspaceId
  revisions : snapshot.identityRevision = basis.identityRevision ∧
    snapshot.scopeRevision = basis.scopeRevision
  action : snapshot.action = request.action
  resource : snapshot.resourceType = request.resource.resourceType ∧
    snapshot.resourceId = request.resource.resourceId
  basis : BasisMatchesRequest basis request

instance (snapshot : OperationSnapshot) (basis : ReauthorizationBasis) (request : AccessRequest) :
    Decidable (SnapshotMatchesRequest snapshot basis request) :=
  decidable_of_iff
    ((snapshot.contextId = basis.contextId ∧ snapshot.authenticatorId = basis.authenticatorId ∧
        snapshot.audience = basis.audience) ∧
      (snapshot.principalId = basis.principalId ∧ snapshot.subjectId = request.subjectId) ∧
      snapshot.requestId = request.requestId ∧
      (snapshot.tenantId = request.tenantId ∧
        some snapshot.workspaceId = request.resource.workspaceId) ∧
      (snapshot.identityRevision = basis.identityRevision ∧
        snapshot.scopeRevision = basis.scopeRevision) ∧
      snapshot.action = request.action ∧
      (snapshot.resourceType = request.resource.resourceType ∧
        snapshot.resourceId = request.resource.resourceId) ∧ BasisMatchesRequest basis request)
    ⟨fun ⟨a, b, c, d, e, f, g, h⟩ => ⟨a, b, c, d, e, f, g, h⟩,
      fun ⟨a, b, c, d, e, f, g, h⟩ => ⟨a, b, c, d, e, f, g, h⟩⟩

/-- `_operation_binding`. -/
def operationBinding (basis : ReauthorizationBasis) (request : AccessRequest)
    (decision : AuthorizationDecision) : Except OperationError OperationBinding :=
  match request.resource.workspaceId with
  | none => failed "protected_operation_workspace_required"
  | some workspaceId =>
    .ok ⟨basis.contextId, basis.authenticatorId, basis.audience, request.requestId,
      basis.principalId, request.subjectId, request.tenantId, workspaceId, request.action,
      request.resource.resourceType, request.resource.resourceId, decision.decisionId,
      basis.identityRevision, basis.scopeRevision⟩

/-! ## The composer's configuration, and its checks -/

/-- Durations in microseconds, within what the composer supports. -/
structure ComposerPolicy where
  operationTtl : Int
  maxStateAge : Int
  maxClockSkew : Int
  maxActiveOperations : Nat
  ttl : 1 ≤ operationTtl ∧ operationTtl ≤ 300000000
  age : 1 ≤ maxStateAge ∧ maxStateAge ≤ 300000000
  skew : 0 ≤ maxClockSkew ∧ maxClockSkew ≤ 300000000
  bounded : 1 ≤ maxActiveOperations ∧ maxActiveOperations ≤ 1000000

/-- `moment + delta`; an `OverflowError` shows as an internal failure. -/
def later (t : UtcMoment) (delta : Int) : Except OperationError UtcMoment :=
  if h : IsoTime.InRange (t.micros + delta) then .ok ⟨t.micros + delta, h⟩
  else failed "protected_operation_internal_failure"

section
variable (policy : ComposerPolicy) (basis : ReauthorizationBasis)

/-- The checks before the state is loaded. -/
def checkBefore (beforeLoad : UtcMoment) : Except OperationError Unit := do
  let latest ← later beforeLoad policy.maxClockSkew
  if basis.preparedAt.micros > latest.micros then failed "protected_operation_context_time_invalid"
  else if basis.contextExpiresAt.micros ≤ beforeLoad.micros then
    failed "protected_operation_context_expired"
  else .ok ()

/-- `_validate_state_binding`. -/
def validateStateBinding (state : CurrentAuthorizationState) : Except OperationError Unit :=
  if ¬(state.contextId = basis.contextId ∧ state.authenticatorId = basis.authenticatorId ∧
      state.audience = basis.audience ∧ state.requestId = basis.requestId ∧
      state.principalId = basis.principalId ∧ state.subjectId = basis.subjectId ∧
      state.tenantId = basis.tenantId ∧ some state.workspaceId = basis.workspaceId) then
    failed "protected_operation_state_mismatch"
  else if state.identityRevision ≠ basis.identityRevision then
    failed "protected_operation_identity_revision_stale"
  else if state.scopeRevision ≠ basis.scopeRevision then
    failed "protected_operation_scope_revision_stale"
  else .ok ()

/-- The checks of what the provider returned: none where it raised or returned
no canonical state. -/
def checkState (beforeLoad : UtcMoment) (loaded : Except OperationError CurrentAuthorizationState) :
    Except OperationError CurrentAuthorizationState := do
  let state ← loaded
  validateStateBinding basis state
  let latest ← later beforeLoad policy.maxClockSkew
  if state.observedAt.micros > latest.micros then failed "protected_operation_state_time_invalid"
  else if beforeLoad.micros - state.observedAt.micros ≥ policy.maxStateAge then
    failed "protected_operation_state_stale"
  else .ok state

/-- The checks after the authorizer has answered. -/
def checkAfter (state : CurrentAuthorizationState) (decision : AuthorizationDecision)
    (afterDecision : UtcMoment) : Except OperationError Unit := do
  if basis.contextExpiresAt.micros ≤ afterDecision.micros then
    failed "protected_operation_context_expired"
  else if afterDecision.micros - state.observedAt.micros ≥ policy.maxStateAge then
    failed "protected_operation_state_stale"
  else
    let latest ← later afterDecision policy.maxClockSkew
    if decision.evaluatedAt.micros > latest.micros ∨
        afterDecision.micros - decision.evaluatedAt.micros > policy.maxClockSkew then
      failed "protected_operation_decision_time_invalid"
    else if decision.outcome ≠ .allow then failed "protected_operation_denied"
    else .ok ()

end

/-! ## What the checks say -/

theorem except_bind_ok {α β : Type} {m : Except OperationError α} {f : α → Except OperationError β}
    {b : β} : (m >>= f) = .ok b ↔ ∃ a, m = .ok a ∧ f a = .ok b := by
  cases m <;> simp [bind, Except.bind]

variable {policy : ComposerPolicy} {basis : ReauthorizationBasis}

/-- A state with the identity and the scope revision of the basis. -/
structure Current (basis : ReauthorizationBasis) (state : CurrentAuthorizationState) : Prop where
  contextId : state.contextId = basis.contextId
  principalId : state.principalId = basis.principalId
  subjectId : state.subjectId = basis.subjectId
  identityRevision : state.identityRevision = basis.identityRevision
  scopeRevision : state.scopeRevision = basis.scopeRevision

theorem validateStateBinding_ok {state : CurrentAuthorizationState} {u : Unit}
    (h : validateStateBinding basis state = .ok u) : Current basis state := by
  unfold validateStateBinding at h
  split at h
  · cases h
  next hids =>
    split at h
    · cases h
    next hidentity =>
      split at h
      · cases h
      next hscope =>
        obtain ⟨hcontext, -, -, -, hprincipal, hsubject, -, -⟩ := not_not.mp hids
        exact ⟨hcontext, hprincipal, hsubject, not_not.mp hidentity, not_not.mp hscope⟩

theorem checkState_ok {beforeLoad : UtcMoment}
    {loaded : Except OperationError CurrentAuthorizationState} {state : CurrentAuthorizationState}
    (h : checkState policy basis beforeLoad loaded = .ok state) : Current basis state := by
  simp only [checkState, except_bind_ok] at h
  obtain ⟨state', -, u, hbinding, latest, -, h⟩ := h
  split at h
  · cases h
  · split at h
    · cases h
    · obtain rfl := Except.ok.inj h
      exact validateStateBinding_ok hbinding

theorem checkAfter_ok {state : CurrentAuthorizationState} {decision : AuthorizationDecision}
    {afterDecision : UtcMoment} {u : Unit}
    (h : checkAfter policy basis state decision afterDecision = .ok u) :
    decision.outcome = .allow ∧ afterDecision.micros - state.observedAt.micros < policy.maxStateAge := by
  unfold checkAfter at h
  split at h
  · cases h
  · split at h
    · cases h
    next hage =>
      simp only [except_bind_ok] at h
      obtain ⟨latest, -, h⟩ := h
      split at h
      · cases h
      · split at h
        · cases h
        next hallow => exact ⟨not_not.mp hallow, not_le.mp hage⟩

/-- The binding of a request, on a basis. -/
structure Binds (binding : OperationBinding) (basis : ReauthorizationBasis) (request : AccessRequest)
    (decision : AuthorizationDecision) : Prop where
  context : binding.contextId = basis.contextId ∧ binding.authenticatorId = basis.authenticatorId ∧
    binding.audience = basis.audience
  actor : binding.principalId = basis.principalId ∧ binding.subjectId = request.subjectId
  asked : binding.requestId = request.requestId
  scope : binding.tenantId = request.tenantId ∧
    some binding.workspaceId = request.resource.workspaceId
  action : binding.action = request.action
  resource : binding.resourceType = request.resource.resourceType ∧
    binding.resourceId = request.resource.resourceId
  decision : binding.decisionId = decision.decisionId
  revisions : binding.identityRevision = basis.identityRevision ∧
    binding.scopeRevision = basis.scopeRevision

theorem operationBinding_ok {request : AccessRequest} {decision : AuthorizationDecision}
    {binding : OperationBinding} (h : operationBinding basis request decision = .ok binding) :
    Binds binding basis request decision := by
  unfold operationBinding at h
  split at h
  · cases h
  next workspaceId hworkspace =>
    rw [← Except.ok.inj h]
    exact ⟨⟨rfl, rfl, rfl⟩, ⟨rfl, rfl⟩, rfl, ⟨rfl, hworkspace.symm⟩, rfl, ⟨rfl, rfl⟩, rfl, ⟨rfl, rfl⟩⟩

end QuantumEntanglement.Operations
