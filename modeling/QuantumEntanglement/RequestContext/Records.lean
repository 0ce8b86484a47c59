import QuantumEntanglement.Tenancy.Authorizer

/-
  Request contexts — the values an issuer of request contexts works on

  A caller claims a request, a subject and a scope; an authenticator binds
  exactly these claims to a principal for a while. A context is an opaque
  handle whose attributes are the binding, an id and the moment of its issue;
  a reauthorization basis repeats them together with the moment it was
  prepared at.

  A `datetime` is a UTC moment. Values of other types than the annotated ones
  are not there: where the code meets one, the value is `none`.
-/

namespace QuantumEntanglement.RequestContext

open PyText Tenancy Sha256

/-! ## Errors -/

/-- A redacted failure with its code, or a `ValueError`. -/
inductive IssuerError where
  | context (code : String)
  | value (message : String)
  deriving DecidableEq

/-- `raise RequestContextError(code)`. -/
def refused {α : Type} (code : String) : Except IssuerError α := .error (.context code)

/-! ## Claims and bindings -/

/-- `_require_text` accepts the value. -/
def isBoundedText (value : String) : Bool :=
  isText 256 value && value.toList.all (fun c => c != '\x00' && c != '\r' && c != '\n')

/-- Strictly parsed subject and scope claims that remain caller-controlled. -/
@[ext]
structure CallerRequestContext where
  requestId : String
  subjectId : String
  tenantId : TenantId
  workspaceId : Option WorkspaceId
  request : isOpaqueId requestId = true
  subject : isOpaqueId subjectId = true

instance : DecidableEq CallerRequestContext := fun _ _ => decidable_of_iff' _ CallerRequestContext.ext_iff

/-- Bounded authenticator output. -/
@[ext]
structure AuthenticatedRequestBinding where
  authenticatorId : String
  audience : String
  requestId : String
  principalId : String
  subjectId : String
  tenantId : TenantId
  workspaceId : Option WorkspaceId
  identityRevision : String
  scopeRevision : String
  evidenceFingerprint : String
  authenticatedAt : UtcMoment
  expiresAt : UtcMoment
  authenticator : isOpaqueId authenticatorId = true
  aimed : isBoundedText audience = true
  request : isOpaqueId requestId = true
  principal : isOpaqueId principalId = true
  subject : isOpaqueId subjectId = true
  identity : isOpaqueId identityRevision = true
  scope : isOpaqueId scopeRevision = true
  evidence : IsHexDigest evidenceFingerprint
  lasts : authenticatedAt.micros < expiresAt.micros

instance : DecidableEq AuthenticatedRequestBinding := fun _ _ => decidable_of_iff' _ AuthenticatedRequestBinding.ext_iff

/-- The binding is of the caller's own claims. -/
def AuthenticatedRequestBinding.Binds (b : AuthenticatedRequestBinding) (c : CallerRequestContext) :
    Prop :=
  b.requestId = c.requestId ∧ b.subjectId = c.subjectId ∧ b.tenantId = c.tenantId ∧
    b.workspaceId = c.workspaceId

instance (b : AuthenticatedRequestBinding) (c : CallerRequestContext) : Decidable (b.Binds c) :=
  inferInstanceAs (Decidable (_ ∧ _))

/-! ## Contexts -/

/-- What a context is made with, and what its attributes are compared to. -/
structure ContextSnapshot extends AuthenticatedRequestBinding where
  contextId : String
  issuedAt : UtcMoment
  deriving DecidableEq

/-- Non-authorizing identity evidence prepared for a current-state lookup. -/
@[ext]
structure ReauthorizationBasis where
  contextId : String
  authenticatorId : String
  audience : String
  requestId : String
  principalId : String
  subjectId : String
  tenantId : TenantId
  workspaceId : Option WorkspaceId
  identityRevision : String
  scopeRevision : String
  evidenceFingerprint : String
  authenticatedAt : UtcMoment
  contextIssuedAt : UtcMoment
  contextExpiresAt : UtcMoment
  preparedAt : UtcMoment
  lasts : contextIssuedAt.micros < contextExpiresAt.micros
  prepared : preparedAt.micros < contextExpiresAt.micros

instance : DecidableEq ReauthorizationBasis := fun _ _ => decidable_of_iff' _ ReauthorizationBasis.ext_iff

/-- The basis of a context, prepared at a moment. -/
def makeBasis (c : ContextSnapshot) (now : UtcMoment) : Except IssuerError ReauthorizationBasis :=
  if hlasts : c.issuedAt.micros < c.expiresAt.micros then
    if hprepared : now.micros < c.expiresAt.micros then
      .ok ⟨c.contextId, c.authenticatorId, c.audience, c.requestId, c.principalId, c.subjectId,
        c.tenantId, c.workspaceId, c.identityRevision, c.scopeRevision, c.evidenceFingerprint,
        c.authenticatedAt, c.issuedAt, c.expiresAt, now, hlasts, hprepared⟩
    else .error (.value "reauthorization basis cannot be prepared after context expiry")
  else .error (.value "context expiry must be later than issuance")

/-- The basis repeats what the context was made with. -/
structure ReauthorizationBasis.Repeats (b : ReauthorizationBasis) (c : ContextSnapshot)
    (now : UtcMoment) : Prop where
  contextId : b.contextId = c.contextId
  authenticatorId : b.authenticatorId = c.authenticatorId
  audience : b.audience = c.audience
  requestId : b.requestId = c.requestId
  principalId : b.principalId = c.principalId
  subjectId : b.subjectId = c.subjectId
  tenantId : b.tenantId = c.tenantId
  workspaceId : b.workspaceId = c.workspaceId
  identityRevision : b.identityRevision = c.identityRevision
  scopeRevision : b.scopeRevision = c.scopeRevision
  evidenceFingerprint : b.evidenceFingerprint = c.evidenceFingerprint
  authenticatedAt : b.authenticatedAt = c.authenticatedAt
  contextIssuedAt : b.contextIssuedAt = c.issuedAt
  contextExpiresAt : b.contextExpiresAt = c.expiresAt
  preparedAt : b.preparedAt = now

theorem makeBasis_ok {c : ContextSnapshot} {now : UtcMoment} {b : ReauthorizationBasis}
    (h : makeBasis c now = .ok b) : b.Repeats c now := by
  unfold makeBasis at h
  split at h
  · split at h
    · rw [← Except.ok.inj h]
      exact ⟨rfl, rfl, rfl, rfl, rfl, rfl, rfl, rfl, rfl, rfl, rfl, rfl, rfl, rfl, rfl⟩
    · cases h
  · cases h

/-! ## The issuer's configuration -/

/-- The durations of a `RequestContextIssuer`, in microseconds, within what it supports. -/
structure IssuerPolicy where
  authenticatorId : String
  audience : String
  maxContextTtl : Int
  maxClockSkew : Int
  maxActiveContexts : Nat
  authenticator : isOpaqueId authenticatorId = true
  aimed : isBoundedText audience = true
  ttl : 1 ≤ maxContextTtl ∧ maxContextTtl ≤ 86400000000
  skew : 0 ≤ maxClockSkew ∧ maxClockSkew ≤ 300000000
  bounded : 1 ≤ maxActiveContexts ∧ maxActiveContexts ≤ 1000000

/-- `_validate_binding`, of something that may be no canonical binding. -/
def validateBinding (policy : IssuerPolicy) (binding : Option AuthenticatedRequestBinding)
    (expected : CallerRequestContext) (now : UtcMoment) :
    Except IssuerError AuthenticatedRequestBinding :=
  match binding with
  | none => refused "request_authentication_result_invalid"
  | some trusted =>
    if ¬(trusted.authenticatorId = policy.authenticatorId ∧ trusted.audience = policy.audience ∧
        trusted.Binds expected) then
      refused "request_authentication_binding_mismatch"
    else if trusted.authenticatedAt.micros > now.micros ∧
        trusted.authenticatedAt.micros - now.micros > policy.maxClockSkew then
      refused "request_authentication_time_invalid"
    else if trusted.expiresAt.micros ≤ now.micros then refused "request_authentication_expired"
    else if trusted.expiresAt.micros - trusted.authenticatedAt.micros > policy.maxContextTtl then
      refused "request_authentication_ttl_exceeded"
    else if trusted.expiresAt.micros - now.micros > policy.maxContextTtl then
      refused "request_authentication_ttl_exceeded"
    else .ok trusted

/-- A binding the issuer accepts at a moment. -/
structure Accepted (policy : IssuerPolicy) (b : AuthenticatedRequestBinding)
    (expected : CallerRequestContext) (now : UtcMoment) : Prop where
  authenticator : b.authenticatorId = policy.authenticatorId
  audience : b.audience = policy.audience
  binds : b.Binds expected
  unexpired : now.micros < b.expiresAt.micros
  short : b.expiresAt.micros - b.authenticatedAt.micros ≤ policy.maxContextTtl
  soon : b.expiresAt.micros - now.micros ≤ policy.maxContextTtl

theorem validateBinding_ok {policy : IssuerPolicy} {binding : Option AuthenticatedRequestBinding}
    {expected : CallerRequestContext} {now : UtcMoment} {b : AuthenticatedRequestBinding}
    (h : validateBinding policy binding expected now = .ok b) :
    binding = some b ∧ Accepted policy b expected now := by
  unfold validateBinding at h
  split at h
  · cases h
  next trusted =>
    split at h
    · cases h
    next hscope =>
      split at h
      · cases h
      · split at h
        · cases h
        · split at h
          · cases h
          · split at h
            · cases h
            · obtain rfl := Except.ok.inj h
              obtain ⟨hauthenticator, haudience, hbinds⟩ := not_not.mp hscope
              exact ⟨rfl, hauthenticator, haudience, hbinds, by omega, by omega, by omega⟩

/-- Validation raises no capacity error. -/
theorem validateBinding_error {policy : IssuerPolicy} {binding : Option AuthenticatedRequestBinding}
    {expected : CallerRequestContext} {now : UtcMoment} :
    validateBinding policy binding expected now ≠ refused "request_context_capacity_exceeded" := by
  unfold validateBinding refused
  split
  · decide
  · split
    · decide
    · split
      · decide
      · split
        · decide
        · split
          · decide
          · split
            · decide
            · exact fun h => nomatch h

end QuantumEntanglement.RequestContext
