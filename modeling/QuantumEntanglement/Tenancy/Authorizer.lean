import QuantumEntanglement.Tenancy.Verifier

/-
  The tenant authorizer — default-deny authorization of one request

  A request is decided at one reading of the service clock from the subject's
  membership, a snapshot of the revoked capabilities and the capabilities
  presented with it. Role bindings are looked at first; then every capability
  is verified again and its chain checked against the snapshot.

  The revision guard and the proof verifier are what the service composes the
  authorizer with: each returns `True`, returns something else, or raises. A
  presented capability is the envelope it carries, `none` where reflection
  left something that is no canonical envelope.
-/

namespace QuantumEntanglement.Tenancy

open PyJson PyText IsoTime Sha256

/-! ## Requests and members -/

/-- Canonical authorization input with no caller-controlled evaluation
timestamp. -/
@[ext]
structure AccessRequest where
  requestId : String
  subjectId : String
  tenantId : TenantId
  action : RequestedAction
  resource : ResourceRef
  identified : isOpaqueId requestId = true
  subject : isOpaqueId subjectId = true

instance : DecidableEq AccessRequest := fun _ _ => decidable_of_iff' _ AccessRequest.ext_iff

def AccessRequest.toDict (r : AccessRequest) : Value :=
  .dict
    [("requestId", .str r.requestId), ("subjectId", .str r.subjectId),
      ("tenantId", .str r.tenantId.value), ("action", .str r.action.text),
      ("resource", r.resource.toDict)]

inductive Role where
  | owner
  | admin
  | editor
  | viewer
  | agent
  deriving DecidableEq

def Role.value : Role → String
  | .owner => "owner"
  | .admin => "admin"
  | .editor => "editor"
  | .viewer => "viewer"
  | .agent => "agent"

/-- `DEFAULT_ROLE_ACTIONS`. -/
def defaultRoleActions : Role → List Action
  | .owner => [⟨"*", by decide⟩]
  | .admin =>
    [⟨"approval.*", by decide⟩, ⟨"artifact.*", by decide⟩, ⟨"capability.delegate", by decide⟩,
      ⟨"member.*", by decide⟩, ⟨"resource.*", by decide⟩, ⟨"workflow.*", by decide⟩]
  | .editor =>
    [⟨"artifact.*", by decide⟩, ⟨"resource.create", by decide⟩, ⟨"resource.read", by decide⟩,
      ⟨"resource.update", by decide⟩, ⟨"workflow.read", by decide⟩, ⟨"workflow.run", by decide⟩]
  | .viewer =>
    [⟨"artifact.read", by decide⟩, ⟨"resource.read", by decide⟩, ⟨"workflow.read", by decide⟩]
  | .agent =>
    [⟨"artifact.create", by decide⟩, ⟨"artifact.read", by decide⟩, ⟨"artifact.update", by decide⟩,
      ⟨"resource.read", by decide⟩, ⟨"tool.execute", by decide⟩, ⟨"workflow.read", by decide⟩,
      ⟨"workflow.run", by decide⟩]

structure RoleBinding where
  role : Role
  scope : ResourceScope
  deriving DecidableEq

/-- `RoleBinding.audit_ref`. -/
def RoleBinding.auditRef (b : RoleBinding) : String :=
  canonicalDigest (.dict [("role", .str b.role.value), ("scope", b.scope.toDict)])

inductive MemberStatus where
  | active
  | suspended
  | removed
  deriving DecidableEq

/-- `_MAX_ROLE_BINDINGS`. -/
def maxRoleBindings : Nat := 256

structure Member where
  memberId : String
  tenantId : TenantId
  roleBindings : List RoleBinding
  status : MemberStatus
  identified : isOpaqueId memberId = true
  bounded : roleBindings.length ≤ maxRoleBindings
  within : ∀ b ∈ roleBindings, b.scope.tenantId = tenantId

/-! ## Revocation snapshots -/

def RevocationId.toDict (r : RevocationId) : Value :=
  .dict
    [("tenantId", .str r.tenantId.value), ("issuerId", .str r.issuerId), ("nonce", .str r.nonce.value)]

/-- The texts revocation ids are sorted by. -/
def RevocationId.key (r : RevocationId) : List (List Char) :=
  [r.tenantId.value.toList, r.issuerId.toList, r.nonce.value.toList]

/-- `_MAX_REVOCATION_IDS`. -/
def maxRevocationIds : Nat := 10000

/-- Versioned, tenant-specific revocation state loaded by the service. The
revoked ids are a set, listed in some order. -/
structure RevocationSnapshot where
  tenantId : TenantId
  revision : Nat
  capturedAt : UtcMoment
  revokedIds : List RevocationId
  distinct : revokedIds.Nodup
  bounded : revokedIds.length ≤ maxRevocationIds
  within : ∀ r ∈ revokedIds, r.tenantId = tenantId

/-- Digest the revision's canonical revocation state, excluding freshness time. -/
def RevocationSnapshot.stateDigest (s : RevocationSnapshot) : String :=
  canonicalDigest (.dict
    [("tenantId", .str s.tenantId.value), ("revision", .int s.revision),
      ("revokedIds", .list ((s.revokedIds.insertionSort (fun a b => a.key ≤ b.key)).map
        RevocationId.toDict))])

/-! ## Decisions -/

inductive AuthorizationOutcome where
  | allow
  | deny
  deriving DecidableEq

def AuthorizationOutcome.value : AuthorizationOutcome → String
  | .allow => "allow"
  | .deny => "deny"

inductive DecisionCode where
  | allowRbac
  | allowCapability
  | crossTenant
  | subjectMismatch
  | notAMember
  | memberInactive
  | capabilityRevoked
  | capabilityExpired
  | capabilityNotYetValid
  | capabilityInvalid
  | revocationStateInvalid
  | revocationStateStale
  | revocationRevisionRollback
  | outsideScope
  | defaultDeny
  deriving DecidableEq

def DecisionCode.value : DecisionCode → String
  | .allowRbac => "allow_rbac"
  | .allowCapability => "allow_capability"
  | .crossTenant => "cross_tenant"
  | .subjectMismatch => "subject_mismatch"
  | .notAMember => "not_a_member"
  | .memberInactive => "member_inactive"
  | .capabilityRevoked => "capability_revoked"
  | .capabilityExpired => "capability_expired"
  | .capabilityNotYetValid => "capability_not_yet_valid"
  | .capabilityInvalid => "capability_invalid"
  | .revocationStateInvalid => "revocation_state_invalid"
  | .revocationStateStale => "revocation_state_stale"
  | .revocationRevisionRollback => "revocation_revision_rollback"
  | .outsideScope => "outside_scope"
  | .defaultDeny => "default_deny"

/-- `code in _ALLOW_DECISION_CODES`. -/
def DecisionCode.allows (code : DecisionCode) : Bool :=
  code = .allowRbac || code = .allowCapability

/-- `tuple(sorted(set(evidence)))`. -/
def sortedSet (texts : List String) : List String :=
  texts.dedup.insertionSort (fun a b => a.toList ≤ b.toList)

/-- Canonical, order-independent audit decision. -/
structure AuthorizationDecision where
  outcome : AuthorizationOutcome
  code : DecisionCode
  reason : String
  request : AccessRequest
  evaluatedAt : UtcMoment
  evidence : List String
  revocationRevision : Option Nat
  consistent : outcome = .allow ↔ code.allows = true
  deriving DecidableEq

namespace AuthorizationDecision

/-- `_audit_payload`. -/
def auditPayload (d : AuthorizationDecision) : Value :=
  .dict
    [("outcome", .str d.outcome.value), ("code", .str d.code.value), ("reason", .str d.reason),
      ("request", d.request.toDict), ("evaluatedAt", .str (utcNow d.evaluatedAt)),
      ("evidence", .list (d.evidence.map .str)),
      ("revocationRevision", match d.revocationRevision with
        | some revision => .int revision
        | none => .null)]

def decisionId (d : AuthorizationDecision) : String := canonicalDigest d.auditPayload

def allowed (d : AuthorizationDecision) : Bool := d.outcome = .allow

end AuthorizationDecision

/-- A decision to allow, for one of the two reasons there are. -/
def allow (request : AccessRequest) (now : UtcMoment) (code : DecisionCode) (h : code.allows = true)
    (reason : String) (evidence : List String) (revision : Option Nat) : AuthorizationDecision :=
  ⟨.allow, code, reason, request, now, sortedSet evidence, revision, by simp [h]⟩

/-! ## The authorizer -/

/-- `_MAX_CAPABILITIES_PER_DECISION`. -/
def maxCapabilitiesPerDecision : Nat := 64

/-- Default-deny authorization composed before the effect policy engine. A
role without configured actions grants none. -/
structure TenantAuthorizer where
  capabilityVerifier : CapabilityVerifier
  trustDomain : String
  policyVersion : String
  audience : String
  revisionGuard : TenantId → Nat → String → Answer
  roleActions : Role → List Action
  maxClockSkew : Int
  maxRevocationAge : Int
  domain : capabilityVerifier.trustDomain = trustDomain
  version : capabilityVerifier.policyVersion = policyVersion
  aimed : capabilityVerifier.policy.audience = audience
  positive : 0 < maxClockSkew ∧ 0 < maxRevocationAge

/-- A code and its reason, with which a request is denied. -/
structure Refusal where
  code : DecisionCode
  reason : String
  denies : code.allows = false
  deriving DecidableEq

/-- `_deny`. -/
def deny (request : AccessRequest) (now : UtcMoment) (refusal : Refusal) (evidence : List String)
    (revision : Option Nat) : AuthorizationDecision :=
  ⟨.deny, refusal.code, refusal.reason, request, now, sortedSet evidence, revision,
    by simp [refusal.denies]⟩

/-- Why a capability does not grant the request. -/
structure Failure extends Refusal where
  evidence : String
  deriving DecidableEq

/-- `_ERROR_PRECEDENCE`; no other code is a capability's failure. -/
def errorPrecedence : DecisionCode → Nat
  | .capabilityInvalid => 0
  | .capabilityRevoked => 1
  | .capabilityExpired => 2
  | .capabilityNotYetValid => 3
  | .outsideScope => 4
  | .defaultDeny => 5
  | _ => 6

/-- One failure's key is below another's. -/
def Failure.before (f g : Failure) : Bool :=
  errorPrecedence f.code < errorPrecedence g.code ||
    (errorPrecedence f.code = errorPrecedence g.code && keyLt f.evidence g.evidence)

/-- `min(failures, key=…)`: the first of those with the least key. -/
def leastFailure (first : Failure) (rest : List Failure) : Failure :=
  rest.foldl (fun best f => if f.before best then f else best) first

/-- What a presented capability comes to. -/
inductive Consideration where
  | grants (evidence : String)
  | fails (failure : Failure)
  | foreign
  deriving DecidableEq

namespace TenantAuthorizer

variable (A : TenantAuthorizer) (request : AccessRequest) (revocations : RevocationSnapshot)
  (now : UtcMoment)

/-- `_validate_revocation_snapshot`. -/
def validateRevocationSnapshot : Except TenancyError (Option Refusal) := do
  if revocations.tenantId ≠ request.tenantId then
    .ok (some ⟨.revocationStateInvalid, "revocation snapshot belongs to a different tenant", by decide⟩)
  else
    let latest ← addDelta now A.maxClockSkew
    if revocations.capturedAt.micros > latest then
      .ok (some ⟨.revocationStateInvalid, "revocation snapshot timestamp is in the future", by decide⟩)
    else if now.micros - revocations.capturedAt.micros > A.maxRevocationAge then
      .ok (some ⟨.revocationStateStale,
        "revocation snapshot is too old for capability authorization", by decide⟩)
    else .ok none

/-- What the revision guard's answer denies. -/
def guardRefusal : Option Refusal :=
  match A.revisionGuard request.tenantId revocations.revision revocations.stateDigest with
  | .accepted => none
  | .raised => some ⟨.revocationStateInvalid, "revocation revision guard failed closed", by decide⟩
  | .refused =>
    some ⟨.revocationRevisionRollback,
      "revocation snapshot revision or same-revision state conflicts with the " ++
        "tenant high-water mark", by decide⟩

/-- The checks before any grant is looked at: what refuses the request, or the
member it is decided for. -/
def screen (member : Option Member) : Except TenancyError (Refusal ⊕ Member) :=
  if request.resource.tenantId ≠ request.tenantId then
    .ok (.inl ⟨.crossTenant, "request tenant and resource tenant do not match", by decide⟩)
  else
    match member with
    | none => .ok (.inl ⟨.notAMember, "subject is not a tenant member", by decide⟩)
    | some member =>
      if member.memberId ≠ request.subjectId then
        .ok (.inl ⟨.subjectMismatch,
          "loaded membership does not belong to the request subject", by decide⟩)
      else if member.tenantId ≠ request.tenantId then
        .ok (.inl ⟨.crossTenant, "member and request belong to different tenants", by decide⟩)
      else if member.status ≠ .active then
        .ok (.inl ⟨.memberInactive, "member is not active", by decide⟩)
      else if revocations.tenantId ≠ request.tenantId then
        .ok (.inl ⟨.revocationStateInvalid,
          "revocation snapshot belongs to a different tenant", by decide⟩)
      else
        match A.validateRevocationSnapshot request revocations now with
        | .error e => .error e
        | .ok (some refusal) => .ok (.inl refusal)
        | .ok none =>
          match A.guardRefusal request revocations with
          | some refusal => .ok (.inl refusal)
          | none => .ok (.inr member)

/-- `any(action_covers(grant, request.action) for grant in grants)`. -/
def actionGranted (binding : RoleBinding) : Bool :=
  (A.roleActions binding.role).any (fun grant => actionCovers grant request.action)

/-- The binding grants the action in its scope. -/
def bindingGrants (binding : RoleBinding) : Bool :=
  A.actionGranted request binding && binding.scope.contains request.resource.toSelector

def roleEvidence (bindings : List RoleBinding) : List String :=
  (bindings.filter (A.bindingGrants request)).map
    (fun b => "role:" ++ b.role.value ++ ":" ++ b.auditRef)

def roleOutsideScope (bindings : List RoleBinding) : Bool :=
  bindings.any
    (fun b => A.actionGranted request b && !b.scope.contains request.resource.toSelector)

/-- Why no role and no capability grants the request. -/
def ungranted (outside : Bool) (revision : Option Nat) : AuthorizationDecision :=
  if outside then
    deny request now
      ⟨.outsideScope, "action grant does not cover the requested resource scope", by decide⟩ [] revision
  else
    deny request now
      ⟨.defaultDeny, "no scoped role or verified capability grants the requested action", by decide⟩ []
      revision

/-- `_reverify_capability`: the verified envelope, `none` for any failure. -/
def reverifyCapability (presented : Option CapabilityEnvelope) : Option VerifiedCapability :=
  match presented with
  | none => none
  | some envelope =>
    match A.capabilityVerifier.verify envelope now true with
    | .error _ => none
    | .ok trusted =>
      if trusted.trustDomain ≠ A.trustDomain ∨ trusted.policyVersion ≠ A.policyVersion then none
      else some trusted

/-- The loop of `_validate_for_authorization` over the chain. -/
def validateChain (evidence : String) : List CapabilityClaims → Option Failure
  | [] => none
  | claims :: rest =>
    if claims.revocationId ∈ revocations.revokedIds then
      let position := if rest = [] then "leaf" else "ancestor"
      some ⟨⟨.capabilityRevoked, "capability " ++ position ++ " has been revoked", by decide⟩, evidence⟩
    else if now.micros < claims.notBefore.micros then
      some ⟨⟨.capabilityNotYetValid, "capability chain is not active yet", by decide⟩, evidence⟩
    else if now.micros ≥ claims.expiresAt.micros then
      some ⟨⟨.capabilityExpired, "capability chain has expired", by decide⟩, evidence⟩
    else validateChain evidence rest

/-- `_validate_for_authorization`. -/
def validateForAuthorization (capability : VerifiedCapability) : Option Failure :=
  if actionCovers capability.envelope.leaf.action request.action = false then
    some ⟨⟨.defaultDeny, "verified capability does not grant the requested action", by decide⟩,
      "capability:" ++ capability.chainId⟩
  else if capability.envelope.leaf.resource.contains request.resource.toSelector = false then
    some ⟨⟨.outsideScope, "capability action does not cover the requested resource scope",
      by decide⟩, "capability:" ++ capability.chainId⟩
  else
    validateChain revocations now ("capability:" ++ capability.chainId) capability.envelope.claims

/-- One turn of the loop over the presented capabilities. -/
def consider (presented : Option CapabilityEnvelope) : Consideration :=
  match A.reverifyCapability now presented with
  | none =>
    .fails ⟨⟨.capabilityInvalid,
      "capability envelope failed authorizer-owned proof verification", by decide⟩, "capability:invalid"⟩
  | some trusted =>
    if trusted.envelope.leaf.subjectId ≠ request.subjectId ∨
        trusted.envelope.leaf.tenantId ≠ request.tenantId then .foreign
    else
      match validateForAuthorization request revocations now trusted with
      | some failure => .fails failure
      | none => .grants ("capability:" ++ trusted.chainId)

def Consideration.evidence? : Consideration → Option String
  | .grants evidence => some evidence
  | _ => none

def Consideration.failure? : Consideration → Option Failure
  | .fails failure => some failure
  | _ => none

def grantedEvidence (presented : List (Option CapabilityEnvelope)) : List String :=
  (presented.map (A.consider request revocations now)).filterMap Consideration.evidence?

def failures (presented : List (Option CapabilityEnvelope)) : List Failure :=
  (presented.map (A.consider request revocations now)).filterMap Consideration.failure?

/-- The decision when no capability grants the request, from their failures. -/
def decideFailures (outside : Bool) : List Failure → AuthorizationDecision
  | [] => ungranted request now outside (some revocations.revision)
  | first :: rest =>
    let least := leastFailure first rest
    deny request now least.toRefusal
      (((first :: rest).filter (fun f => f.code = least.code)).map Failure.evidence)
      (some revocations.revision)

/-- The decision once nothing refuses the request. -/
def decideGrants (bindings : List RoleBinding) (presented : List (Option CapabilityEnvelope))
    (revision : Option Nat) : AuthorizationDecision :=
  if A.roleEvidence request bindings ≠ [] then
    allow request now .allowRbac (by decide) "request is covered by a scoped role binding"
      (A.roleEvidence request bindings) revision
  else if presented = [] then ungranted request now (A.roleOutsideScope request bindings) revision
  else if A.grantedEvidence request revocations now presented ≠ [] then
    allow request now .allowCapability (by decide)
      "request is covered by a fully verified capability chain"
      (A.grantedEvidence request revocations now presented) (some revocations.revision)
  else
    decideFailures request revocations now (A.roleOutsideScope request bindings)
      (A.failures request revocations now presented)

/-- The revision a decision records: the snapshot's, where it is of the
request's tenant. -/
def snapshotRevision : Option Nat :=
  if revocations.tenantId = request.tenantId then some revocations.revision else none

/-- Authorize at one service-clock instant after external request-context
binding. -/
def evaluate (member : Option Member) (presented : List (Option CapabilityEnvelope)) :
    Except TenancyError AuthorizationDecision :=
  if maxCapabilitiesPerDecision < presented.length then
    valueError "verified_capabilities cannot contain more than 64 items"
  else
    match A.screen request revocations now member with
    | .error e => .error e
    | .ok (.inl refusal) => .ok (deny request now refusal [] (snapshotRevision request revocations))
    | .ok (.inr member) =>
      .ok (A.decideGrants request revocations now member.roleBindings presented
        (snapshotRevision request revocations))

end TenantAuthorizer

end QuantumEntanglement.Tenancy
