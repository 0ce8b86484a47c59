import QuantumEntanglement.Tenancy.Envelopes

/-
  The capability verifier — a canonical envelope inside one trust domain

  A verifier asks a proof verifier, which the composing service supplies,
  about the root proof and about every edge. Whatever the proof verifier does
  other than return `True` — return something else, or raise — refuses the
  envelope.

  What is proved:
    1. `verify_ok` — what an accepted envelope says: its chain is accepted,
       its root proof is trusted and authorized, and so is every edge.

  Correspondence (Python ↔ Lean):
    `CapabilityProofVerifier`               ↔ `ProofVerifier`
  `_validated_envelope_snapshot` rebuilds a canonical envelope as it is; one
  that is not canonical, which only reflection makes, it refuses.
-/

namespace QuantumEntanglement.Tenancy

open PyJson PyText IsoTime Sha256

/-- What a collaborator did: it returned `True`, it returned anything else, or
it raised. -/
inductive Answer where
  | accepted
  | refused
  | raised
  deriving DecidableEq

def Answer.ofBool (b : Bool) : Answer := if b then .accepted else .refused

/-- Trusted key resolver/verifier owned by the service composition root. -/
structure ProofVerifier where
  verify : CapabilityProof → String → List Nat → UtcMoment → Answer
  authorizeRoot : CapabilityProof → CapabilityClaims → UtcMoment → Answer
  authorizeDelegation : CapabilityProof → CapabilityClaims → CapabilityClaims → UtcMoment → Answer

/-- Go on if the collaborator returned `True`. -/
def demand (answer : Answer) (failed untrusted : String) : Except TenancyError Unit :=
  match answer with
  | .accepted => .ok ()
  | .refused => refuse untrusted
  | .raised => refuse failed

/-- Verify a canonical envelope inside one explicit trust/policy domain. -/
structure CapabilityVerifier where
  proofVerifier : ProofVerifier
  trustDomain : String
  policyVersion : String
  policy : ChainPolicy
  domain : isText 256 trustDomain = true
  version : isText 128 policyVersion = true

/-- Verification result/cache hint, never an in-process security boundary. -/
structure VerifiedCapability where
  envelope : CapabilityEnvelope
  trustDomain : String
  policyVersion : String
  verifiedAt : UtcMoment
  deriving DecidableEq

namespace CapabilityEnvelope

/-- `envelope.claims[-1]`. -/
def leaf (e : CapabilityEnvelope) : CapabilityClaims := e.claims.getLast e.chained.1

/-- `envelope.claims[0]`. -/
def root (e : CapabilityEnvelope) : CapabilityClaims := e.claims.head e.chained.1

/-- `zip(envelope.delegation_proofs, values, values[1:])`. -/
def edges (e : CapabilityEnvelope) : List (CapabilityProof × CapabilityClaims × CapabilityClaims) :=
  e.delegationProofs.zip (e.claims.zip e.claims.tail)

end CapabilityEnvelope

/-- `VerifiedCapability.chain_id`. -/
def VerifiedCapability.chainId (v : VerifiedCapability) : String := v.envelope.envelopeId

namespace CapabilityVerifier

/-- The two questions about the root. -/
def verifyRoot (V : CapabilityVerifier) (e : CapabilityEnvelope) (now : UtcMoment) :
    Except TenancyError Unit := do
  demand (V.proofVerifier.verify e.rootProof e.root.issuerId
      (rootPayload e.protocolVersion e.trustDomain e.policyVersion e.root) now)
    "root proof verifier failed closed" "root capability proof is not trusted"
  demand (V.proofVerifier.authorizeRoot e.rootProof e.root now)
    "root capability authority check failed closed"
    "root signer is not authorized for the capability tenant"

/-- The two questions about an edge. -/
def verifyEdge (V : CapabilityVerifier) (e : CapabilityEnvelope) (now : UtcMoment)
    (edge : CapabilityProof × CapabilityClaims × CapabilityClaims) : Except TenancyError Unit := do
  demand (V.proofVerifier.verify edge.1 edge.2.2.issuerId
      (delegationPayload e.protocolVersion e.trustDomain e.policyVersion edge.2.1 edge.2.2) now)
    "delegation proof verifier failed closed" "delegation proof is not trusted"
  demand (V.proofVerifier.authorizeDelegation edge.1 edge.2.1 edge.2.2 now)
    "delegation signer authority check failed closed"
    "delegation signer is not authorized for delegation proofs"

def verifyEdges (V : CapabilityVerifier) (e : CapabilityEnvelope) (now : UtcMoment) :
    List (CapabilityProof × CapabilityClaims × CapabilityClaims) → Except TenancyError Unit
  | [] => .ok ()
  | edge :: rest => do
    V.verifyEdge e now edge
    V.verifyEdges e now rest

/-- Go on if the condition holds. -/
def require (holds : Prop) [Decidable holds] (message : String) : Except TenancyError Unit :=
  if holds then .ok () else refuse message

/-- `CapabilityVerifier.verify` at a given time. -/
def verify (V : CapabilityVerifier) (e : CapabilityEnvelope) (now : UtcMoment)
    (allowExpired : Bool) : Except TenancyError VerifiedCapability := do
  require (e.protocolVersion = capabilityProtocolVersion) "capability protocol version is not supported"
  require (e.trustDomain = V.trustDomain) "capability trust domain is not accepted"
  require (e.policyVersion = V.policyVersion) "capability policy version is not accepted"
  validateChainStructure V.policy now e.claims
  require (allowExpired = true ∨ now.micros < e.leaf.expiresAt.micros)
    "cannot verify an expired capability"
  V.verifyRoot e now
  V.verifyEdges e now e.edges
  .ok ⟨e, V.trustDomain, V.policyVersion, now⟩

/-! ## What an accepted envelope says -/

theorem demand_ok {answer : Answer} {failed untrusted : String} {u : Unit} :
    demand answer failed untrusted = .ok u ↔ answer = .accepted := by
  cases answer <;> simp [demand, refuse]

theorem require_ok {holds : Prop} [Decidable holds] {message : String} {u : Unit} :
    require holds message = .ok u ↔ holds := by
  unfold require refuse
  by_cases h : holds <;> simp [h]

theorem verifyEdges_ok {V : CapabilityVerifier} {e : CapabilityEnvelope} {now : UtcMoment} :
    ∀ {edges : List (CapabilityProof × CapabilityClaims × CapabilityClaims)} {u : Unit},
      V.verifyEdges e now edges = .ok u ↔ ∀ edge ∈ edges, V.verifyEdge e now edge = .ok ()
  | [], _ => by simp [verifyEdges]
  | edge :: rest, u => by
    simp only [verifyEdges, except_bind_ok, @verifyEdges_ok V e now rest, List.forall_mem_cons]
    exact ⟨fun h => h.elim fun _ h => h, fun h => ⟨(), h⟩⟩

/-- An envelope this verifier accepts at this time. -/
structure Accepts (V : CapabilityVerifier) (e : CapabilityEnvelope) (now : UtcMoment)
    (allowExpired : Bool) : Prop where
  protocol : e.protocolVersion = capabilityProtocolVersion
  domain : e.trustDomain = V.trustDomain
  policy : e.policyVersion = V.policyVersion
  chain : validateChainStructure V.policy now e.claims = .ok ()
  unexpired : allowExpired = true ∨ now.micros < e.leaf.expiresAt.micros
  rootTrusted : V.proofVerifier.verify e.rootProof e.root.issuerId
    (rootPayload e.protocolVersion e.trustDomain e.policyVersion e.root) now = .accepted
  rootAuthorized : V.proofVerifier.authorizeRoot e.rootProof e.root now = .accepted
  edgeTrusted : ∀ proof parent child, (proof, parent, child) ∈ e.edges →
    V.proofVerifier.verify proof child.issuerId
      (delegationPayload e.protocolVersion e.trustDomain e.policyVersion parent child) now = .accepted
  edgeAuthorized : ∀ proof parent child, (proof, parent, child) ∈ e.edges →
    V.proofVerifier.authorizeDelegation proof parent child now = .accepted

/-- **An envelope is verified exactly when it is accepted**, and what is
returned is that envelope. -/
theorem verify_ok {V : CapabilityVerifier} {e : CapabilityEnvelope} {now : UtcMoment}
    {allowExpired : Bool} {v : VerifiedCapability} :
    V.verify e now allowExpired = .ok v ↔
      V.Accepts e now allowExpired ∧ v = ⟨e, V.trustDomain, V.policyVersion, now⟩ := by
  simp only [verify, verifyRoot, except_bind_ok, require_ok, verifyEdges_ok, verifyEdge, demand_ok,
    Except.ok.injEq]
  constructor
  · rintro ⟨_, hprotocol, _, hdomain, _, hpolicy, _, hchain, _, hexpired, _, ⟨_, htrusted, hauthorized⟩,
      _, hedges, rfl⟩
    refine ⟨⟨hprotocol, hdomain, hpolicy, hchain, hexpired, htrusted, hauthorized, ?_, ?_⟩, rfl⟩
    · intro proof parent child hedge
      obtain ⟨_, h, -⟩ := hedges _ hedge
      exact h
    · intro proof parent child hedge
      obtain ⟨_, -, h⟩ := hedges _ hedge
      exact h
  · rintro ⟨h, rfl⟩
    exact ⟨(), h.protocol, (), h.domain, (), h.policy, (), h.chain, (), h.unexpired, (),
      ⟨(), h.rootTrusted, h.rootAuthorized⟩, (),
      fun edge hedge => ⟨(), h.edgeTrusted _ _ _ hedge, h.edgeAuthorized _ _ _ hedge⟩, rfl⟩

end CapabilityVerifier

end QuantumEntanglement.Tenancy
