import QuantumEntanglement.Lib.Sha256
import QuantumEntanglement.Store.Timestamps
import QuantumEntanglement.Tenancy.Scopes

/-
  Capability claims — one grant, and the chain it was delegated along

  A claim is a grant with an issuer, a subject and a window of validity. A
  chain starts with a root claim, and every further claim is issued by the
  subject of the one before and stays within it.

  A `datetime` is a UTC moment; a `timedelta` is its microseconds. Adding the
  clock skew raises `OverflowError` past the year 9999.

  What is proved:
    1. `validateDelegation_ok` — what an accepted edge says of its two claims.
    2. `validateChain_ok` — an accepted chain is a chain of accepted edges.
    3. `chain_attenuates` — every claim of it covers what its leaf covers.

  Correspondence (Python ↔ Lean):
    `_canonical_bytes`, `_canonical_digest`                ↔ `dumps`, `canonicalDigest`
    `_format_time`                                         ↔ `utcNow`
-/

namespace QuantumEntanglement.Tenancy

open PyJson PyText IsoTime Sha256

/-! ## Errors -/

inductive ErrorKind where
  | valueError
  | typeError
  | overflowError
  | delegationError
  | capabilityVerificationError
  | revocationGuardIntegrityError
  | sqliteError
  deriving DecidableEq

structure TenancyError where
  kind : ErrorKind
  message : String
  deriving DecidableEq

def valueError {α : Type} (message : String) : Except TenancyError α := .error ⟨.valueError, message⟩

/-- `raise CapabilityVerificationError(message)`. -/
def refuse {α : Type} (message : String) : Except TenancyError α :=
  .error ⟨.capabilityVerificationError, message⟩

/-- Go on unless `broken`; otherwise raise `DelegationError`. -/
def edgeCheck (broken : Prop) [Decidable broken] (message : String) : Except TenancyError Unit :=
  if broken then .error ⟨.delegationError, message⟩ else .ok ()

/-! ## Claims -/

/-- `_NONCE`, and an even number of digits. -/
def isNonce (value : String) : Bool :=
  value.toList.all isLowerHex && 32 ≤ value.length && value.length ≤ 128 && value.length % 2 == 0

structure CapabilityNonce where
  value : String
  valid : isNonce value = true
  deriving DecidableEq

/-- Nonce identity in its tenant-and-issuer uniqueness domain. -/
structure RevocationId where
  tenantId : TenantId
  issuerId : String
  nonce : CapabilityNonce
  deriving DecidableEq

/-- Decoded but untrusted capability facts that cannot authorize access. -/
@[ext]
structure CapabilityClaims where
  issuerId : String
  subjectId : String
  action : Action
  resource : ResourceScope
  issuedAt : UtcMoment
  notBefore : UtcMoment
  expiresAt : UtcMoment
  audience : String
  nonce : CapabilityNonce
  parentFingerprint : Option String
  issuer : isOpaqueId issuerId = true
  subject : isOpaqueId subjectId = true
  starts : issuedAt.micros ≤ notBefore.micros
  ends : notBefore.micros < expiresAt.micros
  aimed : isText 256 audience = true
  parent : ∀ f, parentFingerprint = some f → IsHexDigest f

instance : DecidableEq CapabilityClaims := fun _ _ => decidable_of_iff' _ CapabilityClaims.ext_iff

namespace CapabilityClaims

def tenantId (c : CapabilityClaims) : TenantId := c.resource.tenantId

def revocationId (c : CapabilityClaims) : RevocationId := ⟨c.tenantId, c.issuerId, c.nonce⟩

/-- `_claim_payload`. -/
def claimPayload (c : CapabilityClaims) : List (String × Value) :=
  [("issuerId", .str c.issuerId), ("subjectId", .str c.subjectId), ("action", .str c.action.text),
    ("resource", c.resource.toDict), ("issuedAt", .str (utcNow c.issuedAt)),
    ("notBefore", .str (utcNow c.notBefore)), ("expiresAt", .str (utcNow c.expiresAt)),
    ("audience", .str c.audience), ("nonce", .str c.nonce.value),
    ("parentFingerprint", match c.parentFingerprint with
      | some f => .str f
      | none => .null)]

end CapabilityClaims

/-- `_canonical_digest`. -/
def canonicalDigest (v : Value) : String := hexDigest (dumps v)

def CapabilityClaims.fingerprint (c : CapabilityClaims) : String := canonicalDigest (.dict c.claimPayload)

/-- `CapabilityClaims.to_dict`. -/
def CapabilityClaims.toDict (c : CapabilityClaims) : Value :=
  .dict (c.claimPayload ++ [("fingerprint", .str c.fingerprint)])

/-! ## Delegation -/

/-- `validate_delegation`. -/
def validateDelegation (parent child : CapabilityClaims) : Except TenancyError Unit := do
  edgeCheck (child.parentFingerprint ≠ some parent.fingerprint)
    "child does not reference the supplied parent"
  edgeCheck (child.issuerId ≠ parent.subjectId) "only the parent subject may delegate"
  edgeCheck (child.audience ≠ parent.audience) "delegation cannot change audience"
  edgeCheck (actionIsSubset parent.action child.action = false) "delegation cannot add actions"
  edgeCheck (parent.resource.contains child.resource.toSelector = false)
    "delegation cannot widen or cross resource scope"
  edgeCheck (child.issuedAt.micros < parent.issuedAt.micros)
    "delegation cannot be issued before its parent"
  edgeCheck (child.notBefore.micros < parent.notBefore.micros)
    "delegation cannot activate before its parent"
  edgeCheck (child.expiresAt.micros > parent.expiresAt.micros) "delegation cannot outlive its parent"
  edgeCheck (child.revocationId = parent.revocationId)
    "delegation must have a unique nonce in its issuer/tenant domain"

/-- What a chain is checked against. -/
structure ChainPolicy where
  audience : String
  maxTtl : Int
  maxClockSkew : Int
  maxChainDepth : Nat
  positive : 0 < maxTtl ∧ 0 < maxClockSkew ∧ 1 ≤ maxChainDepth ∧ maxChainDepth ≤ 64

/-- `moment + delta`. -/
def addDelta (t : UtcMoment) (delta : Int) : Except TenancyError Int :=
  if InRange (t.micros + delta) then .ok (t.micros + delta)
  else .error ⟨.overflowError, "date value out of range"⟩

/-- The check of a claim against the one before it, if it has one. -/
def checkLink (previous : Option CapabilityClaims) (claims : CapabilityClaims) :
    Except TenancyError Unit :=
  match previous with
  | none =>
    if claims.parentFingerprint ≠ none then refuse "root capability cannot reference a parent"
    else .ok ()
  | some parent =>
    match validateDelegation parent claims with
    | .ok () => .ok ()
    | .error e => refuse e.message

/-- The loop of `_validate_chain_structure`: the revocation ids seen, and the
claim before. -/
def validateLinks (policy : ChainPolicy) (now : UtcMoment) :
    List RevocationId → Option CapabilityClaims → List CapabilityClaims → Except TenancyError Unit
  | _, _, [] => .ok ()
  | seen, previous, claims :: rest => do
    if claims.audience ≠ policy.audience then refuse "capability audience does not match this service"
    else if claims.expiresAt.micros - claims.issuedAt.micros > policy.maxTtl then
      refuse "capability exceeds maximum TTL"
    else
      let latest ← addDelta now policy.maxClockSkew
      if claims.issuedAt.micros > latest then refuse "capability issued_at is in the future"
      else if claims.revocationId ∈ seen then refuse "capability nonce repeats in issuer/tenant domain"
      else
        checkLink previous claims
        validateLinks policy now (claims.revocationId :: seen) (some claims) rest

/-- `_validate_chain_structure`. -/
def validateChainStructure (policy : ChainPolicy) (now : UtcMoment) (chain : List CapabilityClaims) :
    Except TenancyError Unit :=
  if chain = [] then refuse "capability chain cannot be empty"
  else if chain.length > policy.maxChainDepth then refuse "capability chain exceeds maximum depth"
  else validateLinks policy now [] none chain

/-! ## What an accepted chain says -/

theorem except_bind_ok {α β : Type} {m : Except TenancyError α} {f : α → Except TenancyError β} {b : β} :
    (m >>= f) = .ok b ↔ ∃ a, m = .ok a ∧ f a = .ok b := by
  cases m <;> simp [bind, Except.bind]

theorem edgeCheck_ok {broken : Prop} [Decidable broken] {message : String} {u : Unit} :
    edgeCheck broken message = .ok u ↔ ¬broken := by
  unfold edgeCheck
  by_cases h : broken <;> simp [h]

/-- An edge of a chain: the child is the parent's own delegation, within it. -/
structure Attenuates (parent child : CapabilityClaims) : Prop where
  linked : child.parentFingerprint = some parent.fingerprint
  issued : child.issuerId = parent.subjectId
  audience : child.audience = parent.audience
  action : actionIsSubset parent.action child.action = true
  resource : parent.resource.contains child.resource.toSelector = true
  after : parent.issuedAt.micros ≤ child.issuedAt.micros
  starts : parent.notBefore.micros ≤ child.notBefore.micros
  ends : child.expiresAt.micros ≤ parent.expiresAt.micros
  distinct : child.revocationId ≠ parent.revocationId

/-- An accepted edge is one that attenuates. -/
theorem validateDelegation_ok {parent child : CapabilityClaims} {u : Unit} :
    validateDelegation parent child = .ok u ↔ Attenuates parent child := by
  simp only [validateDelegation, except_bind_ok, edgeCheck_ok]
  constructor
  · rintro ⟨_, h₁, _, h₂, _, h₃, _, h₄, _, h₅, _, h₆, _, h₇, _, h₈, h₉⟩
    exact ⟨not_not.mp h₁, not_not.mp h₂, not_not.mp h₃, by simpa using h₄, by simpa using h₅,
      Int.not_lt.mp h₆, Int.not_lt.mp h₇, Int.not_lt.mp h₈, h₉⟩
  · intro h
    exact ⟨(), not_not.mpr h.linked, (), not_not.mpr h.issued, (), not_not.mpr h.audience, (),
      by simpa using h.action, (), by simpa using h.resource, (), Int.not_lt.mpr h.after, (),
      Int.not_lt.mpr h.starts, (), Int.not_lt.mpr h.ends, h.distinct⟩

theorem checkLink_ok {previous : Option CapabilityClaims} {claims : CapabilityClaims} {u : Unit}
    (h : checkLink previous claims = .ok u) :
    (previous = none → claims.parentFingerprint = none) ∧
      ∀ parent, previous = some parent → Attenuates parent claims := by
  cases previous with
  | none =>
    simp only [checkLink, refuse] at h
    split at h
    · simp at h
    next hroot => exact ⟨fun _ => not_not.mp hroot, fun _ hp => absurd hp (by simp)⟩
  | some parent =>
    simp only [checkLink, refuse] at h
    refine ⟨fun hp => absurd hp (by simp), fun parent' hp => ?_⟩
    rw [← Option.some.inj hp]
    cases hedge : validateDelegation parent claims with
    | ok u' => exact validateDelegation_ok.mp hedge
    | error e =>
      rw [hedge] at h
      simp at h

/-- The links of an accepted chain, from the claim before it on. -/
theorem validateLinks_ok {policy : ChainPolicy} {now : UtcMoment} :
    ∀ {seen : List RevocationId} {previous : Option CapabilityClaims} {chain : List CapabilityClaims}
      {u : Unit}, validateLinks policy now seen previous chain = .ok u →
      (∀ c ∈ chain, c.audience = policy.audience) ∧ chain.IsChain Attenuates ∧
        ∀ c, chain.head? = some c → (previous = none → c.parentFingerprint = none) ∧
          ∀ parent, previous = some parent → Attenuates parent c
  | _, _, [], _, _ => ⟨by simp, .nil, by simp⟩
  | seen, previous, claims :: rest, u, h => by
    simp only [validateLinks, refuse] at h
    split at h
    · simp at h
    next haudience =>
      split at h
      · simp at h
      · simp only [except_bind_ok] at h
        obtain ⟨latest, -, h⟩ := h
        split at h
        · simp at h
        · split at h
          · simp at h
          · simp only [except_bind_ok] at h
            obtain ⟨_, hlink, hrest⟩ := h
            obtain ⟨haudiences, hchain, hhead⟩ := validateLinks_ok hrest
            refine ⟨fun c hc => ?_, ?_, fun c hc => ?_⟩
            · rcases List.mem_cons.mp hc with rfl | hc
              · exact not_not.mp haudience
              · exact haudiences c hc
            · cases rest with
              | nil => exact .singleton _
              | cons next more => exact .cons_cons ((hhead next rfl).2 claims rfl) hchain
            · obtain rfl := Option.some.inj hc
              exact checkLink_ok hlink

/-- **An accepted chain** is not empty, and its edges attenuate. -/
theorem validateChain_ok {policy : ChainPolicy} {now : UtcMoment} {chain : List CapabilityClaims}
    {u : Unit} (h : validateChainStructure policy now chain = .ok u) :
    chain ≠ [] ∧ chain.length ≤ policy.maxChainDepth ∧ (∀ c ∈ chain, c.audience = policy.audience) ∧
      chain.IsChain Attenuates ∧ ∀ c, chain.head? = some c → c.parentFingerprint = none := by
  simp only [validateChainStructure, refuse] at h
  split at h
  · simp at h
  next hne =>
    split at h
    · simp at h
    next hdepth =>
      obtain ⟨haudience, hchain, hhead⟩ := validateLinks_ok h
      exact ⟨hne, Nat.not_lt.mp hdepth, haudience, hchain, fun c hc => (hhead c hc).1 rfl⟩

/-! ## Attenuation -/

/-- The claim grants the request, and is valid at the instant. -/
structure CapabilityClaims.Covers (c : CapabilityClaims) (action : RequestedAction)
    (resource : Selector) (t : UtcMoment) : Prop where
  action : actionCovers c.action action = true
  resource : c.resource.contains resource = true
  started : c.notBefore.micros ≤ t.micros
  running : t.micros < c.expiresAt.micros

section
variable {parent child : CapabilityClaims}

theorem Attenuates.covers (h : Attenuates parent child) {action : RequestedAction}
    {resource : Selector} {t : UtcMoment} (hc : child.Covers action resource t) :
    parent.Covers action resource t where
  action := covers_of_subset h.action hc.action
  resource := contains_trans h.resource hc.resource
  started := le_trans h.starts hc.started
  running := lt_of_lt_of_le hc.running h.ends

theorem Attenuates.tenant (h : Attenuates parent child) : parent.tenantId = child.tenantId :=
  (contains_iff.mp h.resource).1

end

/-- **What the leaf of an accepted chain covers, every claim of it covers**,
in the same tenant and for the same audience. -/
theorem chain_attenuates {policy : ChainPolicy} {now : UtcMoment} {chain : List CapabilityClaims}
    {u : Unit} (h : validateChainStructure policy now chain = .ok u) {leaf : CapabilityClaims}
    (hleaf : chain.getLast? = some leaf) :
    ∀ c ∈ chain, c.tenantId = leaf.tenantId ∧ c.audience = leaf.audience ∧
      ∀ (action : RequestedAction) (resource : Selector) (t : UtcMoment),
        leaf.Covers action resource t → c.Covers action resource t := by
  obtain ⟨hne, -, -, hchain, -⟩ := validateChain_ok h
  have hlast : chain.getLast hne = leaf :=
    Option.some.inj ((List.getLast?_eq_some_getLast hne).symm.trans hleaf)
  refine hchain.backwards_induction _ chain ?_ (fun _ => ?_)
  · rintro parent child hedge ⟨htenant, haudience, hcovers⟩
    exact ⟨hedge.tenant.trans htenant, hedge.audience.symm.trans haudience,
      fun action resource t ht => hedge.covers (hcovers action resource t ht)⟩
  · rw [hlast]
    exact ⟨rfl, rfl, fun _ _ _ ht => ht⟩

end QuantumEntanglement.Tenancy
