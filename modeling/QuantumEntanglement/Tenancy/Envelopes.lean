import QuantumEntanglement.Lib.Base64Url
import QuantumEntanglement.Tenancy.Claims

/-
  Capability envelopes — a chain of claims and the proofs it comes with

  An envelope carries one proof for its root claim and one for every edge of
  its chain. A proof names a key and an algorithm and signs a payload: the
  root claim, or an edge as its child together with the parent's fingerprint.

  What is proved:
    1. `claimPayload_inj` — a claim's payload determines the claim.
    2. `rootPayload_inj`, `delegationPayload_inj` — the bytes of a payload
       determine what it is about.
    3. `rootPayload_ne_delegationPayload` — no bytes are both.
    4. `proofMessage_inj` — a MAC input determines the key id, the algorithm
       and the digest of the payload.
    5. `envelope_inj` — an envelope's text determines the envelope.
-/

namespace QuantumEntanglement.Tenancy

open PyJson PyText IsoTime Sha256

/-! ## Proofs -/

/-- `_encode_signature`. -/
def encodeSignature (value : List Nat) : String := String.ofList (Base64Url.encode value)

/-- `_BASE64URL`. -/
def isBase64Url (value : String) : Bool :=
  value.toList.all (fun c => decide (c ∈ Base64Url.alphabet)) && 16 ≤ value.length &&
    value.length ≤ 2048

/-- `_decode_signature`; `none` is its `ValueError`. -/
def decodeSignature (value : String) : Option (List Nat) :=
  if isBase64Url value then
    match Base64Url.decode value.toList with
    | some decoded => if encodeSignature decoded = value then some decoded else none
    | none => none
  else none

/-- `_ALGORITHM`. -/
def isAlgorithm (value : String) : Bool :=
  match value.toList with
  | [] => false
  | c :: rest =>
    c.isUpper && rest.all (fun c => c.isUpper || c.isDigit || c == '_' || c == '-') &&
      1 ≤ rest.length && rest.length ≤ 31

/-- Detached proof metadata and signature for a root or delegation edge. -/
@[ext]
structure CapabilityProof where
  kid : String
  algorithm : String
  signature : String
  key : isOpaqueId kid = true
  named : isAlgorithm algorithm = true
  signed : (decodeSignature signature).isSome = true

instance : DecidableEq CapabilityProof := fun _ _ => decidable_of_iff' _ CapabilityProof.ext_iff

def CapabilityProof.toDict (p : CapabilityProof) : Value :=
  .dict [("kid", .str p.kid), ("alg", .str p.algorithm), ("signature", .str p.signature)]

/-- `_canonical_bytes`. -/
def canonicalBytes (v : Value) : List Nat := utf8 (dumps v)

/-- Bind JOSE-like proof headers and canonical payload into one MAC input. -/
def proofMessage (kid algorithm : String) (payload : List Nat) : List Nat :=
  canonicalBytes (.dict
    [("kid", .str kid), ("alg", .str algorithm), ("payloadSha256", .str (hexDigestBytes payload))])

/-! ## Envelopes -/

def capabilityProtocolVersion : String := "qe-capability/1"

/-- `_MAX_CAPABILITY_CHAIN_DEPTH`. -/
def maxChainDepth : Nat := 64

/-- Canonical claims plus root signature and one proof per delegation edge. -/
@[ext]
structure CapabilityEnvelope where
  protocolVersion : String
  trustDomain : String
  policyVersion : String
  claims : List CapabilityClaims
  rootProof : CapabilityProof
  delegationProofs : List CapabilityProof
  protocol : isText 64 protocolVersion = true
  domain : isText 256 trustDomain = true
  policy : isText 128 policyVersion = true
  chained : claims ≠ [] ∧ claims.length ≤ maxChainDepth
  proven : delegationProofs.length + 1 = claims.length

instance : DecidableEq CapabilityEnvelope := fun _ _ => decidable_of_iff' _ CapabilityEnvelope.ext_iff

def CapabilityEnvelope.toDict (e : CapabilityEnvelope) : Value :=
  .dict
    [("protocolVersion", .str e.protocolVersion), ("trustDomain", .str e.trustDomain),
      ("policyVersion", .str e.policyVersion),
      ("claims", .list (e.claims.map CapabilityClaims.toDict)),
      ("rootProof", e.rootProof.toDict),
      ("delegationProofs", .list (e.delegationProofs.map CapabilityProof.toDict))]

def CapabilityEnvelope.envelopeId (e : CapabilityEnvelope) : String := canonicalDigest e.toDict

def rootPayload (protocolVersion trustDomain policyVersion : String) (claims : CapabilityClaims) :
    List Nat :=
  canonicalBytes (.dict
    [("protocolVersion", .str protocolVersion), ("trustDomain", .str trustDomain),
      ("policyVersion", .str policyVersion), ("proofType", .str "root"),
      ("claims", claims.toDict)])

def delegationPayload (protocolVersion trustDomain policyVersion : String)
    (parent child : CapabilityClaims) : List Nat :=
  canonicalBytes (.dict
    [("protocolVersion", .str protocolVersion), ("trustDomain", .str trustDomain),
      ("policyVersion", .str policyVersion), ("proofType", .str "delegation"),
      ("parentFingerprint", .str parent.fingerprint), ("claims", child.toDict)])

/-! ## What a text determines -/

theorem utcNow_inj {t t' : UtcMoment} (h : utcNow t = utcNow t') : t = t' := by
  have hread := @readTimestamp_momentText .py311 _ t.inRange
  rw [show momentText t.micros = momentText t'.micros from h,
    readTimestamp_momentText t'.inRange] at hread
  have hmicros : t.micros = t'.micros := by
    rw [← momentReading_moment t.inRange, ← momentReading_moment t'.inRange, Option.some.inj hread]
  cases t
  cases t'
  simpa using hmicros

theorem plain_selector (s : Selector) : Plain s.toDict := by
  cases h : s.workspaceId <;> simp [Selector.toDict, h, Plain, PlainPairs]

theorem plain_claims (c : CapabilityClaims) : Plain c.toDict := by
  have hselector := plain_selector c.resource.toSelector
  cases h : c.parentFingerprint <;>
    simp [CapabilityClaims.toDict, CapabilityClaims.claimPayload, h, Plain, PlainPairs, hselector]

theorem selector_inj {s s' : Selector}
    (h : PyJson.normalize s.toDict = PyJson.normalize s'.toDict) : s = s' := by
  have hvalues := record_inj ["tenantId", "workspaceId", "resourceType", "resourceId"]
    [_, _, _, _] [_, _, _, _] (by decide) rfl rfl h
  obtain ⟨⟨tenant, _⟩, workspace, _, _⟩ := s
  obtain ⟨⟨tenant', _⟩, workspace', _, _⟩ := s'
  cases workspace with
  | none =>
    cases workspace' with
    | none => simpa [PyJson.normalize] using hvalues
    | some w' => simp [PyJson.normalize] at hvalues
  | some w =>
    cases workspace' with
    | none => simp [PyJson.normalize] at hvalues
    | some w' =>
      obtain ⟨w, _⟩ := w
      obtain ⟨w', _⟩ := w'
      simpa [PyJson.normalize] using hvalues

/-- The keys of a claim's payload, and what they hold. -/
def claimKeys : List String :=
  ["issuerId", "subjectId", "action", "resource", "issuedAt", "notBefore", "expiresAt", "audience",
    "nonce", "parentFingerprint"]

theorem fields_inj {c c' : CapabilityClaims}
    (h : (c.claimPayload.map Prod.snd).map PyJson.normalize =
      (c'.claimPayload.map Prod.snd).map PyJson.normalize) :
    c = c' := by
  simp only [CapabilityClaims.claimPayload, List.map_cons, List.map_nil, List.cons.injEq,
    and_true] at h
  obtain ⟨hissuer, hsubject, haction, hresource, hissued, hstart, hend, haudience, hnonce, hparent⟩ := h
  have hselector := selector_inj hresource
  have hi := utcNow_inj (Value.str.inj hissued)
  have hs := utcNow_inj (Value.str.inj hstart)
  have he := utcNow_inj (Value.str.inj hend)
  obtain ⟨_, _, ⟨_, _⟩, ⟨_, _, _, _⟩, _, _, _, _, ⟨_, _⟩, parent, _, _, _, _, _, _⟩ := c
  obtain ⟨_, _, ⟨_, _⟩, ⟨_, _, _, _⟩, _, _, _, _, ⟨_, _⟩, parent', _, _, _, _, _, _⟩ := c'
  obtain rfl : parent = parent' := by
    cases parent <;> cases parent' <;> simp_all [PyJson.normalize]
  simp_all [PyJson.normalize]

/-- **A claim's payload determines the claim.** -/
theorem claimPayload_inj {c c' : CapabilityClaims}
    (h : PyJson.normalize (.dict c.claimPayload) = PyJson.normalize (.dict c'.claimPayload)) : c = c' :=
  fields_inj (record_inj claimKeys _ _ (by decide) rfl rfl h)

theorem toDict_inj {c c' : CapabilityClaims} (h : PyJson.normalize c.toDict = PyJson.normalize c'.toDict) :
    c = c' := by
  have hzip : ∀ c : CapabilityClaims, c.toDict = .dict ((claimKeys ++ ["fingerprint"]).zip
      (c.claimPayload.map Prod.snd ++ [.str c.fingerprint])) := fun c => by
    simp [CapabilityClaims.toDict, CapabilityClaims.claimPayload, claimKeys]
  have hlen : ∀ c : CapabilityClaims,
      ((c.claimPayload.map Prod.snd).map PyJson.normalize).length = 10 := fun c => by
    simp [CapabilityClaims.claimPayload]
  rw [hzip c, hzip c'] at h
  have hvalues := record_inj _ _ _ (by decide) (by simp [claimKeys, CapabilityClaims.claimPayload])
    (by simp [claimKeys, CapabilityClaims.claimPayload]) h
  rw [List.map_append, List.map_append] at hvalues
  exact fields_inj (List.append_inj_left hvalues ((hlen c).trans (hlen c').symm))

/-- One text, one payload. -/
theorem canonicalBytes_inj {v w : Value} (hv : Plain v) (hw : Plain w)
    (h : canonicalBytes v = canonicalBytes w) : PyJson.normalize v = PyJson.normalize w :=
  normalize_of_dumps hv hw (utf8_injective h)

section
variable {protocol protocol' domain domain' policy policy' : String}
  {parent parent' c c' : CapabilityClaims}

/-- **The bytes of a root payload determine what it is about.** -/
theorem rootPayload_inj
    (h : rootPayload protocol domain policy c = rootPayload protocol' domain' policy' c') :
    protocol = protocol' ∧ domain = domain' ∧ policy = policy' ∧ c = c' := by
  have hplain := fun (p d v : String) (c : CapabilityClaims) =>
    show Plain (.dict [("protocolVersion", .str p), ("trustDomain", .str d),
      ("policyVersion", .str v), ("proofType", .str "root"), ("claims", c.toDict)]) by
      simp [Plain, PlainPairs, plain_claims c]
  have hvalues := record_inj ["protocolVersion", "trustDomain", "policyVersion", "proofType", "claims"]
    [_, _, _, _, _] [_, _, _, _, _] (by decide) rfl rfl
    (canonicalBytes_inj (hplain protocol domain policy c) (hplain protocol' domain' policy' c') h)
  simp only [List.map_cons, List.map_nil, List.cons.injEq, and_true] at hvalues
  obtain ⟨hprotocol, hdomain, hpolicy, -, hclaims⟩ := hvalues
  exact ⟨Value.str.inj hprotocol, Value.str.inj hdomain, Value.str.inj hpolicy, toDict_inj hclaims⟩

theorem plain_delegation (p d v : String) (parent child : CapabilityClaims) :
    Plain (.dict [("protocolVersion", .str p), ("trustDomain", .str d), ("policyVersion", .str v),
      ("proofType", .str "delegation"), ("parentFingerprint", .str parent.fingerprint),
      ("claims", child.toDict)]) := by
  simp [Plain, PlainPairs, plain_claims child]

/-- **The bytes of an edge's payload determine the child and the parent's
fingerprint.** -/
theorem delegationPayload_inj
    (h : delegationPayload protocol domain policy parent c =
      delegationPayload protocol' domain' policy' parent' c') :
    protocol = protocol' ∧ domain = domain' ∧ policy = policy' ∧
      parent.fingerprint = parent'.fingerprint ∧ c = c' := by
  have hvalues := record_inj
    ["protocolVersion", "trustDomain", "policyVersion", "proofType", "parentFingerprint", "claims"]
    [_, _, _, _, _, _] [_, _, _, _, _, _] (by decide) rfl rfl
    (canonicalBytes_inj (plain_delegation protocol domain policy parent c)
      (plain_delegation protocol' domain' policy' parent' c') h)
  simp only [List.map_cons, List.map_nil, List.cons.injEq, and_true] at hvalues
  obtain ⟨hprotocol, hdomain, hpolicy, -, hparent, hclaims⟩ := hvalues
  exact ⟨Value.str.inj hprotocol, Value.str.inj hdomain, Value.str.inj hpolicy,
    Value.str.inj hparent, toDict_inj hclaims⟩

end

/-- What a text says under a key. -/
theorem canonicalBytes_lookup {k : String} {v w : Value} {ps qs : List (String × Value)}
    (hp : Plain (.dict ps)) (hq : Plain (.dict qs)) (hps : (ps.map Prod.fst).Nodup)
    (hqs : (qs.map Prod.fst).Nodup) (hv : (k, v) ∈ ps) (hw : (k, w) ∈ qs)
    (h : canonicalBytes (.dict ps) = canonicalBytes (.dict qs)) :
    PyJson.normalize v = PyJson.normalize w := by
  have hnormal := canonicalBytes_inj hp hq h
  simp only [PyJson.normalize, Value.dict.injEq] at hnormal
  have hleft := lookup_normalizePairs [] hps hv
  rw [hnormal, lookup_normalizePairs [] hqs hw] at hleft
  exact (Option.some.inj hleft).symm

/-- **No bytes are both a root payload and an edge's.** -/
theorem rootPayload_ne_delegationPayload (protocol protocol' domain domain' policy policy' : String)
    (root parent child : CapabilityClaims) :
    rootPayload protocol domain policy root ≠
      delegationPayload protocol' domain' policy' parent child := by
  intro h
  have htype := canonicalBytes_lookup (k := "proofType") (v := .str "root") (w := .str "delegation")
    (by simp [Plain, PlainPairs, plain_claims root])
    (plain_delegation protocol' domain' policy' parent child) (by simp) (by simp) (by simp)
    (by simp) h
  simp [PyJson.normalize] at htype

/-- **A MAC input determines** the key id, the algorithm and the digest of the
payload. -/
theorem proofMessage_inj {kid kid' algorithm algorithm' : String} {payload payload' : List Nat}
    (h : proofMessage kid algorithm payload = proofMessage kid' algorithm' payload') :
    kid = kid' ∧ algorithm = algorithm' ∧ hexDigestBytes payload = hexDigestBytes payload' := by
  have hvalues := record_inj ["kid", "alg", "payloadSha256"] [_, _, _] [_, _, _] (by decide) rfl rfl
    (canonicalBytes_inj (by simp [Plain, PlainPairs]) (by simp [Plain, PlainPairs]) h)
  simpa [PyJson.normalize] using hvalues

theorem plainItems_iff {items : List Value} : PlainItems items ↔ ∀ v ∈ items, Plain v := by
  induction items with
  | nil => simp [PlainItems]
  | cons v rest ih => simp [PlainItems, ih]

theorem proof_inj {p p' : CapabilityProof}
    (h : PyJson.normalize p.toDict = PyJson.normalize p'.toDict) : p = p' := by
  have hvalues := record_inj ["kid", "alg", "signature"] [_, _, _] [_, _, _] (by decide) rfl rfl h
  cases p
  cases p'
  simpa [PyJson.normalize] using hvalues

/-- **An envelope's text determines the envelope.** -/
theorem envelope_inj {e e' : CapabilityEnvelope}
    (h : canonicalBytes e.toDict = canonicalBytes e'.toDict) : e = e' := by
  have hplain : ∀ e : CapabilityEnvelope, Plain e.toDict := fun e => by
    have hproof : ∀ p : CapabilityProof, Plain p.toDict := fun p => by
      simp [CapabilityProof.toDict, Plain, PlainPairs]
    simp [CapabilityEnvelope.toDict, Plain, PlainPairs, plainItems_iff, plain_claims, hproof]
  have hvalues := record_inj
    ["protocolVersion", "trustDomain", "policyVersion", "claims", "rootProof", "delegationProofs"]
    [_, _, _, _, _, _] [_, _, _, _, _, _] (by decide) rfl rfl
    (canonicalBytes_inj (hplain e) (hplain e') h)
  simp only [List.map_cons, List.map_nil, List.cons.injEq, and_true, PyJson.normalize, Value.str.injEq,
    Value.list.injEq, normalizeItems_eq, List.map_map] at hvalues
  obtain ⟨hprotocol, hdomain, hpolicy, hclaims, hroot, hedges⟩ := hvalues
  have hc := List.map_injective_iff.mpr (fun _ _ hxy => toDict_inj hxy) hclaims
  have hp := List.map_injective_iff.mpr (fun _ _ hxy => proof_inj hxy) hedges
  have hr := proof_inj hroot
  cases e
  cases e'
  simp_all

/-! ## Signatures -/

/-- A signature text is the encoding of the bytes it decodes to. -/
theorem decodeSignature_some {value : String} {bytes : List Nat}
    (h : decodeSignature value = some bytes) : encodeSignature bytes = value := by
  simp only [decodeSignature] at h
  split at h
  · split at h
    · split at h
      next heq =>
        rw [← Option.some.inj h]
        exact heq
      · simp at h
    · simp at h
  · simp at h

theorem decodeSignature_encode {bytes : List Nat} (hbyte : ∀ b ∈ bytes, b < 256)
    (hlen : 12 ≤ bytes.length ∧ bytes.length ≤ 1536) :
    decodeSignature (encodeSignature bytes) = some bytes := by
  have hcanonical : isBase64Url (encodeSignature bytes) = true := by
    simp only [isBase64Url, encodeSignature, String.toList_ofList, String.length_ofList,
      Base64Url.encode_length, Bool.and_eq_true, List.all_eq_true, decide_eq_true_eq]
    exact ⟨⟨Base64Url.encode_alphabet hbyte, by omega⟩, by omega⟩
  rw [decodeSignature, if_pos hcanonical, encodeSignature, String.toList_ofList,
    Base64Url.decode_encode hbyte]
  simp [encodeSignature]

end QuantumEntanglement.Tenancy
