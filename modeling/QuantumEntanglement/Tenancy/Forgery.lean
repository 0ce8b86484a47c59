import QuantumEntanglement.Tenancy.Decisions
import QuantumEntanglement.Tenancy.KeyLifecycle

/-
  No forged or spliced capability — what an accepted envelope was signed as

  A session is a ring together with a record of everything its `sign` calls
  signed. An envelope a verifier over that ring accepts may be put together
  from any pieces; each of its proofs turns out to be one that `sign` made for
  exactly the payload it is accepted for.

  Assumed, for the finitely many texts that occur:
    `IdealMac` — a MAC the ring accepts for a message is one `sign` computed
      for that message under that secret, and two signed messages have two MACs.
    `IdealHash` — no two payloads, no two claims and no two keys collide.

  What is proved:
    1. `session_inv` — every recorded proof is the proof of its key, and the
       key is the one its id has stood for ever since.
    2. `trusted_signed` — a proof the ring accepts was signed as such.
    3. `no_forgery` — so for the root and for every edge of an envelope, and
       no proof serves for two things.
-/

namespace QuantumEntanglement.Tenancy

open PyJson PyText IsoTime Sha256 TransitionSystem

/-! ## Sessions -/

/-- One thing `sign` signed, and the key it took. -/
structure SignRecord where
  key : CapabilitySigningKey
  signerId : String
  payload : List Nat
  signedAt : UtcMoment
  proof : CapabilityProof

/-- What was put through the MAC. -/
def SignRecord.message (r : SignRecord) : List Nat :=
  proofMessage r.key.kid r.key.algorithm r.payload

structure Session where
  ring : Ring
  records : List SignRecord

/-- What a call adds to the records. -/
def recordOf (ring : Ring) : RingCall × RingReply → Option SignRecord
  | (.sign kid signerId payload now, .signed proof) =>
    (ring.key? kid).map (fun k => ⟨k, signerId, payload, now, proof⟩)
  | _ => none

/-- The ring's system, with a record of what was signed. -/
def sessionSystem (readPayload : List Nat → Option Value) : System Session (RingCall × RingReply) where
  start s := (ringSystem readPayload).start s.ring ∧ s.records = []
  step s label s' := (ringSystem readPayload).step s.ring label s'.ring ∧
    s'.records = s.records ++ (recordOf s.ring label).toList

/-- The ring as a verifier's proof verifier. -/
def ringVerifier (readPayload : List Nat → Option Value) (ring : Ring) : ProofVerifier where
  verify proof signerId payload now := .ofBool (verify readPayload proof signerId payload now ring)
  authorizeRoot proof claims now := .ofBool (authorizeRoot proof claims now ring)
  authorizeDelegation proof parent child now :=
    .ofBool (authorizeDelegation proof parent child now ring)

structure SessionInv (s : Session) : Prop where
  ring : RingInv s.ring
  made : ∀ r ∈ s.records, r.proof = proofOf r.key r.payload ∧ r.key.principalId = r.signerId
  known : ∀ r ∈ s.records, s.ring.keyIdentities r.key.kid = some (keyIdentity r.key)

section
variable {readPayload : List Nat → Option Value} {s s' : Session}

theorem step_session {label : RingCall × RingReply} (hi : SessionInv s)
    (h : (sessionSystem readPayload).step s label s') : SessionInv s' := by
  obtain ⟨hstep, hrecords⟩ := h
  obtain ⟨hring, hlater⟩ := step_ring hi.ring hstep
  have hnew : ∀ r, recordOf s.ring label = some r → (r.proof = proofOf r.key r.payload ∧
      r.key.principalId = r.signerId) ∧ s.ring.keyIdentities r.key.kid = some (keyIdentity r.key) := by
    intro r hr
    obtain ⟨call, reply⟩ := label
    cases call with
    | sign kid signerId payload now =>
      cases reply with
      | signed proof =>
        have hsign : sign readPayload kid signerId payload now s.ring = .ok proof := by
          have hexec : RingCall.exec readPayload (.sign kid signerId payload now) s.ring =
            (.signed proof, s'.ring) := hstep
          simp only [RingCall.exec] at hexec
          split at hexec
          next p hp =>
            rw [hp, RingReply.signed.inj (Prod.mk.inj hexec).1]
          · simp at hexec
        obtain ⟨k, hkey, -, hprincipal, -, -, hproof⟩ := sign_ok hsign
        rw [recordOf, hkey] at hr
        rw [← Option.some.inj hr]
        obtain ⟨hmem, -⟩ := key?_some hkey
        exact ⟨⟨hproof, hprincipal⟩, (hi.ring.installed k hmem).2.1⟩
      | replaced => simp [recordOf] at hr
      | answered => simp [recordOf] at hr
      | raised => simp [recordOf] at hr
    | replaceKeys => simp [recordOf] at hr
    | verify => simp [recordOf] at hr
    | authorizeRoot => simp [recordOf] at hr
    | authorizeDelegation => simp [recordOf] at hr
  have hcases : ∀ r ∈ s'.records, r ∈ s.records ∨ recordOf s.ring label = some r := by
    intro r hr
    rw [hrecords, List.mem_append, Option.mem_toList] at hr
    exact hr
  refine ⟨hring, fun r hr => ?_, fun r hr => ?_⟩
  · rcases hcases r hr with hr | hr
    · exact hi.made r hr
    · exact (hnew r hr).1
  · rcases hcases r hr with hr | hr
    · exact hlater.identities _ _ (hi.known r hr)
    · exact hlater.identities _ _ (hnew r hr).2

/-- **Every record** is of its key's own proof, and its key id stands for that
key still. -/
theorem session_inv (h : Reachable (sessionSystem readPayload) s) : SessionInv s := by
  refine invariant_of_reachable (fun s hstart => ?_) (fun _ _ _ hi hs => step_session hi hs) h
  obtain ⟨hring, hrecords⟩ := hstart
  exact ⟨reachable_ring (.start hring), by simp [hrecords], by simp [hrecords]⟩

end

/-! ## What is assumed of the MAC and the digest -/

/-- What a verifier asks its proof verifier about an envelope. -/
def CapabilityEnvelope.questions (e : CapabilityEnvelope) : List (CapabilityProof × List Nat) :=
  (e.rootProof, rootPayload e.protocolVersion e.trustDomain e.policyVersion e.root) ::
    e.edges.map (fun edge => (edge.1,
      delegationPayload e.protocolVersion e.trustDomain e.policyVersion edge.2.1 edge.2.2))

/-- A MAC the ring accepts was computed by `sign`, and two signed messages
have two MACs. -/
structure IdealMac (s : Session) (envelopes : List CapabilityEnvelope) : Prop where
  unforgeable : ∀ question ∈ envelopes.flatMap CapabilityEnvelope.questions, ∀ k ∈ s.ring.keys,
    decodeSignature question.1.signature =
        some (hmac k.secret (proofMessage question.1.kid question.1.algorithm question.2)) →
      ∃ r ∈ s.records, r.key.secret = k.secret ∧
        r.message = proofMessage question.1.kid question.1.algorithm question.2
  binding : ∀ r ∈ s.records, ∀ r' ∈ s.records, r.proof = r'.proof → r.message = r'.message

/-- No two payloads, no two claims and no two keys collide. -/
structure IdealHash (s : Session) (envelopes : List CapabilityEnvelope) : Prop where
  payloads : NoCollision (s.records.map SignRecord.payload ++
    (envelopes.flatMap CapabilityEnvelope.questions).map Prod.snd)
  claims : NoCollision ((envelopes.flatMap CapabilityEnvelope.claims).map
    (fun c => canonicalBytes (.dict c.claimPayload)))
  keys : DistinctKeys (s.records.map SignRecord.key ++ s.ring.keys)

/-! ## A trusted proof was signed -/

section
variable {readPayload : List Nat → Option Value} {s : Session} {envelopes : List CapabilityEnvelope}

theorem verify_true {proof : CapabilityProof} {signerId : String} {payload : List Nat}
    {t : UtcMoment} {ring : Ring} (h : verify readPayload proof signerId payload t ring = true) :
    ∃ k, ring.key? proof.kid = some k ∧ k.status ≠ .revoked ∧ k.algorithm = proof.algorithm ∧
      k.principalId = signerId ∧ k.ValidAt t ∧
      decodeSignature proof.signature =
        some (hmac k.secret (proofMessage proof.kid proof.algorithm payload)) := by
  unfold verify at h
  split at h
  next supplied k hsupplied hkey =>
    split at h
    · simp at h
    next hstatus =>
      split at h
      · simp at h
      next hnames =>
        split at h
        · simp at h
        next hvalid =>
          split at h
          · simp at h
          · rw [not_or, not_not, not_not] at hnames
            exact ⟨k, hkey, hstatus, hnames.1, hnames.2, not_not.mp hvalid,
              by rw [hsupplied, of_decide_eq_true h]⟩
  · simp at h

/-- A proof is what signed it, when the MAC and the message agree. -/
theorem proof_eq {r : SignRecord} {proof : CapabilityProof} {k : CapabilitySigningKey}
    {payload : List Nat} (hmade : r.proof = proofOf r.key r.payload)
    (hsecret : r.key.secret = k.secret)
    (hmessage : r.message = proofMessage proof.kid proof.algorithm payload)
    (hmac' : decodeSignature proof.signature =
      some (hmac k.secret (proofMessage proof.kid proof.algorithm payload))) :
    r.proof = proof := by
  obtain ⟨hkid, halgorithm, -⟩ := proofMessage_inj hmessage
  have hsignature : encodeSignature (macOf r.key r.payload) = proof.signature := by
    rw [← decodeSignature_some hmac', macOf, hsecret, ← hmessage, SignRecord.message]
  rw [hmade]
  cases proof
  simp only [proofOf, CapabilityProof.mk.injEq]
  exact ⟨hkid, halgorithm, hsignature⟩

/-- **A proof the ring accepts was signed for exactly that payload**, by its
signer. -/
theorem trusted_signed (hs : SessionInv s) (hmac : IdealMac s envelopes)
    (hhash : IdealHash s envelopes) {proof : CapabilityProof} {payload : List Nat}
    (hq : (proof, payload) ∈ envelopes.flatMap CapabilityEnvelope.questions) {signerId : String}
    {t : UtcMoment} (h : verify readPayload proof signerId payload t s.ring = true) :
    (∃ r ∈ s.records, r.proof = proof ∧ r.payload = payload ∧ r.signerId = signerId) ∧
      ∀ r ∈ s.records, r.proof = proof → r.payload = payload := by
  obtain ⟨k, hkey, -, -, hprincipal, -, hsignature⟩ := verify_true h
  obtain ⟨hk, hkid⟩ := key?_some hkey
  obtain ⟨r, hr, hsecret, hmessage⟩ := hmac.unforgeable _ hq k hk hsignature
  obtain ⟨hmade, hsigner⟩ := hs.made r hr
  have hproof := proof_eq hmade hsecret hmessage hsignature
  have hpayload : ∀ r ∈ s.records, r.message = proofMessage proof.kid proof.algorithm payload →
      r.payload = payload := fun r hr hmessage =>
    hhash.payloads _ (List.mem_append_left _ (List.mem_map_of_mem hr)) _
      (List.mem_append_right _ (List.mem_map_of_mem hq)) (proofMessage_inj hmessage).2.2
  refine ⟨⟨r, hr, hproof, hpayload r hr hmessage, ?_⟩, fun r' hr' hproof' => ?_⟩
  · -- the key id stands for the key that signed
    have hrkid : r.key.kid = k.kid := (proofMessage_inj hmessage).1.trans hkid.symm
    have hidentity : keyIdentity r.key = keyIdentity k := by
      have hknown := hs.known r hr
      rw [hrkid, (hs.ring.installed k hk).2.1] at hknown
      exact (Option.some.inj hknown).symm
    have hsame := keyIdentity_inj hhash.keys (List.mem_append_left _ (List.mem_map_of_mem hr))
      (List.mem_append_right _ hk) hidentity
    have hp : k.principalId = r.key.principalId := by rw [hsame]
    rw [← hsigner, ← hp, hprincipal]
  · exact hpayload r' hr' ((hmac.binding r' hr' r hr (hproof'.trans hproof.symm)).trans hmessage)

/-- Neighbours of a chain are related. -/
theorem isChain_zip {α : Type} {R : α → α → Prop} : ∀ {l : List α}, l.IsChain R →
    ∀ a b, (a, b) ∈ l.zip l.tail → R a b
  | [], _, _, _, h => by simp at h
  | [_], _, _, _, h => by simp at h
  | x :: y :: rest, hchain, a, b, h => by
    rw [List.isChain_cons_cons] at hchain
    rcases List.mem_cons.mp h with heq | h
    · obtain ⟨rfl, rfl⟩ := Prod.mk.inj heq
      exact hchain.1
    · exact isChain_zip hchain.2 a b h

theorem edge_attenuates {e : CapabilityEnvelope} {policy : ChainPolicy} {now : UtcMoment}
    (h : validateChainStructure policy now e.claims = .ok ()) {proof : CapabilityProof}
    {parent child : CapabilityClaims} (hedge : (proof, parent, child) ∈ e.edges) :
    Attenuates parent child := by
  obtain ⟨-, -, -, hchain, -⟩ := validateChain_ok h
  exact isChain_zip hchain _ _ (List.of_mem_zip hedge).2

theorem edge_claims {e : CapabilityEnvelope} {proof : CapabilityProof} {parent child : CapabilityClaims}
    (hedge : (proof, parent, child) ∈ e.edges) : parent ∈ e.claims :=
  (List.of_mem_zip (List.of_mem_zip hedge).2).1

theorem fingerprint_inj (hhash : IdealHash s envelopes) {e e' : CapabilityEnvelope}
    (he : e ∈ envelopes) (he' : e' ∈ envelopes) {c c' : CapabilityClaims} (hc : c ∈ e.claims)
    (hc' : c' ∈ e'.claims) (h : c.fingerprint = c'.fingerprint) : c = c' := by
  have heq : ∀ c : CapabilityClaims, c.fingerprint = hexDigestBytes (canonicalBytes (.dict c.claimPayload)) :=
    fun c => by
      unfold CapabilityClaims.fingerprint canonicalDigest canonicalBytes hexDigest hexDigestBytes
      rfl
  have hmem : ∀ {e : CapabilityEnvelope} {c : CapabilityClaims}, e ∈ envelopes → c ∈ e.claims →
      canonicalBytes (.dict c.claimPayload) ∈ (envelopes.flatMap CapabilityEnvelope.claims).map
        (fun c => canonicalBytes (.dict c.claimPayload)) :=
    fun he hc => List.mem_map_of_mem (List.mem_flatMap.mpr ⟨_, he, hc⟩)
  rw [heq, heq] at h
  have hbytes := hhash.claims _ (hmem he hc) _ (hmem he' hc') h
  have hplain : ∀ c : CapabilityClaims, Plain (.dict c.claimPayload) := fun c => by
    have hselector := plain_selector c.resource.toSelector
    cases hp : c.parentFingerprint <;>
      simp [CapabilityClaims.claimPayload, hp, Plain, PlainPairs, hselector]
  exact claimPayload_inj (canonicalBytes_inj (hplain c) (hplain c') hbytes)

/-- The root of an accepted envelope was signed as a root. -/
def RootSigned (s : Session) (V : CapabilityVerifier) (e : CapabilityEnvelope) (t : UtcMoment) : Prop :=
  ∃ r ∈ s.records, r.proof = e.rootProof ∧
    r.payload = rootPayload capabilityProtocolVersion V.trustDomain V.policyVersion e.root ∧
    r.signerId = e.root.issuerId ∧
    ∃ k, s.ring.key? e.rootProof.kid = some k ∧ k.status ≠ .revoked ∧ k.ValidAt t ∧
      k.principalId = e.root.issuerId ∧ KeyUsage.root ∈ k.usages ∧ e.root.tenantId ∈ k.rootTenants

/-- An edge was signed as that edge, by the parent's subject. -/
def EdgeSigned (s : Session) (V : CapabilityVerifier) (proof : CapabilityProof)
    (parent child : CapabilityClaims) : Prop :=
  ∃ r ∈ s.records, r.proof = proof ∧
    r.payload =
      delegationPayload capabilityProtocolVersion V.trustDomain V.policyVersion parent child ∧
    r.signerId = parent.subjectId

variable {V : CapabilityVerifier}

theorem ofBool_accepted {b : Bool} : Answer.ofBool b = .accepted ↔ b = true := by
  cases b <;> simp [Answer.ofBool]

/-- What an accepted envelope's questions were answered. -/
theorem accepted_trusted {e : CapabilityEnvelope} {t : UtcMoment} {allowExpired : Bool}
    (hV : V.proofVerifier = ringVerifier readPayload s.ring) (h : V.Accepts e t allowExpired) :
    verify readPayload e.rootProof e.root.issuerId
        (rootPayload e.protocolVersion e.trustDomain e.policyVersion e.root) t s.ring = true ∧
      authorizeRoot e.rootProof e.root t s.ring = true ∧
      ∀ proof parent child, (proof, parent, child) ∈ e.edges →
        verify readPayload proof child.issuerId
          (delegationPayload e.protocolVersion e.trustDomain e.policyVersion parent child) t
          s.ring = true := by
  have htrusted := h.rootTrusted
  have hauthorized := h.rootAuthorized
  have hedges := h.edgeTrusted
  rw [hV] at htrusted hauthorized hedges
  exact ⟨ofBool_accepted.mp htrusted, ofBool_accepted.mp hauthorized,
    fun proof parent child hedge => ofBool_accepted.mp (hedges proof parent child hedge)⟩

theorem root_question {e : CapabilityEnvelope} (he : e ∈ envelopes) :
    (e.rootProof, rootPayload e.protocolVersion e.trustDomain e.policyVersion e.root) ∈
      envelopes.flatMap CapabilityEnvelope.questions :=
  List.mem_flatMap.mpr ⟨e, he, List.mem_cons_self⟩

theorem edge_question {e : CapabilityEnvelope} (he : e ∈ envelopes) {proof : CapabilityProof}
    {parent child : CapabilityClaims} (hedge : (proof, parent, child) ∈ e.edges) :
    (proof, delegationPayload e.protocolVersion e.trustDomain e.policyVersion parent child) ∈
      envelopes.flatMap CapabilityEnvelope.questions :=
  List.mem_flatMap.mpr ⟨e, he, List.mem_cons_of_mem _ (List.mem_map.mpr ⟨_, hedge, rfl⟩)⟩

/-- **No forged or spliced capability**: whatever pieces the envelopes accepted
over a ring were put together from, each root was signed as that root and each
edge as that edge; nothing signed as a root is accepted on an edge, nothing
signed as an edge as a root; and a proof two accepted envelopes share is of
the same claim in both. -/
theorem no_forgery (hreach : Reachable (sessionSystem readPayload) s)
    (hV : V.proofVerifier = ringVerifier readPayload s.ring)
    (hmac : IdealMac s envelopes) (hhash : IdealHash s envelopes)
    (haccepted : ∀ e ∈ envelopes, ∃ t allowExpired v, V.verify e t allowExpired = .ok v) :
    (∀ e ∈ envelopes, ∀ (t : UtcMoment) (allowExpired : Bool) (v : VerifiedCapability),
      V.verify e t allowExpired = .ok v → RootSigned s V e t ∧
        ∀ proof parent child, (proof, parent, child) ∈ e.edges → EdgeSigned s V proof parent child) ∧
    (∀ e ∈ envelopes, ∀ r ∈ s.records,
      (∀ protocol domain policy parent child,
        r.payload = delegationPayload protocol domain policy parent child → r.proof ≠ e.rootProof) ∧
      ∀ protocol domain policy root, r.payload = rootPayload protocol domain policy root →
        ∀ proof parent child, (proof, parent, child) ∈ e.edges → r.proof ≠ proof) ∧
    ∀ e ∈ envelopes, ∀ e' ∈ envelopes,
      (e.rootProof = e'.rootProof → e.root = e'.root) ∧
      ∀ proof parent child, (proof, parent, child) ∈ e.edges →
        proof ≠ e'.rootProof ∧ ∀ parent' child', (proof, parent', child') ∈ e'.edges →
          parent = parent' ∧ child = child' := by
  have hs := session_inv hreach
  -- what an accepted envelope's root and edges were signed as
  have hroot : ∀ e ∈ envelopes, ∀ r ∈ s.records, r.proof = e.rootProof →
      r.payload = rootPayload e.protocolVersion e.trustDomain e.policyVersion e.root := by
    intro e he r hr hproof
    obtain ⟨t, allowExpired, v, hverify⟩ := haccepted e he
    obtain ⟨htrusted, -, -⟩ := accepted_trusted hV (CapabilityVerifier.verify_ok.mp hverify).1
    exact (trusted_signed hs hmac hhash (root_question he) htrusted).2 r hr hproof
  have hedge : ∀ e ∈ envelopes, ∀ proof parent child, (proof, parent, child) ∈ e.edges →
      (∃ r ∈ s.records, r.proof = proof) ∧ ∀ r ∈ s.records, r.proof = proof →
        r.payload = delegationPayload e.protocolVersion e.trustDomain e.policyVersion parent child := by
    intro e he proof parent child hmem
    obtain ⟨t, allowExpired, v, hverify⟩ := haccepted e he
    obtain ⟨-, -, hedges⟩ := accepted_trusted hV (CapabilityVerifier.verify_ok.mp hverify).1
    obtain ⟨⟨r, hr, hproof, -⟩, hall⟩ :=
      trusted_signed hs hmac hhash (edge_question he hmem) (hedges proof parent child hmem)
    exact ⟨⟨r, hr, hproof⟩, hall⟩
  refine ⟨fun e he t allowExpired v hverify => ?_, fun e he r hr => ⟨?_, ?_⟩,
    fun e he e' he' => ⟨fun hsame => ?_, fun proof parent child hmem => ⟨fun hsame => ?_, ?_⟩⟩⟩
  · have haccepts := (CapabilityVerifier.verify_ok.mp hverify).1
    obtain ⟨htrusted, hauthorized, hedges⟩ := accepted_trusted hV haccepts
    have hnames := And.intro haccepts.protocol (And.intro haccepts.domain haccepts.policy)
    refine ⟨?_, fun proof parent child hmem => ?_⟩
    · obtain ⟨⟨r, hr, hproof, hpayload, hsigner⟩, -⟩ :=
        trusted_signed hs hmac hhash (root_question he) htrusted
      rw [hnames.1, hnames.2.1, hnames.2.2] at hpayload
      refine ⟨r, hr, hproof, hpayload, hsigner, ?_⟩
      unfold authorizeRoot at hauthorized
      split at hauthorized
      · simp at hauthorized
      next k hkey =>
        obtain ⟨hstatus, hprincipal, -, hvalid, husage, htenant⟩ := of_decide_eq_true hauthorized
        exact ⟨k, hkey, hstatus, hvalid, hprincipal, husage, htenant⟩
    · obtain ⟨⟨r, hr, hproof, hpayload, hsigner⟩, -⟩ :=
        trusted_signed hs hmac hhash (edge_question he hmem) (hedges proof parent child hmem)
      rw [hnames.1, hnames.2.1, hnames.2.2] at hpayload
      exact ⟨r, hr, hproof, hpayload,
        hsigner.trans (edge_attenuates haccepts.chain hmem).issued⟩
  · intro protocol domain policy parent child hpayload hproof
    exact rootPayload_ne_delegationPayload _ _ _ _ _ _ _ _ _
      ((hroot e he r hr hproof).symm.trans hpayload)
  · intro protocol domain policy root hpayload proof parent child hmem hproof
    exact rootPayload_ne_delegationPayload _ _ _ _ _ _ _ _ _
      (hpayload.symm.trans ((hedge e he proof parent child hmem).2 r hr hproof))
  · obtain ⟨t, allowExpired, v, hverify⟩ := haccepted e he
    obtain ⟨htrusted, -, -⟩ := accepted_trusted hV (CapabilityVerifier.verify_ok.mp hverify).1
    obtain ⟨⟨r, hr, hproof, hpayload, -⟩, -⟩ :=
      trusted_signed hs hmac hhash (root_question he) htrusted
    exact (rootPayload_inj (hpayload.symm.trans (hroot e' he' r hr (hproof.trans hsame)))).2.2.2
  · obtain ⟨⟨r, hr, hproof⟩, hall⟩ := hedge e he proof parent child hmem
    exact rootPayload_ne_delegationPayload _ _ _ _ _ _ _ _ _
      ((hroot e' he' r hr (hproof.trans hsame)).symm.trans (hall r hr hproof))
  · intro parent' child' hmem'
    obtain ⟨⟨r, hr, hproof⟩, hall⟩ := hedge e he proof parent child hmem
    have hpayload := (hall r hr hproof).symm.trans
      ((hedge e' he' proof parent' child' hmem').2 r hr hproof)
    obtain ⟨-, -, -, hparent, hchild⟩ := delegationPayload_inj hpayload
    exact ⟨fingerprint_inj hhash he he' (edge_claims hmem) (edge_claims hmem') hparent, hchild⟩

end

/-! ## A session that signs one root -/

namespace Signing

open Sample Rotation

/-- A root key for the tenant. -/
def rootKey : CapabilitySigningKey where
  kid := "k0"
  principalId := "platform"
  secret := List.replicate 32 7
  notBefore := fromThen
  expiresAt := untilThen
  status := .active
  usages := {.root}
  rootTenants := {acme}
  algorithm := "HS256"
  key := .refl true
  principal := .refl true
  material := secret_material
  window := then_window
  used := by simp
  rooted := by simp
  bounded := by simp [maxRootTenantsPerKey]
  supported := rfl

def rootRing : Ring :=
  ⟨[rootKey], assign (fun _ => none) "k0" (keyIdentity rootKey), assign (fun _ => none) "k0" .active, []⟩

theorem starts : replaceKeys (some [some rootKey]) Ring.empty = (.ok (), rootRing) := rfl

/-- What the root's payload says. -/
def rootValue : Value :=
  .dict
    [("protocolVersion", .str capabilityProtocolVersion), ("trustDomain", .str "prod"),
      ("policyVersion", .str "1"), ("proofType", .str "root"), ("claims", root.toDict)]

theorem allowed :
    payloadUsageAllowed (reading rootValue) rootKey (canonicalBytes rootValue) = true := by
  have hread : payloadSubject (reading rootValue) (canonicalBytes rootValue) = some ("root", acme) :=
    payloadSubject_of (if_pos rfl) (by simp) (by simp) rfl rfl rfl rfl _
  rw [payloadUsageAllowed, hread]
  simp [rootKey]

def rootProof : CapabilityProof := proofOf rootKey (canonicalBytes rootValue)

theorem signs : sign (reading rootValue) "k0" "platform" (canonicalBytes rootValue) now rootRing =
    .ok rootProof := by
  have hkey : rootRing.key? "k0" = some rootKey := rfl
  unfold sign
  rw [hkey]
  show (if _ then _ else (if _ then _ else (if _ then _ else (if _ then _ else _)))) = _
  rw [if_neg (by decide), if_neg (by decide), if_neg (by decide), allowed, if_neg (by decide)]
  rfl

def session : Session :=
  ⟨rootRing, [⟨rootKey, "platform", canonicalBytes rootValue, now, rootProof⟩]⟩

theorem reaches : Reachable (sessionSystem (reading rootValue)) session := by
  have hstart : Reachable (sessionSystem (reading rootValue)) ⟨rootRing, []⟩ :=
    .start ⟨⟨_, starts⟩, rfl⟩
  refine hstart.step (l := (.sign "k0" "platform" (canonicalBytes rootValue) now, .signed rootProof)) ?_
  refine ⟨?_, rfl⟩
  show RingCall.exec _ _ _ = _
  rw [RingCall.exec, signs]
  rfl

/-- The root alone, with its proof. -/
def signedEnvelope : CapabilityEnvelope where
  protocolVersion := capabilityProtocolVersion
  trustDomain := "prod"
  policyVersion := "1"
  claims := [root]
  rootProof := rootProof
  delegationProofs := []
  protocol := .refl true
  domain := .refl true
  policy := .refl true
  chained := ⟨by simp, by decide⟩
  proven := rfl

def ringed : CapabilityVerifier :=
  ⟨ringVerifier (reading rootValue) rootRing, "prod", "1", policy, .refl true, .refl true⟩

theorem ring_trusts {read : List Nat → Option Value} {ring : Ring} {proof : CapabilityProof}
    {signerId : String} {payload : List Nat} {t : UtcMoment}
    (h : verify read proof signerId payload t ring = true) :
    (ringVerifier read ring).verify proof signerId payload t = .accepted :=
  ofBool_accepted.mpr h

theorem ring_authorizes {read : List Nat → Option Value} {ring : Ring} {proof : CapabilityProof}
    {claims : CapabilityClaims} {t : UtcMoment} (h : authorizeRoot proof claims t ring = true) :
    (ringVerifier read ring).authorizeRoot proof claims t = .accepted :=
  ofBool_accepted.mpr h

theorem accepts : ringed.verify signedEnvelope now false = .ok ⟨signedEnvelope, "prod", "1", now⟩ := by
  have hpayload : rootPayload signedEnvelope.protocolVersion signedEnvelope.trustDomain
      signedEnvelope.policyVersion signedEnvelope.root = canonicalBytes rootValue := rfl
  have htrusted : verify (reading rootValue) rootProof "platform" (canonicalBytes rootValue) now rootRing =
      true :=
    (@verify_proofOf (reading rootValue) rootRing rootKey .active _ _ rfl allowed).mpr ⟨by decide, by decide⟩
  refine CapabilityVerifier.verify_ok.mpr ⟨⟨rfl, rfl, rfl, ?_, .inr (by decide), ?_, ?_, ?_, ?_⟩, rfl⟩
  · show validateChainStructure policy now [root] = _
    rw [validateChainStructure, if_neg (by simp), if_neg (by decide)]
    exact validateLinks_cons rfl (by decide) (by decide) (by decide) rfl rfl
  · rewrite [hpayload]
    exact ring_trusts htrusted
  · refine ring_authorizes ?_
    have hkey : rootRing.key? "k0" = some rootKey := rfl
    unfold authorizeRoot
    rewrite [show signedEnvelope.rootProof.kid = "k0" from rfl, hkey]
    have htenant : root.tenantId ∈ rootKey.rootTenants := Finset.mem_singleton.mpr rfl
    have husage : KeyUsage.root ∈ rootKey.usages := Finset.mem_singleton.mpr rfl
    exact decide_eq_true ⟨by decide, rfl, rfl, by decide, husage, htenant⟩
  · intro proof parent child hedge
    simp [CapabilityEnvelope.edges, signedEnvelope] at hedge
  · intro proof parent child hedge
    simp [CapabilityEnvelope.edges, signedEnvelope] at hedge

end Signing

open Signing Rotation in
/-- The one signed root: it was signed as that root. -/
theorem no_forgery_root : RootSigned session ringed signedEnvelope Sample.now := by
  have hquestions : [signedEnvelope].flatMap CapabilityEnvelope.questions =
      [(rootProof, canonicalBytes rootValue)] := rfl
  have hmac : IdealMac session [signedEnvelope] := by
    refine ⟨fun question hq k hk _ => ?_, fun r hr r' hr' _ => ?_⟩
    · rw [hquestions, List.mem_singleton] at hq
      rw [hq, List.mem_singleton.mp hk]
      exact ⟨_, List.mem_singleton.mpr rfl, rfl, rfl⟩
    · rw [List.mem_singleton.mp hr, List.mem_singleton.mp hr']
  have hhash : IdealHash session [signedEnvelope] := by
    have hpair : ∀ a : List Nat, NoCollision [a, a] := fun a x hx y hy _ => by
      simp only [List.mem_cons, List.not_mem_nil, or_false, or_self] at hx hy
      exact hx.trans hy.symm
    have hone : ∀ a : List Nat, NoCollision [a] := fun a x hx y hy _ =>
      (List.mem_singleton.mp hx).trans (List.mem_singleton.mp hy).symm
    exact ⟨hpair _, hone _, hpair _, hpair _⟩
  exact ((no_forgery reaches rfl hmac hhash (fun e he => by
    rw [List.mem_singleton.mp he]
    exact ⟨_, _, _, accepts⟩)).1 signedEnvelope (by simp) _ _ _ accepts).1

end QuantumEntanglement.Tenancy
