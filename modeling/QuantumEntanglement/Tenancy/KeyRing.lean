import QuantumEntanglement.Lib.TransitionSystem
import QuantumEntanglement.Tenancy.Verifier

/-
  The rotating key ring — which keys sign and verify, and how they are replaced

  The ring holds the current keys by key id, and remembers of every key id it
  ever accepted the digest of the key's identity, the furthest status and,
  once the key is gone, that it is retired. `replaceKeys` computes all four
  anew from what is submitted and installs them together, or raises.

  A submission is what the iterable yields: `none` where it cannot be read,
  and in it `none` for an item that is no signing key. `readPayload` is what
  `json.loads(payload.decode("utf-8"))` makes of a payload.
-/

namespace QuantumEntanglement.Tenancy

open PyJson PyText IsoTime Sha256 Transaction Transaction.Txn

/-! ## Keys -/

inductive KeyStatus where
  | active
  | verifyOnly
  | revoked
  deriving DecidableEq

/-- `_STATUS_ORDER`. -/
def KeyStatus.order : KeyStatus → Nat
  | .active => 0
  | .verifyOnly => 1
  | .revoked => 2

inductive KeyUsage where
  | root
  | delegation
  deriving DecidableEq

def KeyUsage.value : KeyUsage → String
  | .root => "root"
  | .delegation => "delegation"

/-- `_MAX_KEY_RECORDS`. -/
def maxKeyRecords : Nat := 4096

/-- `_MAX_ROOT_TENANTS_PER_KEY`. -/
def maxRootTenantsPerKey : Nat := 4096

/-- In-memory HS256 key record. -/
structure CapabilitySigningKey where
  kid : String
  principalId : String
  secret : List Nat
  notBefore : UtcMoment
  expiresAt : UtcMoment
  status : KeyStatus
  usages : Finset KeyUsage
  rootTenants : Finset TenantId
  algorithm : String
  key : isOpaqueId kid = true
  principal : isOpaqueId principalId = true
  material : 32 ≤ secret.length ∧ ∀ b ∈ secret, b < 256
  window : notBefore.micros < expiresAt.micros
  used : usages.Nonempty
  rooted : KeyUsage.root ∈ usages ↔ rootTenants.Nonempty
  bounded : rootTenants.card ≤ maxRootTenantsPerKey
  supported : algorithm = "HS256"

namespace CapabilitySigningKey

/-- The key's validity interval contains the instant. -/
def ValidAt (k : CapabilitySigningKey) (t : UtcMoment) : Prop :=
  k.notBefore.micros ≤ t.micros ∧ t.micros < k.expiresAt.micros

instance (k : CapabilitySigningKey) (t : UtcMoment) : Decidable (k.ValidAt t) :=
  inferInstanceAs (Decidable (_ ∧ _))

/-- What a key id stands for: everything about a key but its status. -/
def identityPayload (k : CapabilitySigningKey) : Value :=
  .dict
    [("kid", .str k.kid), ("principalId", .str k.principalId),
      ("secretSha256", .str (hexDigestBytes k.secret)), ("notBefore", .str (utcNow k.notBefore)),
      ("expiresAt", .str (utcNow k.expiresAt)),
      ("usages", .list (((k.usages.image KeyUsage.value).sort (· ≤ ·)).map .str)),
      ("rootTenants", .list (((k.rootTenants.image TenantId.value).sort (· ≤ ·)).map .str)),
      ("algorithm", .str k.algorithm)]

end CapabilitySigningKey

/-- `_key_identity`. -/
def keyIdentity (k : CapabilitySigningKey) : String := canonicalDigest k.identityPayload

/-! ## The ring -/

/-- The four maps of a `RotatingHMACKeyRing`. -/
structure Ring where
  keys : List CapabilitySigningKey
  keyIdentities : String → Option String
  statusHighWater : String → Option KeyStatus
  retiredKids : List String

def Ring.empty : Ring := ⟨[], fun _ => none, fun _ => none, []⟩

/-- `self._keys.get(kid)`. -/
def Ring.key? (ring : Ring) (kid : String) : Option CapabilitySigningKey :=
  ring.keys.find? (fun k => k.kid = kid)

/-- `d[k] = v`. -/
def assign {α : Type} (d : String → Option α) (k : String) (v : α) : String → Option α :=
  fun k' => if k' = k then some v else d k'

/-- The keys of a submission, after those already seen, none of them twice. -/
def normalizeKeys (seen : List CapabilitySigningKey) :
    List (Option CapabilitySigningKey) → Except TenancyError (List CapabilitySigningKey)
  | [] => .ok seen
  | none :: _ => .error ⟨.typeError, "keys must contain CapabilitySigningKey values"⟩
  | some k :: rest =>
    if k.kid ∈ seen.map CapabilitySigningKey.kid then
      valueError "duplicate capability signing kid"
    else normalizeKeys (seen ++ [k]) rest

/-- The loop that admits each key to the maps, or raises. -/
def installKeys (retired : List String) :
    List CapabilitySigningKey → (String → Option String) → (String → Option KeyStatus) →
      Except TenancyError ((String → Option String) × (String → Option KeyStatus))
  | [], identities, statuses => .ok (identities, statuses)
  | k :: rest, identities, statuses =>
    if k.kid ∈ retired then valueError "a removed capability signing kid cannot be reused"
    else if ∃ known, identities k.kid = some known ∧ known ≠ keyIdentity k then
      valueError "capability signing kid identity is immutable"
    else if ∃ previous, statuses k.kid = some previous ∧ k.status.order < previous.order then
      valueError "capability signing key status cannot move backwards"
    else
      installKeys retired rest (assign identities k.kid (keyIdentity k))
        (assign statuses k.kid k.status)

/-- The key ids there were and are no more. -/
def removedKids (ring : Ring) (normalized : List CapabilitySigningKey) : List String :=
  (ring.keys.map CapabilitySigningKey.kid).filter
    (fun kid => kid ∉ normalized.map CapabilitySigningKey.kid)

/-- `replace_keys`. -/
def replaceKeys (submitted : Option (List (Option CapabilitySigningKey))) :
    Txn Ring TenancyError Unit := do
  let values ← lift (match submitted with
    | none => .error ⟨.typeError, "capability signing keys must be iterable"⟩
    | some values =>
      if maxKeyRecords < values.length then
        valueError "capability signing keys cannot contain more than 4096 items"
      else .ok values)
  let normalized ← lift (normalizeKeys [] values)
  let ring ← query (fun ring => ring)
  let retired := ring.retiredKids ++ removedKids ring normalized
  let maps ← lift (installKeys retired normalized ring.keyIdentities ring.statusHighWater)
  update (fun _ => ⟨normalized, maps.1, maps.2, retired⟩)

/-! ## Signing and verifying -/

section
variable (readPayload : List Nat → Option Value)

/-- The proof type and the tenant a payload is about. -/
def payloadSubject (payload : List Nat) : Option (String × TenantId) :=
  match readPayload payload with
  | some (.dict pairs) =>
    if (["protocolVersion", "trustDomain", "policyVersion", "proofType", "claims"].all
          (fun k => decide (k ∈ pairs.map Prod.fst))) ∧
        pairs.all (fun p => decide (p.1 ∈ ["protocolVersion", "trustDomain", "policyVersion",
          "proofType", "claims", "parentFingerprint"])) then
      match lookup "proofType" pairs, lookup "claims" pairs with
      | some (.str proofType), some (.dict claims) =>
        match lookup "resource" claims with
        | some (.dict resource) =>
          match lookup "tenantId" resource with
          | some (.str raw) =>
            if h : isOpaqueId raw = true then some (proofType, ⟨raw, h⟩) else none
          | _ => none
        | _ => none
      | _, _ => none
    else none
  | _ => none

/-- `_payload_usage_allowed`. -/
def payloadUsageAllowed (k : CapabilitySigningKey) (payload : List Nat) : Bool :=
  match payloadSubject readPayload payload with
  | none => false
  | some (proofType, tenantId) =>
    if proofType = "root" then decide (KeyUsage.root ∈ k.usages ∧ tenantId ∈ k.rootTenants)
    else if proofType = "delegation" then decide (KeyUsage.delegation ∈ k.usages)
    else false

/-- The MAC of a payload under a key. -/
def macOf (k : CapabilitySigningKey) (payload : List Nat) : List Nat :=
  hmac k.secret (proofMessage k.kid k.algorithm payload)

theorem macOf_signed (k : CapabilitySigningKey) (payload : List Nat) :
    decodeSignature (encodeSignature (macOf k payload)) = some (macOf k payload) :=
  decodeSignature_encode hmac_byte (by rw [macOf, hmac_length]; decide)

/-- The proof a key makes of a payload. -/
def proofOf (k : CapabilitySigningKey) (payload : List Nat) : CapabilityProof where
  kid := k.kid
  algorithm := k.algorithm
  signature := encodeSignature (macOf k payload)
  key := k.key
  named := by rw [k.supported]; decide
  signed := by rw [macOf_signed]; rfl

def sign (kid signerId : String) (payload : List Nat) (now : UtcMoment) (ring : Ring) :
    Except TenancyError CapabilityProof :=
  match ring.key? kid with
  | none => refuse "signing kid is not trusted"
  | some k =>
    if k.status ≠ .active then refuse "signing key is not active"
    else if k.principalId ≠ signerId then refuse "signing key principal does not match issuer"
    else if ¬k.ValidAt now then refuse "signing key is outside its validity interval"
    else if payloadUsageAllowed readPayload k payload = false then
      refuse "signing key is not authorized for this proof usage"
    else .ok (proofOf k payload)

def verify (proof : CapabilityProof) (signerId : String) (payload : List Nat) (now : UtcMoment)
    (ring : Ring) : Bool :=
  match decodeSignature proof.signature, ring.key? proof.kid with
  | some supplied, some k =>
    if k.status = .revoked then false
    else if k.algorithm ≠ proof.algorithm ∨ k.principalId ≠ signerId then false
    else if ¬k.ValidAt now then false
    else if payloadUsageAllowed readPayload k payload = false then false
    else decide (hmac k.secret (proofMessage proof.kid proof.algorithm payload) = supplied)
  | _, _ => false

end

def authorizeRoot (proof : CapabilityProof) (claims : CapabilityClaims) (now : UtcMoment)
    (ring : Ring) : Bool :=
  match ring.key? proof.kid with
  | none => false
  | some k =>
    decide (k.status ≠ .revoked ∧ k.principalId = claims.issuerId ∧ k.algorithm = proof.algorithm ∧
      k.ValidAt now ∧ KeyUsage.root ∈ k.usages ∧ claims.tenantId ∈ k.rootTenants)

def authorizeDelegation (proof : CapabilityProof) (parent child : CapabilityClaims) (now : UtcMoment)
    (ring : Ring) : Bool :=
  match ring.key? proof.kid with
  | none => false
  | some k =>
    decide (k.status ≠ .revoked ∧ k.principalId = child.issuerId ∧ k.algorithm = proof.algorithm ∧
      k.ValidAt now ∧ KeyUsage.delegation ∈ k.usages ∧ parent.tenantId = child.tenantId)

/-- The subject of a payload, from what its keys hold. -/
theorem payloadSubject_of {readPayload : List Nat → Option Value} {payload : List Nat}
    {pairs claims resource : List (String × Value)} {proofType raw : String}
    (hread : readPayload payload = some (.dict pairs))
    (hrequired : ∀ k ∈ ["protocolVersion", "trustDomain", "policyVersion", "proofType", "claims"],
      k ∈ pairs.map Prod.fst)
    (hknown : ∀ p ∈ pairs, p.1 ∈ ["protocolVersion", "trustDomain", "policyVersion", "proofType",
      "claims", "parentFingerprint"])
    (htype : lookup "proofType" pairs = some (.str proofType))
    (hclaims : lookup "claims" pairs = some (.dict claims))
    (hresource : lookup "resource" claims = some (.dict resource))
    (htenant : lookup "tenantId" resource = some (.str raw)) (h : isOpaqueId raw = true) :
    payloadSubject readPayload payload = some (proofType, ⟨raw, h⟩) := by
  have hall := List.all_eq_true.mpr (fun k hk => decide_eq_true (hrequired k hk))
  have hall' := List.all_eq_true.mpr (fun p hp => decide_eq_true (hknown p hp))
  unfold payloadSubject
  rw [hread]
  show (if _ then _ else _) = _
  rw [if_pos ⟨hall, hall'⟩, htype, hclaims]
  show (match lookup "resource" claims with
    | some (.dict resource) => _
    | _ => none) = _
  rw [hresource]
  show (match lookup "tenantId" resource with
    | some (.str raw) => _
    | _ => none) = _
  rw [htenant]
  exact dif_pos h

/-! ## What a replacement does -/

theorem normalizeKeys_ok : ∀ {values : List (Option CapabilitySigningKey)}
    {seen normalized : List CapabilitySigningKey}, normalizeKeys seen values = .ok normalized →
    (seen.map CapabilitySigningKey.kid).Nodup →
    seen.map some ++ values = normalized.map some ∧
      (normalized.map CapabilitySigningKey.kid).Nodup
  | [], seen, normalized, h, hnodup => by
    obtain rfl : seen = normalized := Except.ok.inj h
    exact ⟨by simp, hnodup⟩
  | none :: _, _, _, h, _ => by simp [normalizeKeys] at h
  | some k :: rest, seen, normalized, h, hnodup => by
    simp only [normalizeKeys] at h
    split at h
    · simp [valueError] at h
    next hnew =>
      have hmore : ((seen ++ [k]).map CapabilitySigningKey.kid).Nodup := by
        rw [List.map_append, List.nodup_append]
        refine ⟨hnodup, by simp, fun a ha b hb => ?_⟩
        rw [List.mem_singleton.mp hb]
        rintro rfl
        exact hnew ha
      obtain ⟨hvalues, hdistinct⟩ := normalizeKeys_ok h hmore
      exact ⟨by simpa using hvalues, hdistinct⟩

/-- A key the maps let in: not retired, of the identity its id is known by and
of a status no earlier than the one it had. -/
structure Admitted (retired : List String) (identities : String → Option String)
    (statuses : String → Option KeyStatus) (k : CapabilitySigningKey) : Prop where
  live : k.kid ∉ retired
  same : ∀ known, identities k.kid = some known → known = keyIdentity k
  onward : ∀ previous, statuses k.kid = some previous → previous.order ≤ k.status.order

theorem assign_self {α : Type} (d : String → Option α) (k : String) (v : α) : assign d k v k = some v :=
  if_pos rfl

theorem assign_ne {α : Type} {d : String → Option α} {k k' : String} {v : α} (h : k' ≠ k) :
    assign d k v k' = d k' :=
  if_neg h

/-- The maps after a replacement: at the key ids of the submission what its
keys say, elsewhere what they said. -/
theorem installKeys_ok {retired : List String} : ∀ {keys : List CapabilitySigningKey}
    {identities identities' : String → Option String} {statuses statuses' : String → Option KeyStatus},
    (keys.map CapabilitySigningKey.kid).Nodup →
    installKeys retired keys identities statuses = .ok (identities', statuses') →
    (∀ k ∈ keys, Admitted retired identities statuses k ∧ identities' k.kid = some (keyIdentity k) ∧
      statuses' k.kid = some k.status) ∧
    ∀ kid, kid ∉ keys.map CapabilitySigningKey.kid →
      identities' kid = identities kid ∧ statuses' kid = statuses kid
  | [], identities, identities', statuses, statuses', _, h => by
    obtain ⟨rfl, rfl⟩ := Prod.mk.inj (Except.ok.inj h)
    simp
  | k :: rest, identities, identities', statuses, statuses', hnodup, h => by
    obtain ⟨hnew, hrestnodup⟩ := List.nodup_cons.mp hnodup
    simp only [installKeys] at h
    split at h
    · simp [valueError] at h
    next hlive =>
      split at h
      · simp [valueError] at h
      next hsame =>
        split at h
        · simp [valueError] at h
        next honward =>
          obtain ⟨hrest, helse⟩ := installKeys_ok hrestnodup h
          push Not at hsame honward
          refine ⟨fun k' hk' => ?_, fun kid hkid => ?_⟩
          · rcases List.mem_cons.mp hk' with rfl | hk'
            · obtain ⟨hidentity, hstatus⟩ := helse _ hnew
              exact ⟨⟨hlive, hsame, honward⟩, hidentity.trans (assign_self _ _ _),
                hstatus.trans (assign_self _ _ _)⟩
            · obtain ⟨hadmitted, hmaps⟩ := hrest k' hk'
              have hne : k'.kid ≠ k.kid := fun heq =>
                hnew (heq ▸ List.mem_map_of_mem hk')
              refine ⟨⟨hadmitted.live, fun known hknown => ?_, fun previous hprevious => ?_⟩, hmaps⟩
              · exact hadmitted.same known ((assign_ne hne).trans hknown)
              · exact hadmitted.onward previous ((assign_ne hne).trans hprevious)
          · simp only [List.map_cons, List.mem_cons, not_or] at hkid
            obtain ⟨hidentity, hstatus⟩ := helse kid hkid.2
            exact ⟨hidentity.trans (assign_ne hkid.1), hstatus.trans (assign_ne hkid.1)⟩

/-- **An accepted replacement.** -/
structure Replaced (submitted : Option (List (Option CapabilitySigningKey))) (ring ring' : Ring) :
    Prop where
  submitted : submitted = some (ring'.keys.map some)
  distinct : (ring'.keys.map CapabilitySigningKey.kid).Nodup
  retired : ring'.retiredKids = ring.retiredKids ++ removedKids ring ring'.keys
  installed : ∀ k ∈ ring'.keys,
    Admitted ring'.retiredKids ring.keyIdentities ring.statusHighWater k ∧
      ring'.keyIdentities k.kid = some (keyIdentity k) ∧ ring'.statusHighWater k.kid = some k.status
  kept : ∀ kid, kid ∉ ring'.keys.map CapabilitySigningKey.kid →
    ring'.keyIdentities kid = ring.keyIdentities kid ∧
      ring'.statusHighWater kid = ring.statusHighWater kid

theorem replaceKeys_ok {submitted : Option (List (Option CapabilitySigningKey))} {ring ring' : Ring}
    {u : Unit} (h : replaceKeys submitted ring = (.ok u, ring')) : Replaced submitted ring ring' := by
  simp only [replaceKeys, bind_ok, lift_ok, query_ok, update_ok] at h
  obtain ⟨values, _, ⟨hvalues, rfl⟩, normalized, _, ⟨hnormalized, rfl⟩, _, _, ⟨rfl, rfl⟩,
    ⟨identities, statuses⟩, _, ⟨hinstalled, rfl⟩, rfl⟩ := h
  obtain ⟨hvalues', hnodup⟩ := normalizeKeys_ok hnormalized .nil
  obtain rfl : values = normalized.map some := by simpa using hvalues'
  obtain ⟨hkeys, helse⟩ := installKeys_ok hnodup hinstalled
  have hsubmitted : submitted = some (normalized.map some) := by
    cases submitted with
    | none => simp at hvalues
    | some vs =>
      simp only at hvalues
      split at hvalues
      · simp [valueError] at hvalues
      · rw [Except.ok.inj hvalues]
  exact ⟨hsubmitted, hnodup, rfl, hkeys, helse⟩

/-- What a replacement installs that no check refuses. -/
theorem replaceKeys_run {values : List (Option CapabilitySigningKey)}
    {normalized : List CapabilitySigningKey} {ring : Ring}
    {maps : (String → Option String) × (String → Option KeyStatus)}
    (hfew : values.length ≤ maxKeyRecords) (hnormalized : normalizeKeys [] values = .ok normalized)
    (hinstalled : installKeys (ring.retiredKids ++ removedKids ring normalized) normalized
      ring.keyIdentities ring.statusHighWater = .ok maps) :
    replaceKeys (some values) ring =
      (.ok (), ⟨normalized, maps.1, maps.2, ring.retiredKids ++ removedKids ring normalized⟩) := by
  simp only [replaceKeys, bind_ok, lift_ok, query_ok, update_ok]
  exact ⟨values, ring, ⟨if_neg (Nat.not_lt.mpr hfew), rfl⟩, normalized, ring, ⟨hnormalized, rfl⟩, ring,
    ring, ⟨rfl, rfl⟩, maps, ring, ⟨hinstalled, rfl⟩, rfl⟩

/-- **A rejected replacement changes nothing.** -/
theorem replaceKeys_error {submitted : Option (List (Option CapabilitySigningKey))} {ring ring' : Ring}
    {e : TenancyError} (h : replaceKeys submitted ring = (.error e, ring')) : ring' = ring := by
  have hrestores : Restores (replaceKeys submitted) := by
    unfold replaceKeys
    refine .bind (fun _ => rfl) (fun values => .bind (fun _ => rfl) (fun normalized =>
      .bind (fun _ => rfl) (fun before => .bind (fun _ => rfl) (fun maps => ?_))))
    intro s e s' h
    simp [update] at h
  exact hrestores ring e ring' h

end QuantumEntanglement.Tenancy
