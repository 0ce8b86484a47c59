import QuantumEntanglement.Tenancy.KeyRing

/-
  Key lifecycle — what a ring keeps of a key over any sequence of rotations

  A ring is used by any number of calls, some of them rejected. `RingInv` says
  that its maps are those of its keys; `Later` is what a later ring keeps of
  an earlier one. Both are kept by one replacement, so they hold of every run.

  What is proved:
    1. `step_ring` — what one call keeps.
    2. `same_key_id` — two keys a ring has had under one id differ in their
       status only, and the later status is no earlier.
    3. `kid_kept` — a key id a ring had and has again was in every set it
       accepted in between.
    4. `key_lifecycle` — the four together, and when a signed proof verifies.

  A key id is known by the digest of the key's identity, so (2) is about keys
  no two of which collide.
-/

namespace QuantumEntanglement.Tenancy

open PyJson PyText IsoTime Sha256 Transaction Transaction.Txn TransitionSystem

/-! ## Calls -/

inductive RingCall where
  | replaceKeys (submitted : Option (List (Option CapabilitySigningKey)))
  | sign (kid signerId : String) (payload : List Nat) (now : UtcMoment)
  | verify (proof : CapabilityProof) (signerId : String) (payload : List Nat) (now : UtcMoment)
  | authorizeRoot (proof : CapabilityProof) (claims : CapabilityClaims) (now : UtcMoment)
  | authorizeDelegation (proof : CapabilityProof) (parent child : CapabilityClaims) (now : UtcMoment)

inductive RingReply where
  | replaced
  | signed (proof : CapabilityProof)
  | answered (answer : Bool)
  | raised (e : TenancyError)

section
variable (readPayload : List Nat → Option Value)

def RingCall.exec (call : RingCall) (ring : Ring) : RingReply × Ring :=
  match call with
  | .replaceKeys submitted =>
    match Tenancy.replaceKeys submitted ring with
    | (.ok (), ring') => (.replaced, ring')
    | (.error e, ring') => (.raised e, ring')
  | .sign kid signerId payload now =>
    match Tenancy.sign readPayload kid signerId payload now ring with
    | .ok proof => (.signed proof, ring)
    | .error e => (.raised e, ring)
  | .verify proof signerId payload now =>
    (.answered (Tenancy.verify readPayload proof signerId payload now ring), ring)
  | .authorizeRoot proof claims now => (.answered (Tenancy.authorizeRoot proof claims now ring), ring)
  | .authorizeDelegation proof parent child now =>
    (.answered (Tenancy.authorizeDelegation proof parent child now ring), ring)

/-- A ring starts with the keys it is built with. -/
def ringSystem : System Ring (RingCall × RingReply) where
  start ring := ∃ submitted, replaceKeys submitted Ring.empty = (.ok (), ring)
  step ring label ring' := label.1.exec readPayload ring = (label.2, ring')

end

/-- The set a call installed, if it is an accepted replacement. -/
def acceptedSet : RingCall × RingReply → Option (List CapabilitySigningKey)
  | (.replaceKeys (some values), .replaced) => some (values.filterMap id)
  | _ => none

/-- The sets a run's replacements installed. -/
def acceptedSets (labels : List (RingCall × RingReply)) : List (List CapabilitySigningKey) :=
  labels.filterMap acceptedSet

/-- The key ids of a set. -/
def kids (keys : List CapabilitySigningKey) : List String := keys.map CapabilitySigningKey.kid

/-! ## What a ring's maps say -/

structure RingInv (ring : Ring) : Prop where
  distinct : (kids ring.keys).Nodup
  installed : ∀ k ∈ ring.keys, k.kid ∉ ring.retiredKids ∧
    ring.keyIdentities k.kid = some (keyIdentity k) ∧ ring.statusHighWater k.kid = some k.status
  known : ∀ kid identity, ring.keyIdentities kid = some identity →
    kid ∈ kids ring.keys ∨ kid ∈ ring.retiredKids

/-- What a later ring keeps of an earlier one. -/
structure Later (ring ring' : Ring) : Prop where
  identities : ∀ kid identity, ring.keyIdentities kid = some identity →
    ring'.keyIdentities kid = some identity
  statuses : ∀ kid status, ring.statusHighWater kid = some status →
    ∃ status', ring'.statusHighWater kid = some status' ∧ status.order ≤ status'.order
  retired : ∀ kid ∈ ring.retiredKids, kid ∈ ring'.retiredKids
  gone : ∀ kid ∈ kids ring.keys, kid ∉ kids ring'.keys → kid ∈ ring'.retiredKids

theorem Later.refl (ring : Ring) : Later ring ring where
  identities := fun _ _ h => h
  statuses := fun _ status h => ⟨status, h, le_refl _⟩
  retired := fun _ h => h
  gone := fun _ h h' => absurd h h'

theorem Later.trans {a b c : Ring} (h : Later a b) (h' : Later b c) : Later a c where
  identities := fun kid identity hi => h'.identities kid identity (h.identities kid identity hi)
  statuses := fun kid status hs => by
    obtain ⟨status', hs', hle⟩ := h.statuses kid status hs
    obtain ⟨status'', hs'', hle'⟩ := h'.statuses kid status' hs'
    exact ⟨status'', hs'', hle.trans hle'⟩
  retired := fun kid hr => h'.retired kid (h.retired kid hr)
  gone := fun kid ha hc => by
    by_cases hb : kid ∈ kids b.keys
    · exact h'.gone kid hb hc
    · exact h'.retired kid (h.gone kid ha hb)

theorem mem_removedKids {ring : Ring} {keys : List CapabilitySigningKey} {kid : String} :
    kid ∈ removedKids ring keys ↔ kid ∈ kids ring.keys ∧ kid ∉ kids keys := by
  simp [removedKids, kids]

section
variable {submitted : Option (List (Option CapabilitySigningKey))} {ring ring' : Ring}

theorem Replaced.inv (h : Replaced submitted ring ring') (hi : RingInv ring) : RingInv ring' where
  distinct := h.distinct
  installed := fun k hk => ⟨(h.installed k hk).1.live, (h.installed k hk).2⟩
  known := fun kid identity hidentity => by
    by_cases hin : kid ∈ kids ring'.keys
    · exact .inl hin
    · refine .inr ?_
      rw [(h.kept kid hin).1] at hidentity
      rw [h.retired, List.mem_append, mem_removedKids]
      rcases hi.known kid identity hidentity with hkey | hretired
      · exact .inr ⟨hkey, hin⟩
      · exact .inl hretired

theorem Replaced.later (h : Replaced submitted ring ring') : Later ring ring' where
  identities := fun kid identity hidentity => by
    by_cases hin : kid ∈ kids ring'.keys
    · obtain ⟨k, hk, rfl⟩ := List.mem_map.mp hin
      obtain ⟨hadmitted, hnew, -⟩ := h.installed k hk
      rw [hnew, hadmitted.same identity hidentity]
    · rw [(h.kept kid hin).1, hidentity]
  statuses := fun kid status hstatus => by
    by_cases hin : kid ∈ kids ring'.keys
    · obtain ⟨k, hk, rfl⟩ := List.mem_map.mp hin
      obtain ⟨hadmitted, -, hnew⟩ := h.installed k hk
      exact ⟨k.status, hnew, hadmitted.onward status hstatus⟩
    · exact ⟨status, (h.kept kid hin).2.trans hstatus, le_refl _⟩
  retired := fun kid hr => by
    rw [h.retired]
    exact List.mem_append_left _ hr
  gone := fun kid hin hout => by
    rw [h.retired]
    exact List.mem_append_right _ (mem_removedKids.mpr ⟨hin, hout⟩)

end

/-- The empty ring's maps say nothing. -/
theorem empty_inv : RingInv Ring.empty where
  distinct := .nil
  installed := by simp [Ring.empty]
  known := by simp [Ring.empty]

/-! ## Steps and runs -/

section
variable {readPayload : List Nat → Option Value} {ring ring' : Ring}

/-- A call replaced the keys, or left the ring as it was and installed no set. -/
theorem exec_cases {label : RingCall × RingReply}
    (h : (ringSystem readPayload).step ring label ring') :
    (ring' = ring ∧ acceptedSet label = none) ∨
      ∃ submitted, Replaced submitted ring ring' ∧ acceptedSet label = some ring'.keys := by
  obtain ⟨call, reply⟩ := label
  have h : call.exec readPayload ring = (reply, ring') := h
  cases call with
  | replaceKeys submitted =>
    simp only [RingCall.exec] at h
    split at h
    next r hrun =>
      obtain ⟨rfl, rfl⟩ := Prod.mk.inj h
      have hreplaced := replaceKeys_ok hrun
      refine .inr ⟨submitted, hreplaced, ?_⟩
      rw [hreplaced.submitted]
      simp [acceptedSet, List.filterMap_map]
    next e r hrun =>
      obtain ⟨rfl, rfl⟩ := Prod.mk.inj h
      refine .inl ⟨replaceKeys_error hrun, ?_⟩
      cases submitted <;> rfl
  | sign kid signerId payload now =>
    simp only [RingCall.exec] at h
    split at h <;> exact .inl ⟨(Prod.mk.inj h).2.symm, rfl⟩
  | verify proof signerId payload now => exact .inl ⟨(Prod.mk.inj h).2.symm, rfl⟩
  | authorizeRoot proof claims now => exact .inl ⟨(Prod.mk.inj h).2.symm, rfl⟩
  | authorizeDelegation proof parent child now => exact .inl ⟨(Prod.mk.inj h).2.symm, rfl⟩

/-- What one call keeps. -/
theorem step_ring {label : RingCall × RingReply} (hi : RingInv ring)
    (h : (ringSystem readPayload).step ring label ring') : RingInv ring' ∧ Later ring ring' := by
  rcases exec_cases h with ⟨rfl, -⟩ | ⟨submitted, hreplaced, -⟩
  · exact ⟨hi, .refl _⟩
  · exact ⟨hreplaced.inv hi, hreplaced.later⟩

theorem run_ring {labels : List (RingCall × RingReply)} (hi : RingInv ring)
    (h : Run (ringSystem readPayload) ring labels ring') : RingInv ring' ∧ Later ring ring' := by
  induction h with
  | done ring => exact ⟨hi, .refl _⟩
  | next hs _ ih =>
    obtain ⟨hi₁, hlater⟩ := step_ring hi hs
    obtain ⟨hi₂, hlater'⟩ := ih hi₁
    exact ⟨hi₂, hlater.trans hlater'⟩

theorem reachable_ring (h : Reachable (ringSystem readPayload) ring) : RingInv ring := by
  refine invariant_of_reachable (fun ring hstart => ?_) (fun _ _ _ hi hs => (step_ring hi hs).1) h
  obtain ⟨submitted, hstart⟩ := hstart
  exact (replaceKeys_ok hstart).inv empty_inv

/-- A key id is in a ring exactly when it was and every set accepted since has
it. -/
theorem kid_kept {kid : String} {labels : List (RingCall × RingReply)} (hi : RingInv ring)
    (h : Run (ringSystem readPayload) ring labels ring') (hin : kid ∈ kids ring.keys) :
    kid ∈ kids ring'.keys ↔ ∀ set ∈ acceptedSets labels, kid ∈ kids set := by
  induction h with
  | done ring => simp [acceptedSets, hin]
  | @next ring ring₁ ring' label labels hs hrun ih =>
    obtain ⟨hi₁, hlater₁⟩ := step_ring hi hs
    obtain ⟨hi', hlater'⟩ := run_ring hi₁ hrun
    have hcons : acceptedSets (label :: labels) =
        (acceptedSet label).toList ++ acceptedSets labels := by
      rw [acceptedSets, List.filterMap_cons]
      cases acceptedSet label <;> rfl
    rw [hcons]
    by_cases hin₁ : kid ∈ kids ring₁.keys
    · rw [ih hi₁ hin₁]
      rcases exec_cases hs with ⟨-, hset⟩ | ⟨submitted, -, hset⟩
      · simp [hset]
      · simp [hset, hin₁]
    · -- the id is retired from here on
      have hretired := hlater'.retired kid (hlater₁.gone kid hin hin₁)
      have hout : kid ∉ kids ring'.keys := fun hk => by
        obtain ⟨k, hmem, rfl⟩ := List.mem_map.mp hk
        exact (hi'.installed k hmem).1 hretired
      refine ⟨fun hk => absurd hk hout, fun hall => ?_⟩
      rcases exec_cases hs with ⟨rfl, -⟩ | ⟨submitted, -, hset⟩
      · exact absurd hin hin₁
      · exact absurd (hall ring₁.keys (by simp [hset])) hin₁

end

/-! ## One key id, one key -/

/-- No two identities and no two secrets of these keys have one digest. -/
def DistinctKeys (keys : List CapabilitySigningKey) : Prop :=
  NoCollision (keys.map (fun k => canonicalBytes k.identityPayload)) ∧
    NoCollision (keys.map CapabilitySigningKey.secret)

theorem keyIdentity_eq (k : CapabilitySigningKey) :
    keyIdentity k = hexDigestBytes (canonicalBytes k.identityPayload) := by
  unfold keyIdentity canonicalDigest canonicalBytes hexDigest hexDigestBytes
  rfl

theorem sorted_inj {α : Type} {f : α → String} (hf : Function.Injective f) {s s' : Finset α}
    (h : ((s.image f).sort (· ≤ ·)) = ((s'.image f).sort (· ≤ ·))) : s = s' := by
  have hset := congrArg List.toFinset h
  rw [Finset.sort_toFinset, Finset.sort_toFinset] at hset
  exact Finset.image_injective hf hset

theorem plainItems_str (texts : List String) : PlainItems (texts.map .str) := by
  rw [plainItems_iff]
  intro v hv
  obtain ⟨text, -, rfl⟩ := List.mem_map.mp hv
  trivial

theorem normalize_strs {texts texts' : List String}
    (h : PyJson.normalize (.list (texts.map .str)) = PyJson.normalize (.list (texts'.map .str))) :
    texts = texts' := by
  simp only [PyJson.normalize, normalizeItems_eq, List.map_map, Value.list.injEq] at h
  exact List.map_injective_iff.mpr (fun a b hab => by simpa [PyJson.normalize] using hab) h

/-- Two keys of one identity differ in their status only. -/
theorem keyIdentity_inj {k k' : CapabilitySigningKey} {keys : List CapabilitySigningKey}
    (hfree : DistinctKeys keys) (hk : k ∈ keys) (hk' : k' ∈ keys)
    (h : keyIdentity k = keyIdentity k') : k' = { k with status := k'.status } := by
  rw [keyIdentity_eq, keyIdentity_eq] at h
  have hbytes := hfree.1 _ (List.mem_map_of_mem hk) _ (List.mem_map_of_mem hk') h
  have hplain : ∀ k : CapabilitySigningKey, Plain k.identityPayload := fun k => by
    simp [CapabilitySigningKey.identityPayload, Plain, PlainPairs, plainItems_str]
  have hvalues := record_inj
    ["kid", "principalId", "secretSha256", "notBefore", "expiresAt", "usages", "rootTenants",
      "algorithm"]
    [_, _, _, _, _, _, _, _] [_, _, _, _, _, _, _, _] (by decide) rfl rfl
    (canonicalBytes_inj (hplain k) (hplain k') hbytes)
  simp only [List.map_cons, List.map_nil, List.cons.injEq, and_true] at hvalues
  obtain ⟨hkid, hprincipal, hsecret, hstart, hend, husages, htenants, halgorithm⟩ := hvalues
  have hs := hfree.2 _ (List.mem_map_of_mem hk) _ (List.mem_map_of_mem hk') (Value.str.inj hsecret)
  have hn := utcNow_inj (Value.str.inj hstart)
  have he := utcNow_inj (Value.str.inj hend)
  have hu := sorted_inj (fun a b => by cases a <;> cases b <;> simp [KeyUsage.value])
    (normalize_strs husages)
  have ht := sorted_inj (fun a b hab => by cases a; cases b; simpa using hab)
    (normalize_strs htenants)
  have hkid' := Value.str.inj hkid
  have hprincipal' := Value.str.inj hprincipal
  have halgorithm' := Value.str.inj halgorithm
  obtain ⟨_, _, _, _, _, _, _, _, _, _, _, _, _, _, _, _, _⟩ := k
  obtain ⟨_, _, _, _, _, _, _, _, _, _, _, _, _, _, _, _, _⟩ := k'
  simp_all

theorem key?_some {ring : Ring} {kid : String} {k : CapabilitySigningKey}
    (h : ring.key? kid = some k) : k ∈ ring.keys ∧ k.kid = kid :=
  ⟨List.mem_of_find?_eq_some h, by simpa using List.find?_some h⟩

theorem key?_of_mem {ring : Ring} (hi : RingInv ring) {k : CapabilitySigningKey} (hk : k ∈ ring.keys) :
    ring.key? k.kid = some k := by
  cases h : ring.key? k.kid with
  | none =>
    have := List.find?_eq_none.mp h k hk
    simp at this
  | some k' =>
    obtain ⟨hk', hkid⟩ := key?_some h
    rw [List.inj_on_of_nodup_map hi.distinct hk' hk hkid]

section
variable {readPayload : List Nat → Option Value} {ring ring' : Ring}

/-- **Two keys a ring has had under one id** differ in their status only, and
the later status is no earlier. -/
theorem same_key_id {labels : List (RingCall × RingReply)} (hi : RingInv ring)
    (h : Run (ringSystem readPayload) ring labels ring') {k k' : CapabilitySigningKey}
    (hk : k ∈ ring.keys) (hk' : k' ∈ ring'.keys) (hkid : k'.kid = k.kid)
    (hfree : DistinctKeys (ring.keys ++ ring'.keys)) :
    k' = { k with status := k'.status } ∧ k.status.order ≤ k'.status.order := by
  obtain ⟨hi', hlater⟩ := run_ring hi h
  obtain ⟨-, hidentity, hstatus⟩ := hi.installed k hk
  obtain ⟨-, hidentity', hstatus'⟩ := hi'.installed k' hk'
  rw [hkid] at hidentity' hstatus'
  have hsame : keyIdentity k = keyIdentity k' :=
    Option.some.inj ((hlater.identities _ _ hidentity).symm.trans hidentity')
  obtain ⟨status, hs, hle⟩ := hlater.statuses _ _ hstatus
  rw [hstatus'] at hs
  exact ⟨keyIdentity_inj hfree (List.mem_append_left _ hk) (List.mem_append_right _ hk') hsame,
    Option.some.inj hs ▸ hle⟩

theorem sign_ok {kid signerId : String} {payload : List Nat} {now : UtcMoment}
    {proof : CapabilityProof} (h : sign readPayload kid signerId payload now ring = .ok proof) :
    ∃ k, ring.key? kid = some k ∧ k.status = .active ∧ k.principalId = signerId ∧ k.ValidAt now ∧
      payloadUsageAllowed readPayload k payload = true ∧ proof = proofOf k payload := by
  unfold sign at h
  split at h
  · simp [refuse] at h
  next k hkey =>
    split at h
    · simp [refuse] at h
    next hactive =>
      split at h
      · simp [refuse] at h
      next hprincipal =>
        split at h
        · simp [refuse] at h
        next hvalid =>
          split at h
          · simp [refuse] at h
          next husage =>
            exact ⟨k, hkey, not_not.mp hactive, not_not.mp hprincipal, not_not.mp hvalid,
              by simpa using husage, (Except.ok.inj h).symm⟩

/-- A key's own proof verifies while the key is not revoked, in its window. -/
theorem verify_proofOf {k : CapabilitySigningKey} {status : KeyStatus} {payload : List Nat}
    {t : UtcMoment} (hkey : ring.key? k.kid = some { k with status := status })
    (husage : payloadUsageAllowed readPayload k payload = true) :
    verify readPayload (proofOf k payload) k.principalId payload t ring = true ↔
      status ≠ .revoked ∧ k.ValidAt t := by
  have husage' : payloadUsageAllowed readPayload { k with status := status } payload = true := husage
  unfold verify
  rw [show (proofOf k payload).signature = encodeSignature (macOf k payload) from rfl, macOf_signed,
    show (proofOf k payload).kid = k.kid from rfl, hkey]
  simp only [proofOf, macOf, ne_eq, not_true_eq_false, or_self, if_false, husage', Bool.true_eq_false,
    decide_true]
  by_cases hrevoked : status = .revoked
  · simp [hrevoked]
  · by_cases hvalid : k.ValidAt t
    · have hvalid' : ({ k with status := status } : CapabilitySigningKey).ValidAt t := hvalid
      simp [hrevoked, hvalid, hvalid']
    · have hvalid' : ¬({ k with status := status } : CapabilitySigningKey).ValidAt t := hvalid
      simp [hrevoked, hvalid, hvalid']

/-- A key id that is retired is in no submission the ring accepts. -/
theorem retired_rejected {kid : String} {values : List (Option CapabilitySigningKey)}
    (hretired : kid ∈ ring.retiredKids) (hin : ∃ k, some k ∈ values ∧ k.kid = kid) :
    ∃ e, replaceKeys (some values) ring = (.error e, ring) := by
  rcases hrun : replaceKeys (some values) ring with ⟨r, ring₁⟩
  cases r with
  | error e => exact ⟨e, by rw [replaceKeys_error hrun]⟩
  | ok u =>
    have hreplaced := replaceKeys_ok hrun
    obtain ⟨k, hk, rfl⟩ := hin
    rw [Option.some.inj hreplaced.submitted] at hk
    obtain ⟨k', hk', heq⟩ := List.mem_map.mp hk
    obtain rfl := Option.some.inj heq
    exact absurd (hreplaced.later.retired _ hretired) (hreplaced.installed k' hk').1.live

/-- **Key ring lifecycle**, from any state a ring reaches and over any further
calls: a rejected call changes nothing; a key id keeps its key, and its status
moves one way; an id once removed is never accepted again; and a signed proof
verifies exactly while its key was in every set accepted since, is not revoked
and is in its window. -/
theorem key_lifecycle {labels : List (RingCall × RingReply)}
    (hring : Reachable (ringSystem readPayload) ring)
    (hrun : Run (ringSystem readPayload) ring labels ring') :
    (∀ (call : RingCall) (e : TenancyError) (ring₁ : Ring),
      call.exec readPayload ring = (.raised e, ring₁) → ring₁ = ring) ∧
    (DistinctKeys (ring.keys ++ ring'.keys) → ∀ k ∈ ring.keys, ∀ k' ∈ ring'.keys,
      k'.kid = k.kid → k' = { k with status := k'.status } ∧ k.status.order ≤ k'.status.order) ∧
    (∀ kid ∈ kids ring.keys, kid ∉ kids ring'.keys →
      ∀ (labels' : List (RingCall × RingReply)) (ring'' : Ring),
        Run (ringSystem readPayload) ring' labels' ring'' →
        kid ∉ kids ring''.keys ∧ ∀ values, (∃ k, some k ∈ values ∧ k.kid = kid) →
          ∃ e, replaceKeys (some values) ring'' = (.error e, ring'')) ∧
    (DistinctKeys (ring.keys ++ ring'.keys) →
      ∀ (kid signerId : String) (payload : List Nat) (s t : UtcMoment) (proof : CapabilityProof)
        (k : CapabilitySigningKey), ring.key? kid = some k →
        sign readPayload kid signerId payload s ring = .ok proof →
        (verify readPayload proof signerId payload t ring' = true ↔
          (∀ set ∈ acceptedSets labels, kid ∈ kids set) ∧
            ring'.statusHighWater kid ≠ some .revoked ∧ k.ValidAt t)) := by
  have hi := reachable_ring hring
  obtain ⟨hi', hlater⟩ := run_ring hi hrun
  refine ⟨fun call e ring₁ h => ?_, fun hfree k hk k' hk' hkid => same_key_id hi hrun hk hk' hkid hfree,
    fun kid hin hout labels' ring'' hrun' => ?_, fun hfree kid signerId payload s t proof k hkey hsign => ?_⟩
  · rcases @exec_cases readPayload ring ring₁ (call, .raised e) h with ⟨rfl, -⟩ | ⟨submitted, -, hset⟩
    · rfl
    · cases call with
      | replaceKeys submitted => cases submitted <;> simp [acceptedSet] at hset
      | sign => simp [acceptedSet] at hset
      | verify => simp [acceptedSet] at hset
      | authorizeRoot => simp [acceptedSet] at hset
      | authorizeDelegation => simp [acceptedSet] at hset
  · obtain ⟨hi'', hlater'⟩ := run_ring hi' hrun'
    have hretired := hlater'.retired kid (hlater.gone kid hin hout)
    refine ⟨fun hk => ?_, fun values hvalues => retired_rejected hretired hvalues⟩
    obtain ⟨k, hmem, rfl⟩ := List.mem_map.mp hk
    exact (hi''.installed k hmem).1 hretired
  · obtain ⟨k', hkey', -, rfl, -, husage, rfl⟩ := sign_ok hsign
    obtain rfl : k' = k := Option.some.inj (hkey'.symm.trans hkey)
    obtain ⟨hk, rfl⟩ := key?_some hkey
    have hin : k'.kid ∈ kids ring.keys := List.mem_map_of_mem hk
    rw [← kid_kept hi hrun hin]
    by_cases hpresent : k'.kid ∈ kids ring'.keys
    · obtain ⟨k₁, hk₁, hkid⟩ := List.mem_map.mp hpresent
      obtain ⟨hsame, -⟩ := same_key_id hi hrun hk hk₁ hkid hfree
      have hkey₁ : ring'.key? k'.kid = some { k' with status := k₁.status } := by
        rw [← hsame, ← hkid]
        exact key?_of_mem hi' hk₁
      have hstatus : ring'.statusHighWater k'.kid = some k₁.status := hkid ▸ (hi'.installed k₁ hk₁).2.2
      rw [verify_proofOf hkey₁ husage, hstatus]
      simp [hpresent]
    · have hnone : ring'.key? k'.kid = none := by
        refine List.find?_eq_none.mpr (fun k₁ hk₁ => ?_)
        have hne : k₁.kid ≠ k'.kid := fun heq => hpresent (heq ▸ List.mem_map_of_mem hk₁)
        simpa using hne
      have hfalse : verify readPayload (proofOf k' payload) k'.principalId payload t ring' = false := by
        unfold verify
        rw [show (proofOf k' payload).kid = k'.kid from rfl, hnone]
        cases decodeSignature (proofOf k' payload).signature <;> rfl
      simp [hfalse, hpresent]

end

/-! ## A key rotated out -/

namespace Rotation

theorem fromThen_inRange : InRange (dayMicros * 738886) := by
  simp only [InRange, dayMicros, Calendar.maxDay]
  omega

def fromThen : UtcMoment := ⟨dayMicros * 738886, fromThen_inRange⟩

theorem untilThen_inRange : InRange (dayMicros * 738976) := by
  simp only [InRange, dayMicros, Calendar.maxDay]
  omega

def untilThen : UtcMoment := ⟨dayMicros * 738976, untilThen_inRange⟩

theorem secret_material : 32 ≤ (List.replicate 32 7).length ∧ ∀ b ∈ List.replicate 32 7, b < 256 := by
  decide

theorem then_window : fromThen.micros < untilThen.micros := by decide

/-- A delegation key with this status. -/
def key (status : KeyStatus) : CapabilitySigningKey where
  kid := "k1"
  principalId := "alice"
  secret := List.replicate 32 7
  notBefore := fromThen
  expiresAt := untilThen
  status := status
  usages := {.delegation}
  rootTenants := ∅
  algorithm := "HS256"
  key := .refl true
  principal := .refl true
  material := secret_material
  window := then_window
  used := by simp
  rooted := by simp
  bounded := by simp
  supported := rfl

/-- The ring with that key alone. -/
def ring (status : KeyStatus) : Ring :=
  ⟨[key status], assign (fun _ => none) "k1" (keyIdentity (key status)),
    assign (fun _ => none) "k1" status, []⟩

theorem starts : replaceKeys (some [some (key .active)]) Ring.empty = (.ok (), ring .active) := rfl

theorem rotates : replaceKeys (some [some (key .verifyOnly)]) (ring .active) =
    (.ok (), ⟨[key .verifyOnly], assign (ring .active).keyIdentities "k1" (keyIdentity (key .verifyOnly)),
      assign (ring .active).statusHighWater "k1" .verifyOnly, []⟩) := by
  have hsame : ∀ known, (ring .active).keyIdentities "k1" = some known →
      ¬known ≠ keyIdentity (key .verifyOnly) := by
    intro known hknown
    rw [not_not]
    exact (Option.some.inj hknown).symm
  have honward : ∀ previous, (ring .active).statusHighWater "k1" = some previous →
      ¬KeyStatus.verifyOnly.order < previous.order := by
    intro previous hprevious
    rw [← Option.some.inj hprevious]
    decide
  have hinstall : installKeys [] [key .verifyOnly] (ring .active).keyIdentities
      (ring .active).statusHighWater =
      .ok (assign (ring .active).keyIdentities "k1" (keyIdentity (key .verifyOnly)),
        assign (ring .active).statusHighWater "k1" .verifyOnly) := by
    rw [installKeys, if_neg (by simp), if_neg (fun h => h.elim fun known h => hsame known h.1 h.2),
      if_neg (fun h => h.elim fun previous h => honward previous h.1 h.2)]
    rfl
  have hretired : (ring .active).retiredKids ++ removedKids (ring .active) [key .verifyOnly] = [] := by
    simp [removedKids, ring, key]
  have hnormalized : normalizeKeys [] [some (key .verifyOnly)] = .ok [key .verifyOnly] := by
    simp [normalizeKeys]
  rw [← hretired] at hinstall ⊢
  exact replaceKeys_run (by simp [maxKeyRecords]) hnormalized hinstall

/-- What a payload of an edge says. -/
def edgeValue : Value :=
  .dict
    [("protocolVersion", .str "qe-capability/1"), ("trustDomain", .str "prod"),
      ("policyVersion", .str "1"), ("proofType", .str "delegation"),
      ("claims", .dict [("resource", .dict [("tenantId", .str "acme")])])]

/-- Read the canonical text of a value, and no other. -/
def reading (v : Value) : List Nat → Option Value :=
  fun payload => if payload = canonicalBytes v then some v else none

theorem allowed (status : KeyStatus) :
    payloadUsageAllowed (reading edgeValue) (key status) (canonicalBytes edgeValue) = true := by
  have hread : payloadSubject (reading edgeValue) (canonicalBytes edgeValue) =
      some ("delegation", ⟨"acme", by decide⟩) :=
    payloadSubject_of (if_pos rfl) (by simp) (by simp) rfl rfl rfl rfl _
  rw [payloadUsageAllowed, hread]
  simp [key]

theorem signs : sign (reading edgeValue) "k1" "alice" (canonicalBytes edgeValue) fromThen
    (ring .active) = .ok (proofOf (key .active) (canonicalBytes edgeValue)) := by
  have hkey : (ring .active).key? "k1" = some (key .active) := rfl
  unfold sign
  rw [hkey]
  show (if _ then _ else (if _ then _ else (if _ then _ else (if _ then _ else _)))) = _
  rw [if_neg (by decide), if_neg (by decide), if_neg (by decide), allowed, if_neg (by decide)]

theorem distinct : DistinctKeys [key .active, key .verifyOnly] := by
  have hidentity : (key .verifyOnly).identityPayload = (key .active).identityPayload := rfl
  have hsecret : (key .verifyOnly).secret = (key .active).secret := rfl
  have hlist : ∀ (a b : List Nat), b = a → NoCollision [a, b] := by
    intro a b hab x hx y hy _
    simp only [hab, List.mem_cons, List.not_mem_nil, or_false, or_self] at hx hy
    exact hx.trans hy.symm
  exact ⟨hlist _ _ (congrArg canonicalBytes hidentity), hlist _ _ hsecret⟩

end Rotation

open Rotation in
/-- A proof signed before its key was made verify-only still verifies. -/
theorem key_lifecycle_rotation :
    ∃ ring', replaceKeys (some [some (key .verifyOnly)]) (ring .active) = (.ok (), ring') ∧
      verify (reading edgeValue) (proofOf (key .active) (canonicalBytes edgeValue)) "alice"
        (canonicalBytes edgeValue) fromThen ring' = true := by
  refine ⟨_, rotates, ?_⟩
  have hrun := Run.single (S := ringSystem (reading edgeValue)) (s := ring .active)
    (l := (.replaceKeys (some [some (key .verifyOnly)]), .replaced))
    (show RingCall.exec (reading edgeValue) (.replaceKeys (some [some (key .verifyOnly)]))
      (ring .active) = _ by rw [RingCall.exec, rotates])
  obtain ⟨-, -, -, hsigned⟩ := key_lifecycle (.start ⟨_, starts⟩) hrun
  refine (hsigned distinct "k1" "alice" _ fromThen fromThen _ (key .active) rfl signs).mpr
    ⟨?_, ?_, by decide⟩
  · intro set hset
    obtain rfl : set = [key .verifyOnly] := by simpa [acceptedSets, acceptedSet] using hset
    simp [kids, key]
  · simp [assign]

end QuantumEntanglement.Tenancy
