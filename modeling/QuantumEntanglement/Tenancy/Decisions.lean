import QuantumEntanglement.Tenancy.Authorizer

/-
  Authorization decisions — what the authorizer allows

  A request is allowed when nothing refuses it and some role binding or some
  presented capability grants it. Which of several failed capabilities a
  denial reports is decided by a precedence of codes and then by the
  capability's id, so the order they are presented in does not show.

  What is proved:
    1. `screen_ok` — what refuses no request.
    2. `consider_grants` — what a capability that grants a request is.
    3. `allowed_iff` — what is allowed.
    4. `evaluate_members` — the decision depends on which capabilities are
       presented, not on their order or number.

  Evidence names a capability by the digest of its envelope, so (4) is about
  presentations in which no two envelopes have one digest.
-/

namespace QuantumEntanglement.Tenancy

open PyJson PyText IsoTime Sha256 Calendar

namespace TenantAuthorizer

variable {A : TenantAuthorizer} {request : AccessRequest} {revocations : RevocationSnapshot}
  {now : UtcMoment}

/-! ## What refuses a request -/

/-- Nothing refuses the request of this member. -/
structure Admissible (A : TenantAuthorizer) (request : AccessRequest)
    (revocations : RevocationSnapshot) (now : UtcMoment) (member : Member) : Prop where
  resource : request.resource.tenantId = request.tenantId
  subject : member.memberId = request.subjectId
  tenant : member.tenantId = request.tenantId
  active : member.status = .active
  snapshot : revocations.tenantId = request.tenantId
  reading : InRange (now.micros + A.maxClockSkew)
  notFuture : revocations.capturedAt.micros ≤ now.micros + A.maxClockSkew
  notStale : now.micros - revocations.capturedAt.micros ≤ A.maxRevocationAge
  guarded : A.revisionGuard request.tenantId revocations.revision revocations.stateDigest = .accepted

theorem addDelta_ok {t : UtcMoment} {delta latest : Int} :
    addDelta t delta = .ok latest ↔ InRange (t.micros + delta) ∧ latest = t.micros + delta := by
  unfold addDelta
  by_cases h : InRange (t.micros + delta) <;> simp [h, eq_comm]

theorem validateRevocationSnapshot_none :
    A.validateRevocationSnapshot request revocations now = .ok none ↔
      revocations.tenantId = request.tenantId ∧ InRange (now.micros + A.maxClockSkew) ∧
        revocations.capturedAt.micros ≤ now.micros + A.maxClockSkew ∧
        now.micros - revocations.capturedAt.micros ≤ A.maxRevocationAge := by
  unfold validateRevocationSnapshot
  by_cases ht : revocations.tenantId = request.tenantId
  · rw [if_neg (not_not.mpr ht), except_bind_ok]
    simp only [addDelta_ok]
    constructor
    · rintro ⟨latest, ⟨hr, rfl⟩, h⟩
      split at h
      · simp at h
      · split at h
        · simp at h
        · exact ⟨ht, hr, by omega, by omega⟩
    · rintro ⟨-, hr, hf, hs⟩
      refine ⟨_, ⟨hr, rfl⟩, ?_⟩
      rw [if_neg (by omega), if_neg (by omega)]
  · simp [ht]

theorem guardRefusal_none : A.guardRefusal request revocations = none ↔
    A.revisionGuard request.tenantId revocations.revision revocations.stateDigest = .accepted := by
  unfold guardRefusal
  split <;> simp_all

/-- **What refuses no request.** -/
theorem screen_ok {member : Option Member} {m : Member} :
    A.screen request revocations now member = .ok (.inr m) ↔
      member = some m ∧ Admissible A request revocations now m := by
  constructor
  · intro h
    unfold screen at h
    split at h
    · simp at h
    next hresource =>
      cases member with
      | none => simp at h
      | some member =>
        simp only at h
        split at h
        · simp at h
        next hsubject =>
          split at h
          · simp at h
          next htenant =>
            split at h
            · simp at h
            next hactive =>
              split at h
              · simp at h
              · split at h
                · simp at h
                · simp at h
                next hsnapshot =>
                  split at h
                  · simp at h
                  next hguard =>
                    obtain rfl : member = m := by simpa using h
                    obtain ⟨hs, hr, hf, ha⟩ := validateRevocationSnapshot_none.mp hsnapshot
                    exact ⟨rfl, not_not.mp hresource, not_not.mp hsubject, not_not.mp htenant,
                      not_not.mp hactive, hs, hr, hf, ha, guardRefusal_none.mp hguard⟩
  · rintro ⟨rfl, h⟩
    unfold screen
    rw [if_neg (not_not.mpr h.resource)]
    show (if m.memberId ≠ request.subjectId then _ else _) = _
    rw [if_neg (not_not.mpr h.subject), if_neg (not_not.mpr h.tenant), if_neg (not_not.mpr h.active),
      if_neg (not_not.mpr h.snapshot),
      validateRevocationSnapshot_none.mpr ⟨h.snapshot, h.reading, h.notFuture, h.notStale⟩,
      guardRefusal_none.mpr h.guarded]

/-- The screen decides whenever the skew can be added to the reading. -/
theorem screen_total (hreading : InRange (now.micros + A.maxClockSkew)) (member : Option Member) :
    ∃ r, A.screen request revocations now member = .ok r := by
  have hsnapshot : ∃ r, A.validateRevocationSnapshot request revocations now = .ok r := by
    unfold validateRevocationSnapshot
    rw [addDelta_ok.mpr ⟨hreading, rfl⟩]
    simp only [bind, Except.bind]
    split
    · exact ⟨_, rfl⟩
    · split
      · exact ⟨_, rfl⟩
      · split
        · exact ⟨_, rfl⟩
        · exact ⟨_, rfl⟩
  obtain ⟨r, hr⟩ := hsnapshot
  unfold screen
  rw [hr]
  cases member with
  | none => split <;> exact ⟨_, rfl⟩
  | some m =>
    repeat' split
    all_goals first | exact ⟨_, rfl⟩ | simp_all

/-! ## What grants it -/

theorem roleEvidence_ne {bindings : List RoleBinding} :
    A.roleEvidence request bindings ≠ [] ↔ ∃ b ∈ bindings, A.bindingGrants request b = true := by
  simp [roleEvidence, List.filter_eq_nil_iff]

theorem validateChain_none {evidence : String} : ∀ {chain : List CapabilityClaims},
    validateChain revocations now evidence chain = none ↔
      ∀ c ∈ chain, c.revocationId ∉ revocations.revokedIds ∧ c.notBefore.micros ≤ now.micros ∧
        now.micros < c.expiresAt.micros
  | [] => by simp [validateChain]
  | c :: rest => by
    rw [validateChain, List.forall_mem_cons]
    split
    next h => simp [h]
    next hr =>
      split
      next h =>
        simp only [reduceCtorEq, false_iff]
        rintro ⟨⟨-, h', -⟩, -⟩
        omega
      next hn =>
        split
        next h =>
          simp only [reduceCtorEq, false_iff]
          rintro ⟨⟨-, -, h'⟩, -⟩
          omega
        next he =>
          rw [validateChain_none]
          exact ⟨fun h => ⟨⟨hr, by omega, by omega⟩, h⟩, fun h => h.2⟩

/-- A capability that grants the request. -/
structure Grants (A : TenantAuthorizer) (request : AccessRequest) (revocations : RevocationSnapshot)
    (now : UtcMoment) (e : CapabilityEnvelope) : Prop where
  verified : A.capabilityVerifier.Accepts e now true
  subject : e.leaf.subjectId = request.subjectId
  tenant : e.leaf.tenantId = request.tenantId
  action : actionCovers e.leaf.action request.action = true
  resource : e.leaf.resource.contains request.resource.toSelector = true
  live : ∀ c ∈ e.claims, c.revocationId ∉ revocations.revokedIds ∧
    c.notBefore.micros ≤ now.micros ∧ now.micros < c.expiresAt.micros

theorem validateForAuthorization_none {v : VerifiedCapability} :
    validateForAuthorization request revocations now v = none ↔
      actionCovers v.envelope.leaf.action request.action = true ∧
        v.envelope.leaf.resource.contains request.resource.toSelector = true ∧
        ∀ c ∈ v.envelope.claims, c.revocationId ∉ revocations.revokedIds ∧
          c.notBefore.micros ≤ now.micros ∧ now.micros < c.expiresAt.micros := by
  unfold validateForAuthorization
  split
  next h => simp [h]
  next ha =>
    split
    next h => simp [h]
    next hr =>
      rw [validateChain_none]
      simp only [Bool.not_eq_false] at ha hr
      simp [ha, hr]

/-- A capability verifies again exactly when the authorizer's verifier accepts
its envelope. -/
theorem reverifyCapability_some {p : Option CapabilityEnvelope} {v : VerifiedCapability} :
    A.reverifyCapability now p = some v ↔
      ∃ e, p = some e ∧ A.capabilityVerifier.Accepts e now true ∧
        v = ⟨e, A.trustDomain, A.policyVersion, now⟩ := by
  cases p with
  | none => simp [reverifyCapability]
  | some e =>
    simp only [reverifyCapability, Option.some.injEq, exists_eq_left']
    cases hv : A.capabilityVerifier.verify e now true with
    | error err =>
      have hnot : ¬A.capabilityVerifier.Accepts e now true := fun h => by
        rw [CapabilityVerifier.verify_ok.mpr ⟨h, rfl⟩] at hv
        simp at hv
      simp [hnot]
    | ok trusted =>
      obtain ⟨haccepts, rfl⟩ := CapabilityVerifier.verify_ok.mp hv
      simp [haccepts, A.domain, A.version, eq_comm]

/-- **What a capability that grants the request is.** -/
theorem consider_grants {p : Option CapabilityEnvelope} {evidence : String} :
    A.consider request revocations now p = .grants evidence ↔
      ∃ e, p = some e ∧ Grants A request revocations now e ∧
        evidence = "capability:" ++ e.envelopeId := by
  unfold consider
  cases hv : A.reverifyCapability now p with
  | none =>
    simp only [reduceCtorEq, false_iff]
    rintro ⟨e, hp, hgrants, -⟩
    rw [reverifyCapability_some.mpr ⟨e, hp, hgrants.verified, rfl⟩] at hv
    simp at hv
  | some v =>
    obtain ⟨e, rfl, haccepts, rfl⟩ := reverifyCapability_some.mp hv
    simp only [Option.some.injEq, exists_eq_left']
    split
    next hforeign =>
      simp only [reduceCtorEq, false_iff]
      rintro ⟨hgrants, -⟩
      rcases hforeign with h | h
      · exact h hgrants.subject
      · exact h hgrants.tenant
    next hown =>
      rw [not_or, not_not, not_not] at hown
      cases hf : validateForAuthorization request revocations now
          ⟨e, A.trustDomain, A.policyVersion, now⟩ with
      | some failure =>
        simp only [reduceCtorEq, false_iff]
        rintro ⟨hgrants, -⟩
        rw [validateForAuthorization_none.mpr ⟨hgrants.action, hgrants.resource, hgrants.live⟩] at hf
        simp at hf
      | none =>
        obtain ⟨haction, hresource, hlive⟩ := validateForAuthorization_none.mp hf
        simp only [Consideration.grants.injEq]
        constructor
        · rintro rfl
          exact ⟨⟨haccepts, hown.1, hown.2, haction, hresource, hlive⟩, rfl⟩
        · rintro ⟨-, rfl⟩
          rfl

/-- What the presented capabilities grant. -/
theorem mem_grantedEvidence {presented : List (Option CapabilityEnvelope)} {evidence : String} :
    evidence ∈ A.grantedEvidence request revocations now presented ↔
      ∃ e, some e ∈ presented ∧ Grants A request revocations now e ∧
        evidence = "capability:" ++ e.envelopeId := by
  simp only [grantedEvidence, List.mem_filterMap, List.mem_map, exists_exists_and_eq_and]
  constructor
  · rintro ⟨p, hp, h⟩
    cases hc : A.consider request revocations now p with
    | grants ev =>
      obtain ⟨e, rfl, hgrants, rfl⟩ := consider_grants.mp hc
      rw [hc] at h
      exact ⟨e, hp, hgrants, (Option.some.inj h).symm⟩
    | fails f =>
      rw [hc] at h
      exact absurd h (by simp [Consideration.evidence?])
    | foreign =>
      rw [hc] at h
      exact absurd h (by simp [Consideration.evidence?])
  · rintro ⟨e, hp, hgrants, rfl⟩
    refine ⟨some e, hp, ?_⟩
    rw [consider_grants.mpr ⟨e, rfl, hgrants, rfl⟩]
    rfl

theorem grantedEvidence_ne {presented : List (Option CapabilityEnvelope)} :
    A.grantedEvidence request revocations now presented ≠ [] ↔
      ∃ e, some e ∈ presented ∧ Grants A request revocations now e := by
  constructor
  · intro h
    obtain ⟨evidence, hmem⟩ := List.exists_mem_of_ne_nil _ h
    obtain ⟨e, he, hgrants, -⟩ := mem_grantedEvidence.mp hmem
    exact ⟨e, he, hgrants⟩
  · rintro ⟨e, he, hgrants⟩
    exact List.ne_nil_of_mem (mem_grantedEvidence.mpr ⟨e, he, hgrants, rfl⟩)

theorem ungranted_outcome (outside : Bool) (revision : Option Nat) :
    (ungranted request now outside revision).outcome = .deny := by
  cases outside <;> rfl

theorem decideFailures_outcome (outside : Bool) (failures : List Failure) :
    (decideFailures request revocations now outside failures).outcome = .deny := by
  cases failures with
  | nil => exact ungranted_outcome _ _
  | cons first rest => rfl

/-- Nothing refusing it, a request is allowed when a binding or a capability
grants it. -/
theorem decideGrants_allow {bindings : List RoleBinding}
    {presented : List (Option CapabilityEnvelope)} {revision : Option Nat} :
    (A.decideGrants request revocations now bindings presented revision).outcome = .allow ↔
      (∃ b ∈ bindings, A.bindingGrants request b = true) ∨
        ∃ e, some e ∈ presented ∧ Grants A request revocations now e := by
  unfold decideGrants
  split
  next h => exact ⟨fun _ => .inl (roleEvidence_ne.mp h), fun _ => rfl⟩
  next h =>
    rw [roleEvidence_ne] at h
    simp only [h, false_or]
    split
    next hnil => simp [hnil, ungranted_outcome]
    · split
      next hsome => exact ⟨fun _ => grantedEvidence_ne.mp hsome, fun _ => rfl⟩
      next hnone =>
        rw [grantedEvidence_ne] at hnone
        simp [hnone, decideFailures_outcome]

/-- **What is allowed.** -/
theorem allowed_iff {member : Option Member} {presented : List (Option CapabilityEnvelope)} :
    (∃ d, A.evaluate request revocations now member presented = .ok d ∧ d.outcome = .allow) ↔
      presented.length ≤ maxCapabilitiesPerDecision ∧
        ∃ m, member = some m ∧ Admissible A request revocations now m ∧
          ((∃ b ∈ m.roleBindings, A.bindingGrants request b = true) ∨
            ∃ e, some e ∈ presented ∧ Grants A request revocations now e) := by
  unfold evaluate
  split
  next hmany => simp [valueError, Nat.not_le.mpr hmany]
  next hfew =>
    simp only [Nat.not_lt.mp hfew, true_and]
    cases hs : A.screen request revocations now member with
    | error err =>
      simp only [reduceCtorEq, false_and, exists_false, false_iff]
      rintro ⟨m, rfl, hadmissible, -⟩
      rw [screen_ok.mpr ⟨rfl, hadmissible⟩] at hs
      simp at hs
    | ok r =>
      cases r with
      | inl refusal =>
        simp only [Except.ok.injEq, exists_eq_left', deny, reduceCtorEq, false_iff]
        rintro ⟨m, rfl, hadmissible, -⟩
        rw [screen_ok.mpr ⟨rfl, hadmissible⟩] at hs
        simp at hs
      | inr m =>
        obtain ⟨rfl, hadmissible⟩ := screen_ok.mp hs
        simp [decideGrants_allow, hadmissible]

/-! ## What the order does not show -/

theorem sortedSet_congr {l l' : List String} (h : ∀ x, x ∈ l ↔ x ∈ l') : sortedSet l = sortedSet l' := by
  have hperm : l.dedup.Perm l'.dedup :=
    (List.perm_ext_iff_of_nodup l.nodup_dedup l'.nodup_dedup).mpr (fun x => by simp [h x])
  have htotal : Std.Total (fun a b : String => a.toList ≤ b.toList) := ⟨fun a b => le_total _ _⟩
  have htrans : IsTrans String (fun a b => a.toList ≤ b.toList) := ⟨fun _ _ _ => le_trans⟩
  have hantisymm : Std.Antisymm (fun a b : String => a.toList ≤ b.toList) :=
    ⟨fun _ _ h h' => String.toList_inj.mp (le_antisymm h h')⟩
  refine List.Perm.eq_of_pairwise (fun a b _ _ h h' => hantisymm.antisymm a b h h')
    (List.pairwise_insertionSort _ _) (List.pairwise_insertionSort _ _) ?_
  exact ((List.perm_insertionSort _ _).trans hperm).trans (List.perm_insertionSort _ _).symm

theorem before_asymm {f g : Failure} (h : f.before g = true) : g.before f = false := by
  by_contra hc
  simp only [Failure.before, Bool.not_eq_false, Bool.or_eq_true, Bool.and_eq_true,
    decide_eq_true_eq] at h hc
  rcases h with h | ⟨h, hk⟩
  · rcases hc with hc | ⟨hc, -⟩ <;> omega
  · rcases hc with hc | ⟨hc, hk'⟩
    · omega
    · have := keyLt_trans hk hk'
      rw [keyLt_irrefl] at this
      simp at this

/-- Keys are totally ordered, so not being before carries over. -/
theorem not_before_trans {f g h : Failure} (hfg : f.before g = false) (hgh : g.before h = false) :
    f.before h = false := by
  by_contra hc
  rw [Bool.not_eq_false] at hc
  simp only [Failure.before, Bool.or_eq_true, Bool.and_eq_true, decide_eq_true_eq] at hc
  simp only [Failure.before, Bool.or_eq_false_iff, Bool.and_eq_false_iff,
    decide_eq_false_iff_not] at hfg hgh
  obtain ⟨hfg, hfg'⟩ := hfg
  obtain ⟨hgh, hgh'⟩ := hgh
  rcases hc with hc | ⟨hc, hk⟩
  · omega
  · -- all three have one precedence, and the evidence is totally ordered
    have hkf : keyLt f.evidence g.evidence = false := hfg'.resolve_left (by omega)
    have hkg : keyLt g.evidence h.evidence = false := hgh'.resolve_left (by omega)
    rcases keyLt_total hkf with heq | hlt
    · rw [heq, hkg] at hk
      simp at hk
    · rw [keyLt_trans hlt hk] at hkg
      simp at hkg

/-- Two failures neither of which is before the other have one key. -/
theorem same_key {f g : Failure} (h : f.before g = false) (h' : g.before f = false) :
    errorPrecedence f.code = errorPrecedence g.code ∧ f.evidence = g.evidence := by
  simp only [Failure.before, Bool.or_eq_false_iff, Bool.and_eq_false_iff,
    decide_eq_false_iff_not] at h h'
  have hprecedence : errorPrecedence f.code = errorPrecedence g.code := by omega
  refine ⟨hprecedence, ?_⟩
  rcases keyLt_total (h.2.resolve_left (by omega)) with heq | hlt
  · exact heq
  · rw [hlt] at h'
    have := h'.2.resolve_left (by omega)
    simp at this

/-- The failure reported is one of them, and none is before it. -/
theorem leastFailure_spec : ∀ (rest : List Failure) (first : Failure),
    leastFailure first rest ∈ first :: rest ∧
      ∀ f ∈ first :: rest, f.before (leastFailure first rest) = false
  | [], first => by
    refine ⟨by simp [leastFailure], fun f hf => ?_⟩
    rw [List.mem_singleton.mp hf]
    simp [leastFailure, Failure.before, keyLt_irrefl]
  | g :: rest, first => by
    have hstep : leastFailure first (g :: rest) =
        leastFailure (if g.before first then g else first) rest := rfl
    obtain ⟨hmem, hleast⟩ := leastFailure_spec rest (if g.before first then g else first)
    rw [hstep]
    refine ⟨?_, fun f hf => ?_⟩
    · rcases List.mem_cons.mp hmem with h | h
      · rw [h]
        split <;> simp
      · exact List.mem_cons_of_mem _ (List.mem_cons_of_mem _ h)
    · have hbest := hleast _ List.mem_cons_self
      have hkept : f = first ∨ f = g ∨ f ∈ rest := by simpa using hf
      by_cases hg : g.before first = true
      · rw [if_pos hg] at hleast hbest ⊢
        rcases hkept with rfl | rfl | hr
        · exact not_before_trans (before_asymm hg) hbest
        · exact hbest
        · exact hleast f (List.mem_cons_of_mem _ hr)
      · rw [if_neg hg] at hleast hbest ⊢
        rcases hkept with rfl | rfl | hr
        · exact hbest
        · exact not_before_trans (by simpa using hg) hbest
        · exact hleast f (List.mem_cons_of_mem _ hr)

/-- A failure that names the envelope it is about. -/
def Names (f : Failure) (evidence : String) : Prop :=
  f.code ≠ .capabilityInvalid ∧ errorPrecedence f.code < 6 ∧ f.evidence = evidence

theorem validateChain_some {evidence : String} {f : Failure} : ∀ {chain : List CapabilityClaims},
    validateChain revocations now evidence chain = some f → Names f evidence
  | c :: rest, h => by
    rw [validateChain] at h
    split at h
    · rw [← Option.some.inj h]
      exact ⟨by simp, by simp [errorPrecedence], rfl⟩
    · split at h
      · rw [← Option.some.inj h]
        exact ⟨by simp, by simp [errorPrecedence], rfl⟩
      · split at h
        · rw [← Option.some.inj h]
          exact ⟨by simp, by simp [errorPrecedence], rfl⟩
        · exact validateChain_some h

theorem validateForAuthorization_some {v : VerifiedCapability} {f : Failure}
    (h : validateForAuthorization request revocations now v = some f) :
    Names f ("capability:" ++ v.chainId) := by
  unfold validateForAuthorization at h
  split at h
  · rw [← Option.some.inj h]
    exact ⟨by simp, by simp [errorPrecedence], rfl⟩
  · split at h
    · rw [← Option.some.inj h]
      exact ⟨by simp, by simp [errorPrecedence], rfl⟩
    · exact validateChain_some h

/-- A capability's failure: the one every unverified envelope has, or one that
names the envelope. -/
theorem consider_fails {p : Option CapabilityEnvelope} {f : Failure}
    (h : A.consider request revocations now p = .fails f) :
    (f.code = .capabilityInvalid ∧
        f.reason = "capability envelope failed authorizer-owned proof verification") ∨
      ∃ e, p = some e ∧ Names f ("capability:" ++ e.envelopeId) := by
  unfold consider at h
  cases hv : A.reverifyCapability now p with
  | none =>
    rw [hv] at h
    simp only [Consideration.fails.injEq] at h
    rw [← h]
    exact .inl ⟨rfl, rfl⟩
  | some v =>
    obtain ⟨e, rfl, -, rfl⟩ := reverifyCapability_some.mp hv
    rw [hv] at h
    simp only at h
    split at h
    · simp at h
    · split at h
      next failure hf =>
        have hnames := validateForAuthorization_some hf
        rw [VerifiedCapability.chainId, Consideration.fails.inj h] at hnames
        exact .inr ⟨e, rfl, hnames⟩
      · simp at h

theorem envelopeId_eq (e : CapabilityEnvelope) :
    e.envelopeId = hexDigestBytes (canonicalBytes e.toDict) := by
  unfold CapabilityEnvelope.envelopeId canonicalDigest canonicalBytes hexDigest hexDigestBytes
  rfl

/-- No two presented envelopes have one digest. -/
def DistinctIds (presented : List (Option CapabilityEnvelope)) : Prop :=
  NoCollision ((presented.filterMap id).map (fun e => canonicalBytes e.toDict))

theorem DistinctIds.inj {presented : List (Option CapabilityEnvelope)} (h : DistinctIds presented)
    {e e' : CapabilityEnvelope} (he : some e ∈ presented) (he' : some e' ∈ presented)
    (hid : e.envelopeId = e'.envelopeId) : e = e' := by
  have hmem : ∀ {e : CapabilityEnvelope}, some e ∈ presented →
      canonicalBytes e.toDict ∈ (presented.filterMap id).map (fun e => canonicalBytes e.toDict) :=
    fun he => List.mem_map_of_mem (List.mem_filterMap.mpr ⟨_, he, rfl⟩)
  rw [envelopeId_eq, envelopeId_eq] at hid
  exact envelope_inj (h _ (hmem he) _ (hmem he') hid)

theorem errorPrecedence_inj {a b : DecisionCode} (h : errorPrecedence a = errorPrecedence b)
    (ha : errorPrecedence a < 6) : a = b := by
  cases a <;> cases b <;> simp_all [errorPrecedence]

theorem mem_failures {presented : List (Option CapabilityEnvelope)} {f : Failure} :
    f ∈ A.failures request revocations now presented ↔
      ∃ p ∈ presented, A.consider request revocations now p = .fails f := by
  simp only [failures, List.mem_filterMap, List.mem_map, exists_exists_and_eq_and]
  constructor
  · rintro ⟨p, hp, h⟩
    cases hc : A.consider request revocations now p with
    | fails g =>
      rw [hc] at h
      exact ⟨p, hp, by rw [hc, Option.some.inj h]⟩
    | grants ev =>
      rw [hc] at h
      exact absurd h (by simp [Consideration.failure?])
    | foreign =>
      rw [hc] at h
      exact absurd h (by simp [Consideration.failure?])
  · rintro ⟨p, hp, h⟩
    exact ⟨p, hp, by rw [h]; rfl⟩

/-- A failure's code and evidence determine its reason. -/
theorem failures_inj {presented : List (Option CapabilityEnvelope)} (hids : DistinctIds presented)
    {f g : Failure} (hf : f ∈ A.failures request revocations now presented)
    (hg : g ∈ A.failures request revocations now presented) (hcode : f.code = g.code)
    (hevidence : f.evidence = g.evidence) : f.toRefusal = g.toRefusal := by
  obtain ⟨p, hp, hf⟩ := mem_failures.mp hf
  obtain ⟨q, hq, hg⟩ := mem_failures.mp hg
  rcases consider_fails hf with ⟨hfc, hfr⟩ | ⟨e, rfl, hfc, -, hfe⟩
  · rcases consider_fails hg with ⟨-, hgr⟩ | ⟨-, -, hgc, -⟩
    · obtain ⟨⟨fc, fr, _⟩, _⟩ := f
      obtain ⟨⟨gc, gr, _⟩, _⟩ := g
      simp_all
    · exact absurd (hcode.symm.trans hfc) hgc
  · rcases consider_fails hg with ⟨hgc, -⟩ | ⟨e', rfl, -, -, hge⟩
    · exact absurd (hcode.trans hgc) hfc
    · rw [hfe, hge] at hevidence
      have hid : e.envelopeId = e'.envelopeId := by
        have htexts := congrArg String.toList hevidence
        rw [String.toList_append, String.toList_append] at htexts
        exact String.toList_inj.mp (List.append_cancel_left htexts)
      obtain rfl := hids.inj hp hq hid
      rw [Consideration.fails.inj (hf.symm.trans hg)]

/-- The failure reported depends on which failures there are. -/
theorem decideFailures_congr {outside : Bool} {fs gs : List Failure} (hmem : ∀ f, f ∈ fs ↔ f ∈ gs)
    (hinj : ∀ f ∈ fs, ∀ g ∈ fs, f.code = g.code → f.evidence = g.evidence → f.toRefusal = g.toRefusal)
    (hcode : ∀ f ∈ fs, errorPrecedence f.code < 6) :
    decideFailures request revocations now outside fs =
      decideFailures request revocations now outside gs := by
  cases fs with
  | nil =>
    cases gs with
    | nil => rfl
    | cons g rest => exact absurd ((hmem g).mpr (by simp)) (by simp)
  | cons first rest =>
    cases gs with
    | nil => exact absurd ((hmem first).mp (by simp)) (by simp)
    | cons first' rest' =>
      obtain ⟨hin, hleast⟩ := leastFailure_spec rest first
      obtain ⟨hin', hleast'⟩ := leastFailure_spec rest' first'
      have hle := hleast _ ((hmem _).mpr hin')
      have hle' := hleast' _ ((hmem _).mp hin)
      obtain ⟨hprecedence, hevidence⟩ := same_key hle' hle
      have hsame := errorPrecedence_inj hprecedence (hcode _ hin)
      have hrefusal := hinj _ hin _ ((hmem _).mpr hin') hsame hevidence
      have hevidences : sortedSet (((first :: rest).filter
            (fun f => f.code = (leastFailure first' rest').code)).map Failure.evidence) =
          sortedSet (((first' :: rest').filter
            (fun f => f.code = (leastFailure first' rest').code)).map Failure.evidence) :=
        sortedSet_congr (fun x => by simp only [List.mem_map, List.mem_filter, hmem])
      simp only [decideFailures, deny, hrefusal, hevidences]

/-- **The decision depends on which capabilities are presented**, not on their
order or number. -/
theorem evaluate_members {member : Option Member} {presented presented' : List (Option CapabilityEnvelope)}
    (hids : DistinctIds presented) (hmem : ∀ p, p ∈ presented ↔ p ∈ presented')
    (hfew : presented.length ≤ maxCapabilitiesPerDecision)
    (hfew' : presented'.length ≤ maxCapabilitiesPerDecision) :
    A.evaluate request revocations now member presented =
      A.evaluate request revocations now member presented' := by
  have hnil : presented = [] ↔ presented' = [] := by
    simp only [List.eq_nil_iff_forall_not_mem, hmem]
  have hgranted : ∀ x, x ∈ A.grantedEvidence request revocations now presented ↔
      x ∈ A.grantedEvidence request revocations now presented' := fun x => by
    simp only [mem_grantedEvidence, hmem]
  have hgrantedNil : A.grantedEvidence request revocations now presented = [] ↔
      A.grantedEvidence request revocations now presented' = [] := by
    simp only [List.eq_nil_iff_forall_not_mem, hgranted]
  have hfailures : ∀ f, f ∈ A.failures request revocations now presented ↔
      f ∈ A.failures request revocations now presented' := fun f => by
    simp only [mem_failures, hmem]
  have hcode : ∀ f ∈ A.failures request revocations now presented, errorPrecedence f.code < 6 := by
    intro f hf
    obtain ⟨p, -, hf⟩ := mem_failures.mp hf
    rcases consider_fails hf with ⟨h, -⟩ | ⟨-, -, -, h, -⟩
    · rw [h]
      decide
    · exact h
  have hdecide : ∀ bindings revision,
      A.decideGrants request revocations now bindings presented revision =
        A.decideGrants request revocations now bindings presented' revision := fun bindings revision => by
    unfold decideGrants
    rw [decideFailures_congr hfailures (fun f hf g hg => failures_inj hids hf hg) hcode]
    simp only [hnil, hgrantedNil, allow, ne_eq, sortedSet_congr hgranted]
  unfold evaluate
  rw [if_neg (Nat.not_lt.mpr hfew), if_neg (Nat.not_lt.mpr hfew')]
  simp only [hdecide]

/-! ## The decision -/

/-- A decision that denies has no code that allows. -/
theorem denied_code {d : AuthorizationDecision} (h : d.outcome = .deny) : d.code.allows = false := by
  by_contra hc
  have hallow := d.consistent.mpr (by simpa using hc)
  rw [h] at hallow
  simp at hallow

/-- What a decision through a capability is made from. -/
theorem decideGrants_capability {bindings : List RoleBinding}
    {presented : List (Option CapabilityEnvelope)} {revision : Option Nat} {d : AuthorizationDecision}
    (h : A.decideGrants request revocations now bindings presented revision = d)
    (hcode : d.code = .allowCapability) :
    A.grantedEvidence request revocations now presented ≠ [] ∧
      d.evidence = sortedSet (A.grantedEvidence request revocations now presented) := by
  have hdenied : d.outcome ≠ .deny := fun hdeny => by
    have := denied_code hdeny
    rw [hcode] at this
    simp [DecisionCode.allows] at this
  unfold decideGrants at h
  split at h
  · rw [← h] at hcode
    simp [allow] at hcode
  · split at h
    · exact absurd (h ▸ ungranted_outcome _ _) hdenied
    · split at h
      next hsome =>
        rw [← h]
        exact ⟨hsome, rfl⟩
      · exact absurd (h ▸ decideFailures_outcome _ _) hdenied

/-- A decision through a capability is evidence of capabilities that grant. -/
theorem allowCapability_evidence {member : Option Member}
    {presented : List (Option CapabilityEnvelope)} {d : AuthorizationDecision}
    (h : A.evaluate request revocations now member presented = .ok d)
    (hcode : d.code = .allowCapability) :
    d.evidence ≠ [] ∧ ∀ evidence ∈ d.evidence, ∃ e, some e ∈ presented ∧
      evidence = "capability:" ++ e.envelopeId ∧ Grants A request revocations now e := by
  unfold evaluate at h
  split at h
  · simp [valueError] at h
  · split at h
    · simp at h
    next refusal _ =>
      have hdenies := refusal.denies
      rw [← Except.ok.inj h] at hcode
      rw [show refusal.code = .allowCapability from hcode] at hdenies
      simp [DecisionCode.allows] at hdenies
    next m _ =>
      obtain ⟨hne, hevidence⟩ := decideGrants_capability (Except.ok.inj h) hcode
      have hmem : ∀ x, x ∈ d.evidence ↔ x ∈ A.grantedEvidence request revocations now presented :=
        fun x => by
          rw [hevidence, sortedSet]
          exact (List.perm_insertionSort _ _).mem_iff.trans List.mem_dedup
      refine ⟨fun hnil => ?_, fun x hx => ?_⟩
      · obtain ⟨x, hx⟩ := List.exists_mem_of_ne_nil _ hne
        rw [← hmem, hnil] at hx
        simp at hx
      · obtain ⟨e, he, hgrants, heq⟩ := mem_grantedEvidence.mp ((hmem x).mp hx)
        exact ⟨e, he, heq, hgrants⟩

/-- A capability that grants a request: every claim of its chain covers it. -/
theorem Grants.covers {e : CapabilityEnvelope} (h : Grants A request revocations now e) :
    ∀ c ∈ e.claims, c.Covers request.action request.resource.toSelector now := by
  have hleaf : e.claims.getLast? = some e.leaf := List.getLast?_eq_some_getLast e.chained.1
  have hlive := h.live e.leaf (List.getLast_mem e.chained.1)
  exact fun c hc => (chain_attenuates h.verified.chain hleaf c hc).2.2 _ _ _
    ⟨h.action, h.resource, hlive.2.1, hlive.2.2⟩

end TenantAuthorizer

/-- **Attenuation along the whole chain**: what the leaf of an accepted chain
covers, every claim of it covers, and a request is allowed through a
capability only while every claim of its chain is unrevoked, valid and covers
it. -/
theorem attenuation :
    (∀ (policy : ChainPolicy) (now : UtcMoment) (chain : List CapabilityClaims)
        (leaf : CapabilityClaims), validateChainStructure policy now chain = .ok () →
        chain.getLast? = some leaf →
      chain.IsChain (fun parent child => child.issuerId = parent.subjectId) ∧
        ∀ c ∈ chain, c.tenantId = leaf.tenantId ∧ c.audience = leaf.audience ∧
          ∀ (action : RequestedAction) (resource : ResourceRef) (t : UtcMoment),
            leaf.Covers action resource.toSelector t → c.Covers action resource.toSelector t) ∧
    ∀ (A : TenantAuthorizer) (request : AccessRequest) (revocations : RevocationSnapshot)
        (now : UtcMoment) (member : Option Member) (presented : List (Option CapabilityEnvelope))
        (d : AuthorizationDecision),
        A.evaluate request revocations now member presented = .ok d → d.code = .allowCapability →
      d.evidence ≠ [] ∧ ∀ evidence ∈ d.evidence, ∃ e, some e ∈ presented ∧
        evidence = "capability:" ++ e.envelopeId ∧
        ∀ c ∈ e.claims, c.revocationId ∉ revocations.revokedIds ∧
          c.Covers request.action request.resource.toSelector now := by
  refine ⟨fun policy now chain leaf h hleaf => ⟨?_, fun c hc => ?_⟩,
    fun A request revocations now member presented d h hcode => ?_⟩
  · obtain ⟨-, -, -, hchain, -⟩ := validateChain_ok h
    exact hchain.imp (fun _ _ hedge => hedge.issued)
  · obtain ⟨htenant, haudience, hcovers⟩ := chain_attenuates h hleaf c hc
    exact ⟨htenant, haudience, fun action resource t => hcovers action resource.toSelector t⟩
  · obtain ⟨hne, hall⟩ := TenantAuthorizer.allowCapability_evidence h hcode
    refine ⟨hne, fun evidence hmem => ?_⟩
    obtain ⟨e, he, heq, hgrants⟩ := hall evidence hmem
    exact ⟨e, he, heq, fun c hc => ⟨(hgrants.live c hc).1, hgrants.covers c hc⟩⟩

/-- **The authorizer's decision**: allowed is what nothing refuses and a role
or a capability grants; the order and number in which capabilities are
presented do not show, and more grants never take an allowance away. -/
theorem authorizer_decides (A : TenantAuthorizer) (request : AccessRequest)
    (revocations : RevocationSnapshot) (now : UtcMoment) (member : Option Member) :
    (∀ presented : List (Option CapabilityEnvelope),
      (∃ d, A.evaluate request revocations now member presented = .ok d ∧ d.outcome = .allow) ↔
        presented.length ≤ maxCapabilitiesPerDecision ∧
          ∃ m, member = some m ∧ TenantAuthorizer.Admissible A request revocations now m ∧
            ((∃ b ∈ m.roleBindings, A.bindingGrants request b = true) ∨
              ∃ e, some e ∈ presented ∧ TenantAuthorizer.Grants A request revocations now e)) ∧
    (∀ presented : List (Option CapabilityEnvelope),
      presented.length ≤ maxCapabilitiesPerDecision → InRange (now.micros + A.maxClockSkew) →
        ∃ d, A.evaluate request revocations now member presented = .ok d) ∧
    (∀ presented presented' : List (Option CapabilityEnvelope),
      TenantAuthorizer.DistinctIds presented → (∀ p, p ∈ presented ↔ p ∈ presented') →
      presented.length ≤ maxCapabilitiesPerDecision →
      presented'.length ≤ maxCapabilitiesPerDecision →
        A.evaluate request revocations now member presented =
          A.evaluate request revocations now member presented') ∧
    ∀ (m m' : Member) (presented presented' : List (Option CapabilityEnvelope)) (d : AuthorizationDecision),
      m'.memberId = m.memberId → m'.tenantId = m.tenantId → m'.status = m.status →
      (∀ b ∈ m.roleBindings, b ∈ m'.roleBindings) → (∀ p ∈ presented, p ∈ presented') →
      presented'.length ≤ maxCapabilitiesPerDecision →
      A.evaluate request revocations now (some m) presented = .ok d → d.outcome = .allow →
        ∃ d', A.evaluate request revocations now (some m') presented' = .ok d' ∧
          d'.outcome = .allow := by
  refine ⟨fun presented => TenantAuthorizer.allowed_iff, fun presented hfew hreading => ?_,
    fun presented presented' hids hmem hfew hfew' =>
      TenantAuthorizer.evaluate_members hids hmem hfew hfew', ?_⟩
  · obtain ⟨r, hr⟩ := @TenantAuthorizer.screen_total A request revocations now hreading member
    unfold TenantAuthorizer.evaluate
    rw [if_neg (Nat.not_lt.mpr hfew), hr]
    cases r <;> exact ⟨_, rfl⟩
  · intro m m' presented presented' d hid htenant hstatus hbindings hpresented hfew h hallow
    obtain ⟨-, member, hmember, hadmissible, hgrant⟩ := TenantAuthorizer.allowed_iff.mp ⟨d, h, hallow⟩
    obtain rfl := Option.some.inj hmember
    refine TenantAuthorizer.allowed_iff.mpr ⟨hfew, m', rfl, ?_, ?_⟩
    · exact
        { hadmissible with
          subject := hid.trans hadmissible.subject
          tenant := htenant.trans hadmissible.tenant
          active := hstatus.trans hadmissible.active }
    · rcases hgrant with ⟨b, hb, hgrants⟩ | ⟨e, he, hgrants⟩
      · exact .inl ⟨b, hbindings b hb, hgrants⟩
      · exact .inr ⟨e, hpresented _ he, hgrants⟩

/-! ## A chain of two claims, and the last reading of the clock -/

namespace Sample

/-- A moment on the first day of 2024 counted from there. -/
def moment (micros : Nat) (h : micros < 86400000000) : UtcMoment :=
  ⟨dayMicros * 738886 + micros, by simp only [InRange, dayMicros, maxDay]; omega⟩

def acme : TenantId := ⟨"acme", .refl true⟩

def nonceA : CapabilityNonce := ⟨"00000000000000000000000000000001", by decide⟩

def nonceB : CapabilityNonce := ⟨"00000000000000000000000000000002", by decide⟩

/-- All resources of the tenant. -/
def wholeTenant : ResourceScope :=
  ⟨⟨acme, none, "*", "*"⟩, .inl rfl, by decide, fun _ => rfl⟩

theorem starts_early : 0 < 86400000000 := by decide

theorem ends_early : 2000000 < 86400000000 := by decide

theorem root_starts : (moment 0 starts_early).micros ≤ (moment 0 starts_early).micros := by decide

theorem root_ends : (moment 0 starts_early).micros < (moment 2000000 ends_early).micros := by decide

def root : CapabilityClaims where
  issuerId := "platform"
  subjectId := "alice"
  action := ⟨"resource.*", .refl true⟩
  resource := wholeTenant
  issuedAt := moment 0 starts_early
  notBefore := moment 0 starts_early
  expiresAt := moment 2000000 ends_early
  audience := "qe"
  nonce := nonceA
  parentFingerprint := none
  issuer := .refl true
  subject := .refl true
  starts := root_starts
  ends := root_ends
  aimed := .refl true
  parent := by simp

def child : CapabilityClaims where
  issuerId := "alice"
  subjectId := "bob"
  action := ⟨"resource.read", .refl true⟩
  resource := wholeTenant
  issuedAt := moment 0 starts_early
  notBefore := moment 0 starts_early
  expiresAt := moment 1000000 (by decide)
  audience := "qe"
  nonce := nonceB
  parentFingerprint := some root.fingerprint
  issuer := .refl true
  subject := .refl true
  starts := root_starts
  ends := by decide
  aimed := .refl true
  parent := fun _ h => Option.some.inj h ▸ hexDigest_canonical _

def policy : ChainPolicy := ⟨"qe", 3600000000, 30000000, 16, by decide⟩

def now : UtcMoment := moment 500000 (by decide)

/-- One more link of an accepted chain. -/
theorem validateLinks_cons {seen : List RevocationId} {previous : Option CapabilityClaims}
    {c : CapabilityClaims} {rest : List CapabilityClaims} (haudience : c.audience = policy.audience)
    (httl : c.expiresAt.micros - c.issuedAt.micros ≤ policy.maxTtl)
    (hissued : c.issuedAt.micros ≤ now.micros + policy.maxClockSkew) (hseen : c.revocationId ∉ seen)
    (hlink : checkLink previous c = .ok ())
    (hrest : validateLinks policy now (c.revocationId :: seen) (some c) rest = .ok ()) :
    validateLinks policy now seen previous (c :: rest) = .ok () := by
  have hlatest : addDelta now policy.maxClockSkew = .ok (now.micros + policy.maxClockSkew) :=
    TenantAuthorizer.addDelta_ok.mpr ⟨by decide, rfl⟩
  rw [validateLinks, if_neg (not_not.mpr haudience), if_neg (Int.not_lt.mpr httl), hlatest]
  simp only [bind, Except.bind]
  rw [if_neg (Int.not_lt.mpr hissued), if_neg hseen, hlink]
  exact hrest

theorem chain_accepted : validateChainStructure policy now [root, child] = .ok () := by
  have hedge : Attenuates root child :=
    ⟨rfl, rfl, rfl, by decide, by decide, by decide, by decide, by decide, by decide⟩
  have hlink : checkLink (some root) child = .ok () := by
    rw [checkLink, (validateDelegation_ok (u := ())).mpr hedge]
  rw [validateChainStructure, if_neg (by simp), if_neg (by decide)]
  exact validateLinks_cons rfl (by decide) (by decide) (by decide) rfl
    (validateLinks_cons rfl (by decide) (by decide) (by decide) hlink rfl)

def proof : CapabilityProof := ⟨"k1", "HS256", "AAAAAAAAAAAAAAAA", .refl true, .refl true, by decide +kernel⟩

def envelope : CapabilityEnvelope where
  protocolVersion := capabilityProtocolVersion
  trustDomain := "prod"
  policyVersion := "1"
  claims := [root, child]
  rootProof := proof
  delegationProofs := [proof]
  protocol := .refl true
  domain := .refl true
  policy := .refl true
  chained := ⟨by simp, by decide⟩
  proven := rfl

def trusting : ProofVerifier :=
  ⟨fun _ _ _ _ => .accepted, fun _ _ _ => .accepted, fun _ _ _ _ => .accepted⟩

def verifier : CapabilityVerifier := ⟨trusting, "prod", "1", policy, .refl true, .refl true⟩

def authorizer : TenantAuthorizer :=
  ⟨verifier, "prod", "1", "qe", fun _ _ _ => .accepted, defaultRoleActions, 30000000, 300000000,
    rfl, rfl, rfl, by decide⟩

theorem d1_concrete : "d1" ≠ "*" := by decide

def request : AccessRequest :=
  ⟨"r1", "bob", acme, ⟨"resource.read", .refl true⟩,
    ⟨⟨acme, none, "document", "d1"⟩, .refl true, .refl true, d1_concrete⟩, .refl true, .refl true⟩

theorem noIds_distinct : ([] : List RevocationId).Nodup := .nil

theorem noIds_bounded : ([] : List RevocationId).length ≤ maxRevocationIds := by decide

theorem noIds_within : ∀ r ∈ ([] : List RevocationId), r.tenantId = acme := by simp

/-- A snapshot taken at a reading, with nothing revoked. -/
def snapshot (t : UtcMoment) : RevocationSnapshot := ⟨acme, 1, t, [], noIds_distinct, noIds_bounded, noIds_within⟩

/-- A member with these bindings. -/
def bob (bindings : List RoleBinding) (h : bindings.length ≤ maxRoleBindings)
    (hin : ∀ b ∈ bindings, b.scope.tenantId = acme) : Member :=
  ⟨"bob", acme, bindings, .active, .refl true, h, hin⟩

def viewer : RoleBinding := ⟨.viewer, wholeTenant⟩

theorem envelope_accepted : verifier.Accepts envelope now true where
  protocol := rfl
  domain := rfl
  policy := rfl
  chain := chain_accepted
  unexpired := .inl rfl
  rootTrusted := rfl
  rootAuthorized := rfl
  edgeTrusted := fun _ _ _ _ => rfl
  edgeAuthorized := fun _ _ _ _ => rfl

theorem child_covers : child.Covers request.action request.resource.toSelector now :=
  ⟨by decide, by decide, by decide, by decide⟩

/-- The last reading a clock can give. -/
def lastReading : UtcMoment := ⟨dayMicros * (maxDay + 1) - 1, by decide⟩

end Sample

open Sample in
/-- The chain's root covers the request its leaf covers. -/
theorem attenuation_sample :
    root.tenantId = child.tenantId ∧ root.audience = child.audience ∧
      root.Covers request.action request.resource.toSelector now := by
  obtain ⟨-, hall⟩ := attenuation.1 policy now [root, child] child chain_accepted rfl
  obtain ⟨htenant, haudience, hcovers⟩ := hall root (by simp)
  exact ⟨htenant, haudience, hcovers _ _ _ child_covers⟩

open Sample in
/-- A member without a role is allowed through the capability. -/
theorem authorizer_decides_sample :
    ∃ d, authorizer.evaluate request (snapshot now) now (some (bob [] (by decide) (by simp)))
      [some envelope] = .ok d ∧ d.outcome = .allow := by
  refine ((authorizer_decides authorizer request (snapshot now) now _).1 _).mpr
    ⟨by decide, _, rfl, ?_, .inr ⟨envelope, by simp, ?_⟩⟩
  · exact ⟨rfl, rfl, rfl, rfl, rfl, by decide, by decide, by decide, rfl⟩
  · exact ⟨envelope_accepted, rfl, rfl, by decide, by decide, by decide⟩

open Sample in
/-- At the last reading of the clock everything agrees, the snapshot is fresh
and a role grants the request, but adding the skew raises. -/
theorem last_reading_raises :
    request.resource.tenantId = request.tenantId ∧
      (bob [viewer] (by decide) (by decide)).memberId = request.subjectId ∧
      (bob [viewer] (by decide) (by decide)).tenantId = request.tenantId ∧
      (bob [viewer] (by decide) (by decide)).status = .active ∧
      (snapshot lastReading).tenantId = request.tenantId ∧
      (snapshot lastReading).capturedAt.micros = lastReading.micros ∧
      authorizer.revisionGuard request.tenantId (snapshot lastReading).revision
        (snapshot lastReading).stateDigest = .accepted ∧
      authorizer.bindingGrants request viewer = true ∧
      authorizer.evaluate request (snapshot lastReading) lastReading
          (some (bob [viewer] (by decide) (by decide))) [] =
        .error ⟨.overflowError, "date value out of range"⟩ := by
  refine ⟨rfl, rfl, rfl, rfl, rfl, rfl, rfl, by decide, ?_⟩
  have hlatest : addDelta lastReading authorizer.maxClockSkew =
      .error ⟨.overflowError, "date value out of range"⟩ := by
    have hbeyond : ¬InRange (lastReading.micros + authorizer.maxClockSkew) := by
      simp only [InRange, lastReading, authorizer, dayMicros, maxDay]
      omega
    rw [addDelta, if_neg hbeyond]
  have hsnapshot : authorizer.validateRevocationSnapshot request (snapshot lastReading) lastReading =
      .error ⟨.overflowError, "date value out of range"⟩ := by
    unfold TenantAuthorizer.validateRevocationSnapshot
    rw [if_neg (by decide), hlatest]
    rfl
  unfold TenantAuthorizer.evaluate TenantAuthorizer.screen
  rw [if_neg (by decide), if_neg (by decide), hsnapshot]
  rfl

end QuantumEntanglement.Tenancy
