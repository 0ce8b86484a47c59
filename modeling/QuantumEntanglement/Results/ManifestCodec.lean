import QuantumEntanglement.Results.Manifest

/-
  The result manifest codec — a manifest, its dict and its bytes

  A manifest is written as a dict with its metadata thawed, read back from a
  dict with exactly its fields, and hashed over the canonical JSON of that
  dict. Every one of these runs the constructor again, on the frozen metadata
  or on what was read.

  What is proved:
    1. `toDict_runs`, `canonicalBytes_runs`, `snapshot_runs` — checking an
       accepted manifest again succeeds and gives the same manifest.
    2. `fromDict_runs` — a dict that is equal to an accepted manifest's as JSON
       is accepted, and `fromDict_ok` — a dict that is accepted is equal, as
       JSON, to the dict of what it was read as.
    3. `manifest_codec_laws` — the laws of the codec.
    4. `frozen_wire_differs` — a dict with frozen metadata is accepted too, and
       then Python's `==` tells it from the dict that is written.
-/

namespace QuantumEntanglement.Results

open PyJson PyHeap PyText Transaction Checked

section Codec

variable (nfc : String → String) (spare : Nat)

/-- `ScopedInvocationResultManifestV2.to_dict`. -/
def toDict (m : ScopedInvocationResultManifestV2 Obj) : Txn Heap ResultError Obj := do
  let checked ← manifestV2 nfc spare m.raw
  wireDict nfc spare checked

/-- The texts and numbers as the dict has them. -/
def rawIdentity (d : PyDict) : Except ResultError (ManifestIdentity Obj Obj) := do
  let schemaVersion ← member d "schemaVersion"
  let tenantId ← member d "tenantId"
  let workspaceId ← member d "workspaceId"
  let invocationId ← member d "invocationId"
  let sessionId ← member d "sessionId"
  let planId ← member d "planId"
  let taskId ← member d "taskId"
  let agentId ← member d "agentId"
  let jobIdempotencyKey ← member d "jobIdempotencyKey"
  let taskRevision ← member d "taskRevision"
  let correlationId ← member d "correlationId"
  let causationId ← member d "causationId"
  let runtimeRevision ← member d "runtimeRevision"
  let executionManifestDigest ← member d "executionManifestDigest"
  let actionReceiptSetDigest ← member d "actionReceiptSetDigest"
  let resultRef ← member d "resultRef"
  let narration ← member d "narration"
  .ok { schemaVersion, tenantId, workspaceId, invocationId, sessionId, planId, taskId, agentId,
        jobIdempotencyKey, taskRevision, correlationId, causationId, runtimeRevision,
        executionManifestDigest, actionReceiptSetDigest, resultRef, narration }

/-- The items of a plain list. -/
def listItems (value : Obj) : Txn Heap ResultError (List Obj) := do
  match (← Txn.query (fun h => shapeOf plainView h value)) with
  | some (.list items) => pure items
  | _ => Txn.raise (.typeError "artifacts wire value must be a plain list")

/-- `ScopedInvocationResultManifestV2.from_dict`. -/
def fromDict (value : Obj) : Txn Heap ResultError (ScopedInvocationResultManifestV2 Obj) := do
  let d ← exactDict value manifestFields "scoped invocation result manifest"
  let rawArtifacts ← Txn.lift (member d "artifacts")
  let items ← listItems rawArtifacts
  let identity ← Txn.lift (rawIdentity d)
  let rawClass ← Txn.lift (member d "effectClass")
  let effectClass ← Txn.lift (effectClass rawClass)
  let metadata ← Txn.lift (member d "metadata")
  let primaryArtifactId ← Txn.lift (member d "primaryArtifactId")
  let artifacts ← Txn.forEach (artifactFromDict nfc) items
  manifestV2 nfc spare { identity with effectClass, metadata, primaryArtifactId, artifacts }

/-- `ScopedInvocationResultManifestV2.canonical_bytes`. -/
def canonicalBytes (m : ScopedInvocationResultManifestV2 Obj) : Txn Heap ResultError ByteArray := do
  let wire ← toDict nfc spare m
  let encoded ← canonicalJsonBytes spare wire
  Txn.ensure (encoded.size ≤ maxManifestBytes)
    (.valueError "result manifest exceeds its canonical byte limit")
  pure encoded

/-- SHA-256 over a domain and the bytes. -/
def domainDigest (domain : String) (bytes : ByteArray) : String :=
  Sha256.hexDigestBytes (Sha256.utf8 domain ++ bytes.toList.map UInt8.toNat)

/-- `SCOPED_INVOCATION_RESULT_MANIFEST_DOMAIN`. -/
def manifestDomain : String := "quantum-entanglement.invocation-result-manifest/2\n"

/-- `ScopedInvocationResultManifestV2.canonical_digest`. -/
def canonicalDigest (m : ScopedInvocationResultManifestV2 Obj) : Txn Heap ResultError String := do
  let encoded ← canonicalBytes nfc spare m
  pure (domainDigest manifestDomain encoded)

/-- The snapshots of the descriptors, each made anew. -/
def descriptorSnapshots : List ScopedInvocationResultArtifactV2 →
    Except ResultError (List ScopedInvocationResultArtifactV2)
  | [] => .ok []
  | item :: rest => do
    let snapshot ← artifactV2 nfc item.raw
    let snapshots ← descriptorSnapshots rest
    .ok (snapshot :: snapshots)

/-- `_result_manifest_snapshot`. -/
def resultManifestSnapshot (m : ScopedInvocationResultManifestV2 Obj) :
    Txn Heap ResultError (ScopedInvocationResultManifestV2 Obj) := do
  Txn.ensure (m.artifacts.length ≤ maxArtifacts)
    (.valueError "result manifest artifacts must contain at most 256 descriptors")
  let artifacts ← Txn.lift (descriptorSnapshots nfc m.artifacts)
  manifestV2 nfc spare { m.raw with artifacts }

/-- The manifest is this one: its fields, and a frozen copy of the metadata. -/
def Carries (h : Heap) (m : ScopedInvocationResultManifestV2 Obj)
    (mv : ScopedInvocationResultManifestV2 Value) : Prop :=
  m = mv.withMetadata m.metadata ∧ Holds frozenView (fun _ => True) h m.metadata mv.metadata

variable {nfc : String → String} {h h' : Heap} {m : ScopedInvocationResultManifestV2 Obj}
  {mv : ScopedInvocationResultManifestV2 Value}

/-! ## Checking an accepted manifest again -/

/-- The constructor over an accepted manifest makes it anew. -/
theorem recheck_runs (hm : mv.Valid nfc) (hc : Carries h m mv) :
    ∃ m' h', manifestV2 nfc spare m.raw h = (.ok m', h') ∧ h <+: h' ∧ Carries h' m' mv := by
  obtain ⟨hfields, hmetadata⟩ := hc
  obtain ⟨frozen, h', hrun, hp, hfrozen⟩ :=
    manifestV2_runs spare (o := m.metadata) hm (.inr hmetadata)
  rw [← hfields] at hrun
  exact ⟨mv.withMetadata frozen, h', hrun, hp, rfl, hfrozen.mono (fun _ _ => trivial)⟩

theorem Carries.artifacts (hc : Carries h m mv) : m.artifacts = mv.artifacts := by
  rw [hc.1]
  rfl

theorem Carries.wire (hc : Carries h m mv) : (m.withMetadata mv.metadata).wire = mv.wire := by
  rw [hc.1]
  rfl

/-- **An accepted manifest is written as a new dict.** -/
theorem toDict_runs (hm : mv.Valid nfc) (hc : Carries h m mv) :
    ∃ o h', toDict nfc spare m h = (.ok o, h') ∧ h <+: h' ∧
      Holds plainView (h.length ≤ ·) h' o mv.wire := by
  obtain ⟨m', h₁, hcheck, hp₁, hc'⟩ := recheck_runs spare hm hc
  have hsound := hm.sound
  obtain ⟨o, h₂, hwire, hland⟩ := wireDict_runs spare hc'.2 hsound.metadata.object
    hsound.metadata.depth (fun a ha => (hsound.artifacts a (hc'.artifacts ▸ ha)).1)
  have hp₂ : h₁ <+: h₂ := hland.grows
  refine ⟨o, h₂, ?_, hp₁.trans hp₂, ?_⟩
  · rw [toDict, Txn.bind_ok]
    exact ⟨m', h₁, hcheck, hwire⟩
  · rw [← hc'.wire]
    exact hland.holds.mono (fun _ hid => Nat.le_trans hp₁.length_le hid)

/-- **Its bytes are the canonical text of the dict.** -/
theorem canonicalBytes_runs (hm : mv.Valid nfc) (hc : Carries h m mv) :
    ∃ h', canonicalBytes nfc spare m h = (.ok (dumps mv.wire).toUTF8, h') := by
  obtain ⟨o, h₁, hdict, -, ho⟩ := toDict_runs spare hm hc
  refine ⟨h₁, ?_⟩
  simp only [canonicalBytes, Txn.bind_ok, Txn.ensure_ok, Txn.pure_ok]
  exact ⟨o, h₁, hdict, _, h₁, canonicalJsonBytes_runs spare ho (depthOf_wire hm.sound.metadata.depth),
    (), h₁, ⟨hm.bytes, rfl⟩, rfl, rfl⟩

theorem canonicalDigest_runs (hm : mv.Valid nfc) (hc : Carries h m mv) :
    ∃ h', canonicalDigest nfc spare m h =
      (.ok (domainDigest manifestDomain (dumps mv.wire).toUTF8), h') := by
  obtain ⟨h', hbytes⟩ := canonicalBytes_runs spare hm hc
  refine ⟨h', ?_⟩
  rw [canonicalDigest, Txn.bind_ok]
  exact ⟨_, h', hbytes, rfl⟩

theorem descriptorSnapshots_runs {items : List ScopedInvocationResultArtifactV2}
    (hall : ∀ a ∈ items, a.Valid nfc) : descriptorSnapshots nfc items = .ok items := by
  induction items with
  | nil => rfl
  | cons item rest ih =>
    obtain ⟨hitem, hrest⟩ := List.forall_mem_cons.mp hall
    simp only [descriptorSnapshots, except_bind_ok, artifactV2_ok]
    exact ⟨item, ⟨rfl, hitem⟩, rest, ih hrest, rfl⟩

/-- **Its snapshot is the manifest again.** -/
theorem snapshot_runs (hm : mv.Valid nfc) (hc : Carries h m mv) :
    ∃ m' h', resultManifestSnapshot nfc spare m h = (.ok m', h') ∧ Carries h' m' mv := by
  obtain ⟨m', h', hcheck, -, hc'⟩ := recheck_runs spare hm hc
  have hsound := hm.sound
  have hartifacts := hc.artifacts
  refine ⟨m', h', ?_, hc'⟩
  simp only [resultManifestSnapshot, Txn.bind_ok, Txn.ensure_ok, Txn.lift_ok]
  refine ⟨(), h, ⟨?_, rfl⟩, m.artifacts, h, ⟨?_, rfl⟩, hcheck⟩
  · rw [hartifacts]
    exact hsound.artifactCount
  · apply descriptorSnapshots_runs
    rw [hartifacts]
    exact fun a ha => (hsound.artifacts a ha).1

/-! ## Reading the fields -/

theorem rawIdentity_ok {d : PyDict} {raw : ManifestIdentity Obj Obj} :
    rawIdentity d = .ok raw ↔
      d.get? "schemaVersion" = some raw.schemaVersion ∧ d.get? "tenantId" = some raw.tenantId ∧
      d.get? "workspaceId" = some raw.workspaceId ∧
      d.get? "invocationId" = some raw.invocationId ∧ d.get? "sessionId" = some raw.sessionId ∧
      d.get? "planId" = some raw.planId ∧ d.get? "taskId" = some raw.taskId ∧
      d.get? "agentId" = some raw.agentId ∧
      d.get? "jobIdempotencyKey" = some raw.jobIdempotencyKey ∧
      d.get? "taskRevision" = some raw.taskRevision ∧
      d.get? "correlationId" = some raw.correlationId ∧
      d.get? "causationId" = some raw.causationId ∧
      d.get? "runtimeRevision" = some raw.runtimeRevision ∧
      d.get? "executionManifestDigest" = some raw.executionManifestDigest ∧
      d.get? "actionReceiptSetDigest" = some raw.actionReceiptSetDigest ∧
      d.get? "resultRef" = some raw.resultRef ∧ d.get? "narration" = some raw.narration := by
  simp only [rawIdentity, except_bind_ok, member_ok, Except.ok.injEq]
  constructor
  · intro h
    obtain ⟨_, h₁, _, h₂, _, h₃, _, h₄, _, h₅, _, h₆, _, h₇, _, h₈, _, h₉, _, h₁₀, _, h₁₁, _, h₁₂, _,
      h₁₃, _, h₁₄, _, h₁₅, _, h₁₆, _, h₁₇, rfl⟩ := h
    exact ⟨h₁, h₂, h₃, h₄, h₅, h₆, h₇, h₈, h₉, h₁₀, h₁₁, h₁₂, h₁₃, h₁₄, h₁₅, h₁₆, h₁₇⟩
  · intro h
    obtain ⟨h₁, h₂, h₃, h₄, h₅, h₆, h₇, h₈, h₉, h₁₀, h₁₁, h₁₂, h₁₃, h₁₄, h₁₅, h₁₆, h₁₇⟩ := h
    exact ⟨_, h₁, _, h₂, _, h₃, _, h₄, _, h₅, _, h₆, _, h₇, _, h₈, _, h₉, _, h₁₀, _, h₁₁, _, h₁₂, _,
      h₁₃, _, h₁₄, _, h₁₅, _, h₁₆, _, h₁₇, rfl⟩

theorem listItems_ok {value : Obj} {items : List Obj} :
    listItems value h = (.ok items, h') ↔
      shapeOf plainView h value = some (.list items) ∧ h = h' := by
  rw [listItems, Txn.bind_ok]
  constructor
  · intro hrun
    obtain ⟨_, _, hread, hrun⟩ := hrun
    obtain ⟨rfl, rfl⟩ := Txn.query_ok.mp hread
    cases hshape : shapeOf plainView h value with
    | none =>
      rw [hshape] at hrun
      cases hrun
    | some shape =>
      rw [hshape] at hrun
      cases shape with
      | list items' =>
        obtain ⟨rfl, rfl⟩ := Txn.pure_ok.mp hrun
        exact ⟨rfl, rfl⟩
      | tuple _ => cases hrun
      | dict _ => cases hrun
  · intro hread
    obtain ⟨hshape, rfl⟩ := hread
    refine ⟨_, h, Txn.query_ok.mpr ⟨rfl, rfl⟩, ?_⟩
    rw [hshape]
    rfl

theorem fields_nodup : manifestFields.Nodup := by decide

/-- Items read as descriptors are trees equal to theirs. -/
theorem readArtifacts_ok : ∀ {items : List Obj} {artifacts : List ScopedInvocationResultArtifactV2}
    {h h' : Heap}, Txn.forEach (artifactFromDict nfc) items h = (.ok artifacts, h') →
    h = h' ∧ ∃ trees, HoldsAll plainView (fun _ => True) h items trees ∧
      normalizeItems trees = normalizeItems (artifacts.map ArtifactOf.wire)
  | [], artifacts, h, h', hrun => by
    obtain ⟨rfl, rfl⟩ := Txn.forEach_nil_ok.mp hrun
    exact ⟨rfl, [], rfl, rfl⟩
  | item :: items, artifacts, h, h', hrun => by
    obtain ⟨a, h₁, rest, hitem, hrest, rfl⟩ := Txn.forEach_cons_ok.mp hrun
    obtain ⟨rfl, -, pairs, hv, hperm⟩ := artifactFromDict_ok hitem
    obtain ⟨rfl, trees, hall, hnormal⟩ := readArtifacts_ok hrest
    refine ⟨rfl, .dict pairs :: trees, ⟨item, items, rfl, hv, hall⟩, ?_⟩
    rw [List.map_cons, normalizeItems, normalizeItems, hnormal,
      normalize_perm hperm (Holds.tidy _ _ hv)]
    rfl

/-- Items that hold trees equal to descriptors' are read as these. -/
theorem readArtifacts_runs {own : Nat → Prop} : ∀ {trees : List Value} {items : List Obj}
    {artifacts : List ScopedInvocationResultArtifactV2}, (∀ a ∈ artifacts, a.Valid nfc) →
    HoldsAll plainView own h items trees →
    normalizeItems trees = normalizeItems (artifacts.map ArtifactOf.wire) →
    Txn.forEach (artifactFromDict nfc) items h = (.ok artifacts, h)
  | [], items, artifacts, _, hall, hnormal => by
    cases artifacts with
    | nil =>
      rw [HoldsAll] at hall
      subst hall
      rfl
    | cons _ _ => cases hnormal
  | t :: trees, items, artifacts, hvalid, hall, hnormal => by
    cases artifacts with
    | nil => cases hnormal
    | cons a artifacts =>
      obtain ⟨o, items', rfl, hv, hall⟩ := hall
      obtain ⟨ha, hrest⟩ := List.forall_mem_cons.mp hvalid
      rw [List.map_cons, normalizeItems, normalizeItems, List.cons.injEq] at hnormal
      exact Txn.forEach_cons_ok.mpr ⟨a, h, artifacts, artifactFromDict_runs ha hv hnormal.1,
        readArtifacts_runs hrest hall hnormal.2, rfl⟩

/-! ## What is read -/

/-- Every member of a manifest, from the fields it was made of. -/
theorem leading_member {d : PyDict} {metadata : Obj}
    (hidentity : rawIdentity d = .ok mv.toManifestIdentity.raw)
    (hclass : d.get? "effectClass" = some (.str mv.effectClass.value))
    (hmetadata : d.get? "metadata" = some metadata)
    (hprimary : d.get? "primaryArtifactId" = some (optionalStr mv.primaryArtifactId))
    (hv : Holds sequenceView (fun _ => True) h metadata mv.metadata) :
    ∀ p ∈ mv.leading, ∃ o, d.get? p.1 = some o ∧ Holds sequenceView (fun _ => True) h o p.2 := by
  obtain ⟨h₁, h₂, h₃, h₄, h₅, h₆, h₇, h₈, h₉, h₁₀, h₁₁, h₁₂, h₁₃, h₁₄, h₁₅, h₁₆, h₁₇⟩ :=
    rawIdentity_ok.mp hidentity
  simp only [ManifestOf.leading, List.forall_mem_cons]
  exact ⟨⟨_, h₁, rfl⟩, ⟨_, h₂, rfl⟩, ⟨_, h₃, rfl⟩, ⟨_, h₄, rfl⟩, ⟨_, h₅, rfl⟩, ⟨_, h₆, rfl⟩,
    ⟨_, h₇, rfl⟩, ⟨_, h₈, rfl⟩, ⟨_, h₉, rfl⟩, ⟨_, h₁₀, rfl⟩, ⟨_, h₁₁, rfl⟩, ⟨_, h₁₂, rfl⟩,
    ⟨_, h₁₃, rfl⟩, ⟨_, h₁₄, rfl⟩, ⟨_, hclass, rfl⟩, ⟨_, h₁₅, rfl⟩, ⟨_, h₁₆, rfl⟩, ⟨_, h₁₇, rfl⟩,
    ⟨_, hmetadata, hv⟩, ⟨_, hprimary, holds_optionalStr⟩, fun _ hp => absurd hp List.not_mem_nil⟩

theorem membersWith_congr {mv mv' : ScopedInvocationResultManifestV2 Value} {v w : Value}
    (hleading : List.Forall₂ (fun p q => p.1 = q.1 ∧ PyJson.normalize p.2 = PyJson.normalize q.2)
      mv.leading mv'.leading) (heq : PyJson.normalize v = PyJson.normalize w) :
    PyJson.normalize (.dict (mv.membersWith v)) = PyJson.normalize (.dict (mv'.membersWith w)) :=
  normalize_congr (List.rel_append hleading (.cons ⟨rfl, heq⟩ .nil))

theorem shapeOf_dict {o : Obj} {d : PyDict} (hshape : shapeOf plainView h o = some (.dict d)) :
    ∃ id, o = .ref id := by
  cases o with
  | ref id => exact ⟨id, rfl⟩
  | _ => cases hshape

/-- The fields of a manifest are all alike with another metadata. -/
theorem leading_withMetadata (mv : ScopedInvocationResultManifestV2 Value) {w : Value}
    (heq : PyJson.normalize mv.metadata = PyJson.normalize w) :
    List.Forall₂ (fun p q => p.1 = q.1 ∧ PyJson.normalize p.2 = PyJson.normalize q.2)
      mv.leading (mv.withMetadata w).leading := by
  simp only [ManifestOf.leading, ManifestOf.withMetadata, List.forall₂_cons, true_and, heq,
    List.Forall₂.nil]

theorem leading_self (mv : ScopedInvocationResultManifestV2 Value) :
    List.Forall₂ (fun p q => p.1 = q.1 ∧ PyJson.normalize p.2 = PyJson.normalize q.2)
      mv.leading mv.leading :=
  List.forall₂_same.mpr (fun _ _ => ⟨rfl, rfl⟩)

theorem tidy_wire (hm : mv.Valid nfc) (htidy : Tidy mv.metadata) : Tidy mv.wire := by
  have hartifacts : TidyItems (mv.artifacts.map ArtifactOf.wire) := by
    apply tidyItems_iff.mpr
    intro v hv
    obtain ⟨a, ha, rfl⟩ := List.mem_map.mp hv
    obtain ⟨_, _, -, hland⟩ := artifactToDict_runs (hm.sound.artifacts a ha).1 []
    exact Holds.tidy _ _ hland.holds
  have hprimary : Tidy (optionalStrValue mv.primaryArtifactId) := by
    cases mv.primaryArtifactId <;> trivial
  refine ⟨fields_nodup, tidyPairs_iff.mpr ?_⟩
  simp only [ManifestOf.members, ManifestOf.membersWith, ManifestOf.leading, List.cons_append,
    List.nil_append, List.forall_mem_cons, Tidy, hartifacts, hprimary, htidy, true_and]
  exact fun _ hp => absurd hp List.not_mem_nil

/-- **A dict that is accepted is equal to the manifest's as JSON.** -/
theorem fromDict_ok {o : Obj} (hrun : fromDict nfc spare o h = (.ok m, h')) :
    ∃ mv t, mv.Valid nfc ∧ Carries h' m mv ∧ h <+: h' ∧
      Holds sequenceView (fun _ => True) h' o t ∧
      PyJson.normalize t = PyJson.normalize mv.wire := by
  simp only [fromDict, Txn.bind_ok, exactDict_ok, Txn.lift_ok, listItems_ok, member_ok,
    effectClass_ok] at hrun
  obtain ⟨d, _, ⟨hshape, hfields, rfl⟩, rawArtifacts, _, ⟨hartifacts, rfl⟩, items, _, ⟨hitems, rfl⟩,
    identity, _, ⟨hidentity, rfl⟩, rawClass, _, ⟨hclass, rfl⟩, effectClass, _, ⟨rfl, rfl⟩, metadata,
    _, ⟨hmetadata, rfl⟩, primary, _, ⟨hprimary, rfl⟩, artifacts, _, hread, hmade⟩ := hrun
  obtain ⟨rfl, trees, hall, hnormal⟩ := readArtifacts_ok hread
  obtain ⟨v, hvalid, hraw, hp, hsrc, hfrozen⟩ := manifestV2_ok hmade
  obtain ⟨id, rfl⟩ := shapeOf_dict hshape
  have hfields' := congrArg ManifestOf.toManifestIdentity hraw
  have heffect : effectClass = m.effectClass := congrArg ManifestOf.effectClass hraw
  have hoptional : primary = optionalStr m.primaryArtifactId :=
    congrArg ManifestOf.primaryArtifactId hraw
  have hsame : artifacts = m.artifacts := congrArg ManifestOf.artifacts hraw
  simp only at hfields'
  subst hfields' heffect hoptional hsame
  -- The dict holds the members, its artifacts as the trees that were read.
  have hmember : ∀ p ∈ (m.withMetadata v).membersWith (.list trees), ∃ o, d.get? p.1 = some o ∧
      Holds sequenceView (fun _ => True) h' o p.2 := by
    have hlist : ∃ o, d.get? "artifacts" = some o ∧
        Holds sequenceView (fun _ => True) h' o (.list trees) := by
      refine ⟨rawArtifacts, hartifacts, Holds.widen includes_plainView _ _ (Holds.grow hp ?_)⟩
      cases rawArtifacts with
      | ref id => exact ⟨id, items, rfl, trivial, hitems, hall⟩
      | _ => cases hitems
    have hleading : ∀ p ∈ (m.withMetadata v).leading, ∃ o, d.get? p.1 = some o ∧
        Holds sequenceView (fun _ => True) h' o p.2 :=
      leading_member hidentity hclass hmetadata hprimary hsrc
    intro p hmem
    rcases List.mem_append.mp hmem with hmem | hmem
    · exact hleading p hmem
    · rw [List.mem_singleton.mp hmem]
      exact hlist
  obtain ⟨pairs, hpairs, hperm⟩ := @holds_of_fields sequenceView (fun _ => True) h' d
    ((m.withMetadata v).membersWith (.list trees)) fields_nodup hfields (by
      intro p hmem o hget
      obtain ⟨o', hget', ho⟩ := hmember p hmem
      rw [hget] at hget'
      cases hget'
      exact ho)
  have hholds : Holds sequenceView (fun _ => True) h' (.ref id) (.dict pairs) :=
    ⟨id, d, rfl, trivial, includes_plainView.shapeAt (shapeAt_of_growth hp hshape), hpairs⟩
  refine ⟨m.withMetadata v, .dict pairs, hvalid, ⟨rfl, hfrozen.mono (fun _ _ => trivial)⟩, hp,
    hholds, ?_⟩
  rw [normalize_perm hperm (Holds.tidy _ _ hholds)]
  apply membersWith_congr (leading_self _)
  rw [PyJson.normalize, PyJson.normalize, hnormal]
  rfl

/-- Metadata equal to metadata within the bounds is within the bounds. -/
theorem GoodMetadata.of_normalize {own : Nat → Prop} {o : Obj} {v w : Value}
    (hg : GoodMetadata nfc v) (hv : Tidy v) (hw : Holds plainView own h o w)
    (heq : PyJson.normalize w = PyJson.normalize v) : GoodMetadata nfc w where
  object := by
    obtain ⟨pairs, rfl⟩ := hg.object
    obtain ⟨pairs', rfl, -⟩ := member_of_normalize (Holds.tidy _ _ hw) hv heq
    exact ⟨pairs', rfl⟩
  allowed := by
    apply permitted_of_normalize w (Holds.tidy _ _ hw) (isJson_of_holds _ _ hw)
    rw [heq]
    exact permitted_normalize v hv hg.allowed
  depth := by
    rw [← depthOf_normalize w (Holds.tidy _ _ hw), heq, depthOf_normalize v hv]
    exact hg.depth
  nodes := by
    rw [← nodeCount_normalize w (Holds.tidy _ _ hw), heq, nodeCount_normalize v hv]
    exact hg.nodes
  bytes := by
    rw [dumps, heq]
    exact hg.bytes

theorem dumps_congr {v w : Value} (heq : PyJson.normalize v = PyJson.normalize w) :
    dumps v = dumps w := by rw [dumps, dumps, heq]

/-- Another spelling of the metadata leaves a manifest valid. -/
theorem ManifestOf.Valid.withMetadata (hm : mv.Valid nfc) {w : Value} (hw : GoodMetadata nfc w)
    (heq : PyJson.normalize mv.metadata = PyJson.normalize w) :
    (mv.withMetadata w).Valid nfc := by
  obtain ⟨hs, hbytes⟩ := hm
  refine ⟨⟨hs.identity, hw, hs.primaryArtifactId, hs.causationId, hs.effect, hs.artifactCount,
    hs.artifacts, hs.distinct, hs.primaryNamed, hs.resultRef⟩, ?_⟩
  have hdumps : dumps mv.wire = dumps (mv.withMetadata w).wire :=
    dumps_congr (membersWith_congr (leading_withMetadata mv heq) rfl)
  rw [← hdumps]
  exact hbytes

/-- **A dict that is equal to an accepted manifest's as JSON is accepted**, and
makes the manifest with the dict's own metadata. -/
theorem fromDict_runs {o : Obj} {t : Value} (hm : mv.Valid nfc) (hmv : Tidy mv.metadata)
    (ho : Holds plainView (fun _ => True) h o t)
    (heq : PyJson.normalize t = PyJson.normalize mv.wire) :
    ∃ pairs w m h', t = .dict pairs ∧ ("metadata", w) ∈ pairs ∧
      PyJson.normalize w = PyJson.normalize mv.metadata ∧
      fromDict nfc spare o h = (.ok m, h') ∧ (mv.withMetadata w).Valid nfc ∧
      Carries h' m (mv.withMetadata w) := by
  obtain ⟨pairs, rfl, hkeys, hmembers⟩ :=
    member_of_normalize (Holds.tidy _ _ ho) (tidy_wire hm hmv) heq
  obtain ⟨id, d, rfl, -, hs, hall⟩ := ho
  have hget : ∀ {name : String} {v : Value} {o : Obj}, (name, v) ∈ mv.members →
      scalar o = some v → d.get? name = some o :=
    fun hmem hscalar => get?_scalar hall (hmembers _ hmem) hscalar
  have hidentity : rawIdentity d = .ok mv.toManifestIdentity.raw := by
    apply rawIdentity_ok.mpr
    refine ⟨hget ?_ rfl, hget ?_ rfl, hget ?_ rfl, hget ?_ rfl, hget ?_ rfl, hget ?_ rfl,
      hget ?_ rfl, hget ?_ rfl, hget ?_ rfl, hget ?_ rfl, hget ?_ rfl, hget ?_ rfl, hget ?_ rfl,
      hget ?_ rfl, hget ?_ rfl, hget ?_ rfl, hget ?_ rfl⟩ <;>
      simp [ManifestOf.members, ManifestOf.membersWith, ManifestOf.leading]
  have hclass : d.get? "effectClass" = some (.str mv.effectClass.value) :=
    hget (by simp [ManifestOf.members, ManifestOf.membersWith, ManifestOf.leading]) rfl
  have hprimary : d.get? "primaryArtifactId" = some (optionalStr mv.primaryArtifactId) :=
    hget (by simp [ManifestOf.members, ManifestOf.membersWith, ManifestOf.leading])
      (scalar_optionalStr _)
  obtain ⟨w, hw, hwnormal⟩ := hmembers ("metadata", mv.metadata)
    (by simp [ManifestOf.members, ManifestOf.membersWith, ManifestOf.leading])
  obtain ⟨metadata, hmetadata, hmeta⟩ := get?_of_holds hall hw
  obtain ⟨ts, hts, htsnormal⟩ := hmembers ("artifacts", .list (mv.artifacts.map ArtifactOf.wire))
    (by simp [ManifestOf.members, ManifestOf.membersWith])
  obtain ⟨artifacts, hartifacts, hlist⟩ := get?_of_holds hall hts
  have hgood := hm.sound.metadata.of_normalize hmv hmeta hwnormal
  have hvalid := hm.withMetadata hgood hwnormal.symm
  obtain ⟨frozen, h', hmade, -, hfrozen⟩ := manifestV2_runs spare (o := metadata) hvalid (.inl hmeta)
  refine ⟨pairs, w, mv.withMetadata frozen, h', rfl, hw, hwnormal, ?_, hvalid, rfl,
    hfrozen.mono (fun _ _ => trivial)⟩
  have hitems : ∃ items, shapeOf plainView h artifacts = some (.list items) ∧
      Txn.forEach (artifactFromDict nfc) items h = (.ok mv.artifacts, h) := by
    have hjson := isJson_of_holds _ _ hlist
    cases ts with
    | list trees =>
      obtain ⟨id, slots, rfl, -, hshape, hslots⟩ := hlist
      rw [PyJson.normalize, PyJson.normalize, Value.list.injEq] at htsnormal
      exact ⟨slots, hshape, readArtifacts_runs (fun a ha => (hm.sound.artifacts a ha).1) hslots
        htsnormal⟩
    | tuple _ => exact hjson.elim
    | _ => cases htsnormal
  obtain ⟨items, hshape, hread⟩ := hitems
  simp only [fromDict, Txn.bind_ok, exactDict_ok, Txn.lift_ok, listItems_ok, member_ok,
    effectClass_ok]
  exact ⟨d, h, ⟨hs, hasFields_of_holds hall hkeys, rfl⟩, artifacts, h, ⟨hartifacts, rfl⟩, items, h,
    ⟨hshape, rfl⟩, _, h, ⟨hidentity, rfl⟩, _, h, ⟨hclass, rfl⟩, mv.effectClass, h, ⟨rfl, rfl⟩,
    metadata, h, ⟨hmetadata, rfl⟩, _, h, ⟨hprimary, rfl⟩, mv.artifacts, h, hread, hmade⟩

/-- The manifest that an accepted one is, is valid. -/
theorem valid_of_carries {raw : RawManifest} {g : Heap} {spare : Nat}
    (hrun : manifestV2 nfc spare raw g = (.ok m, h)) (hc : Carries h m mv) : mv.Valid nfc := by
  obtain ⟨v, hvalid, -, -, -, hfrozen⟩ := manifestV2_ok hrun
  obtain ⟨hfields, hmetadata⟩ := hc
  have hsame := Holds.unique _ _ _ hmetadata hfrozen
  rw [hfields, ← hsame] at hvalid
  exact hvalid

/-! ## The laws of the codec -/

/-- **The laws of the manifest codec.** What the constructor accepts is a
manifest `mv` whose metadata is the value that was supplied. Whatever is written
to the caller's containers afterwards, the frozen metadata thaws to that value,
the dict of the manifest reads as the manifest, every check of it again succeeds
and gives the same manifest, its bytes and its digest are those of the canonical
text, and a dict equal to its dict as JSON is accepted and has the same bytes. A
dict the decoder accepts is equal, as JSON, to the one that is written for it.
Two accepted manifests have the same bytes exactly if their dicts are equal as
JSON. -/
theorem manifest_codec_laws (nfc : String → String) (spare : Nat) :
    (∀ raw h m h', WellFormed h → raw.metadata.within (· < h.length) →
      manifestV2 nfc spare raw h = (.ok m, h') →
      ∃ mv, raw = (mv.withMetadata raw.metadata).raw ∧
        Holds sequenceView (fun _ => True) h raw.metadata mv.metadata ∧ h <+: h' ∧
        ∀ h₁, Keeps frozenView (h.length ≤ ·) h' h₁ → Carries h₁ m mv ∧
          (∃ o h₂, thawJson spare m.metadata h₁ = (.ok o, h₂) ∧
            Holds plainView (h₁.length ≤ ·) h₂ o mv.metadata) ∧
          (∃ o h₂ m₂ h₃, toDict nfc spare m h₁ = (.ok o, h₂) ∧
            Holds plainView (h₁.length ≤ ·) h₂ o mv.wire ∧
            fromDict nfc spare o h₂ = (.ok m₂, h₃) ∧ Carries h₃ m₂ mv) ∧
          (∃ m₂ h₂, resultManifestSnapshot nfc spare m h₁ = (.ok m₂, h₂) ∧ Carries h₂ m₂ mv) ∧
          (∃ h₂, canonicalBytes nfc spare m h₁ = (.ok (dumps mv.wire).toUTF8, h₂)) ∧
          (∃ h₂, canonicalDigest nfc spare m h₁ =
            (.ok (domainDigest manifestDomain (dumps mv.wire).toUTF8), h₂)) ∧
          (∀ o t, Holds plainView (fun _ => True) h₁ o t → typedEq mv.wire t = true →
            ∃ m₂ h₂ h₃, fromDict nfc spare o h₁ = (.ok m₂, h₂) ∧
              canonicalBytes nfc spare m₂ h₂ = (.ok (dumps mv.wire).toUTF8, h₃))) ∧
    (∀ o h m h', WellFormed h → o.within (· < h.length) →
      fromDict nfc spare o h = (.ok m, h') →
      ∃ t o' h'' w, Holds sequenceView (fun _ => True) h o t ∧
        toDict nfc spare m h' = (.ok o', h'') ∧ Holds plainView (h'.length ≤ ·) h'' o' w ∧
        typedEq w t = true) ∧
    (∀ raw₁ h₁ m₁ h₁' mv₁ raw₂ h₂ m₂ h₂' mv₂, manifestV2 nfc spare raw₁ h₁ = (.ok m₁, h₁') →
      Carries h₁' m₁ mv₁ → manifestV2 nfc spare raw₂ h₂ = (.ok m₂, h₂') → Carries h₂' m₂ mv₂ →
      ∃ b₁ g₁ b₂ g₂, canonicalBytes nfc spare m₁ h₁' = (.ok b₁, g₁) ∧
        canonicalBytes nfc spare m₂ h₂' = (.ok b₂, g₂) ∧
        (b₁ = b₂ ↔ typedEq mv₁.wire mv₂.wire = true)) := by
  refine ⟨?_, ?_, ?_⟩
  · intro raw h m h' hw hin hrun
    obtain ⟨v, hvalid, hraw, hp, hsrc, hfrozen⟩ := manifestV2_ok hrun
    have hsupplied := hsrc.restrict faithful_sequenceView hw hp hin
    have htidy := Holds.tidy _ _ hfrozen
    refine ⟨m.withMetadata v, hraw, hsupplied, hp, ?_⟩
    intro h₁ hkeeps
    have hlater : Holds frozenView (h.length ≤ ·) h₁ m.metadata v :=
      Holds.keep (fun _ hid => hid) hkeeps v m.metadata hfrozen
    have hcarries : Carries h₁ m (m.withMetadata v) := ⟨rfl, hlater.mono (fun _ _ => trivial)⟩
    have hwire := tidy_wire hvalid htidy
    refine ⟨hcarries, ?_, ?_, snapshot_runs spare hvalid hcarries,
      canonicalBytes_runs spare hvalid hcarries, canonicalDigest_runs spare hvalid hcarries, ?_⟩
    · obtain ⟨o, h₂, hthaw, hland⟩ := thawJson_runs spare hlater hvalid.sound.metadata.depth
      exact ⟨o, h₂, hthaw, hland.holds⟩
    · obtain ⟨o, h₂, hwrite, -, ho⟩ := toDict_runs spare hvalid hcarries
      obtain ⟨pairs, w, m₂, h₃, hpairs, hmem, -, hread, -, hc⟩ :=
        fromDict_runs spare hvalid htidy (ho.mono (fun _ _ => trivial)) rfl
      have hself : w = v := by
        cases hpairs
        have hkeys : ((m.withMetadata v).members.map Prod.fst).Nodup := fields_nodup
        have hlookup := lookup_of_mem_nodup hkeys hmem
        have hown : ("metadata", v) ∈ (m.withMetadata v).members := by
          simp [ManifestOf.members, ManifestOf.membersWith, ManifestOf.leading,
            ManifestOf.withMetadata]
        rw [lookup_of_mem_nodup hkeys hown] at hlookup
        exact (Option.some.inj hlookup).symm
      subst hself
      exact ⟨o, h₂, m₂, h₃, hwrite, ho, hread, hc⟩
    · intro o t ho heq
      have hnormal := (typedEq_iff _ _ hwire (Holds.tidy _ _ ho)).mp heq
      obtain ⟨pairs, w, m₂, h₂, -, -, hwnormal, hread, hvalid₂, hc⟩ :=
        fromDict_runs spare hvalid htidy ho hnormal.symm
      obtain ⟨h₃, hbytes⟩ := canonicalBytes_runs spare hvalid₂ hc
      have hdumps : dumps (m.withMetadata v).wire = dumps ((m.withMetadata v).withMetadata w).wire :=
        dumps_congr (membersWith_congr (leading_withMetadata _ hwnormal.symm) rfl)
      rw [← hdumps] at hbytes
      exact ⟨m₂, h₂, h₃, hread, hbytes⟩
  · intro o h m h' hw hin hrun
    obtain ⟨mv, t, hvalid, hc, hp, ht, heq⟩ := fromDict_ok spare hrun
    obtain ⟨o', h'', hwrite, -, ho'⟩ := toDict_runs spare hvalid hc
    refine ⟨t, o', h'', mv.wire, ht.restrict faithful_sequenceView hw hp hin, hwrite, ho', ?_⟩
    exact (typedEq_iff _ _ (Holds.tidy _ _ ho') (Holds.tidy _ _ ht)).mpr heq.symm
  · intro raw₁ h₁ m₁ h₁' mv₁ raw₂ h₂ m₂ h₂' mv₂ hrun₁ hc₁ hrun₂ hc₂
    have hvalid₁ := valid_of_carries hrun₁ hc₁
    have hvalid₂ := valid_of_carries hrun₂ hc₂
    obtain ⟨g₁, hbytes₁⟩ := canonicalBytes_runs spare hvalid₁ hc₁
    obtain ⟨g₂, hbytes₂⟩ := canonicalBytes_runs spare hvalid₂ hc₂
    refine ⟨_, g₁, _, g₂, hbytes₁, hbytes₂, ?_⟩
    rw [typedEq_iff_dumps (tidy_wire hvalid₁ (Holds.tidy _ _ hc₁.2))
      (tidy_wire hvalid₂ (Holds.tidy _ _ hc₂.2))]
    constructor
    · intro heq
      exact String.toByteArray_inj.mp heq
    · intro heq
      rw [heq]

end Codec

/-! ## A dict with frozen metadata -/

namespace FrozenMetadata

def zeros : String := "0000000000000000000000000000000000000000000000000000000000000000"

/-- A manifest of one task without artifacts. -/
def manifest : ScopedInvocationResultManifestV2 Value where
  schemaVersion := 2
  tenantId := "t"
  workspaceId := "w"
  invocationId := "i"
  sessionId := "s"
  planId := "p"
  taskId := "k"
  agentId := "a"
  jobIdempotencyKey := "j"
  taskRevision := 1
  correlationId := "c"
  causationId := "k"
  runtimeRevision := "r"
  executionManifestDigest := zeros
  actionReceiptSetDigest := zeros
  resultRef := "o"
  narration := ""
  effectClass := .idempotent
  metadata := .dict [("x", .list [.int 1])]
  primaryArtifactId := none
  artifacts := []

/-- A tuple, a proxy that shows it, no artifacts, and the dict of the manifest
with the proxy for its metadata. -/
def heap : Heap :=
  [.tuple [.int 1], .proxy ⟨[(.str "x", .ref 0)], by decide⟩, .list [],
   .dict (PyDict.ofPairs (manifestEntries (manifest.withMetadata (.ref 1)) (.ref 1) (.ref 2)))]

theorem manifest_bytes : (dumps manifest.wire).toUTF8.size ≤ maxManifestBytes := by
  have hsize : (dumps manifest.wire).toUTF8.size =
      ((render (PyJson.normalize manifest.wire)).map Char.utf8Size).sum := utf8Size_ofList _
  rw [hsize]
  decide +kernel

theorem manifest_valid : manifest.Valid id where
  sound :=
    { identity := by constructor <;> decide +kernel
      metadata := ⟨⟨_, rfl⟩, ⟨by decide, ⟨⟨by decide, by decide⟩, trivial⟩, trivial⟩, by decide,
        by decide, by decide⟩
      primaryArtifactId := fun _ hnone => by cases hnone
      causationId := rfl
      effect := by
        have hother : ¬zeros = emptyActionReceiptSetDigest := by decide +kernel
        exact ⟨(fun h => nomatch h), fun h => absurd h hother⟩
      artifactCount := by decide
      artifacts := fun _ ha => absurd ha List.not_mem_nil
      distinct := ⟨List.nodup_nil, List.nodup_nil, List.nodup_nil⟩
      primaryNamed := trivial
      resultRef := List.not_mem_nil }
  bytes := manifest_bytes

theorem accepted : ∃ m h', fromDict id 0 (.ref 3) heap = (.ok m, h') ∧ Carries h' m manifest := by
  have hmeta : Holds frozenView (fun _ => True) heap (.ref 1) manifest.metadata :=
    ⟨1, ⟨[(.str "x", .ref 0)], by decide⟩, rfl, trivial, rfl, .ref 0, [], rfl,
      ⟨0, [.int 1], rfl, trivial, rfl, .int 1, [], rfl, rfl, rfl⟩, rfl⟩
  obtain ⟨frozen, h', hmade, -, hfrozen⟩ :=
    manifestV2_runs 0 (o := .ref 1) manifest_valid (.inr hmeta)
  refine ⟨manifest.withMetadata frozen, h', ?_, rfl, hfrozen.mono (fun _ _ => trivial)⟩
  simp only [fromDict, Txn.bind_ok, exactDict_ok, Txn.lift_ok, listItems_ok, member_ok,
    effectClass_ok]
  exact ⟨_, heap, ⟨rfl, by decide +kernel, rfl⟩, .ref 2, heap, ⟨rfl, rfl⟩, [], heap, ⟨rfl, rfl⟩,
    manifest.toManifestIdentity.raw, heap, ⟨rfl, rfl⟩, _, heap, ⟨rfl, rfl⟩, .idempotent, heap,
    ⟨rfl, rfl⟩, .ref 1, heap, ⟨rfl, rfl⟩, .null, heap, ⟨rfl, rfl⟩, [], heap, rfl, hmade⟩

end FrozenMetadata

/-- **A dict whose metadata is frozen is accepted, and Python's `==` tells it
from the dict that is written**: a tuple came back as a list. -/
theorem frozen_wire_differs : ∃ h o t m h' o' h'' w,
    readTree payloadView h 3 o = some t ∧ fromDict id 0 o h = (.ok m, h') ∧
      toDict id 0 m h' = (.ok o', h'') ∧ Holds plainView (h'.length ≤ ·) h'' o' w ∧
      pyEq w t = false := by
  obtain ⟨m, h', hread, hc⟩ := FrozenMetadata.accepted
  obtain ⟨o', h'', hwrite, -, ho'⟩ := toDict_runs 0 FrozenMetadata.manifest_valid hc
  have htree : (readTree payloadView FrozenMetadata.heap 3 (.ref 3)).any
      (fun t => !pyEq FrozenMetadata.manifest.wire t) = true := by
    decide +kernel
  obtain ⟨t, ht, hdiffers⟩ := (Option.any_eq_true _ _).mp htree
  exact ⟨FrozenMetadata.heap, .ref 3, t, m, h', o', h'', _, ht, hread, hwrite, ho',
    by simpa using hdiffers⟩

end QuantumEntanglement.Results
