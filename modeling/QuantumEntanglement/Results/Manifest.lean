import QuantumEntanglement.Lib.BoundedCopy
import QuantumEntanglement.Results.Descriptors

/-
  The result manifest — its constructor and its dict form

  A manifest names one scoped invocation, what its result is called, a text,
  metadata and up to 256 artifact descriptors. The constructor checks each
  field, takes over a private frozen copy of the metadata and bounds the
  canonical JSON of the whole; the metadata may be a plain dict or, as in a
  manifest that is checked again, a frozen one. Writing a manifest as a dict
  runs the constructor over it again.

  The metadata is an object of a heap here, so sharing, cycles and later writes
  are what they are in Python. `spare` is how many containers deeper than the
  limit Python's recursion reaches before it raises `RecursionError`. Nothing
  else reads the canonical bytes of the metadata that the constructor keeps, so
  they are not a field here.

  What is proved:
    1. `snapshotJsonObject_ok`, `snapshotJsonObject_runs` — which metadata is
       taken over, and that the frozen copy holds it in new cells.
    2. `manifestV2_ok`, `manifestV2_runs` — which arguments make a manifest,
       and what it is made of.
-/

namespace QuantumEntanglement.Results

open PyJson PyHeap PyText Transaction Checked

def maxArtifacts : Nat := 256
def maxManifestBytes : Nat := 1048576
def maxNarrationBytes : Nat := 524288
def maxResultMetadataBytes : Nat := 65536
def maxMetadataDepth : Nat := 64
def maxMetadataNodes : Nat := 10000
def maxMetadataKeyBytes : Nat := 4096
def maxMetadataStringBytes : Nat := 262144

section Metadata

variable (nfc : String → String) (spare : Nat)

/-! ## The snapshot -/

/-- The heap, and the nodes counted so far. -/
structure Walk where
  heap : Heap
  nodes : Nat

def walker : Walker Walk where
  heap := Walk.heap
  nodes := Walk.nodes
  count := fun s => { s with nodes := s.nodes + 1 }
  push := fun cell s => { s with heap := s.heap ++ [cell] }
  heap_count := fun _ => rfl
  nodes_count := fun _ => rfl
  heap_push := fun _ _ => rfl
  nodes_push := fun _ _ => rfl

/-- The check of a scalar. -/
def checkLeaf (label : String) (value : Obj) : Except ResultError Unit :=
  match value with
  | .null => .ok ()
  | .bool _ => .ok ()
  | .float _ => .ok ()
  | .int n => require (minSqliteInteger ≤ n ∧ n ≤ maxSqliteInteger)
      (.valueError (label ++ " integer is outside the signed 64-bit range"))
  | .str s => do
    let _ ← bodyText nfc (.str s) label maxMetadataStringBytes
    .ok ()
  | .surrogates units => do
    let _ ← bodyText nfc (.surrogates units) label maxMetadataStringBytes
    .ok ()
  | .nonFinite => .error (.valueError (label ++ " contains a non-finite number"))
  | .ref _ => .error (.typeError (label ++ " contains a non-JSON value"))
  | .other _ _ => .error (.typeError (label ++ " contains a non-JSON value"))

/-- The check of a key. -/
def checkKey (label : String) (key : Obj) : Except ResultError String := do
  require (isPlainString key = true) (.typeError (label ++ " keys must be plain strings"))
  bodyText nfc key (label ++ " key") maxMetadataKeyBytes

/-- A scalar `checkLeaf` accepts. -/
def FineLeaf : Value → Prop
  | .int n => minSqliteInteger ≤ n ∧ n ≤ maxSqliteInteger
  | .str s => IsBody nfc maxMetadataStringBytes s
  | _ => True

theorem checkLeaf_ok {nfc : String → String} {label : String} {value : Obj} {u : Unit} :
    checkLeaf nfc label value = .ok u ↔ ∃ v, scalar value = some v ∧ FineLeaf nfc v := by
  cases value <;> simp [checkLeaf, scalar, FineLeaf, except_bind_ok, bodyText_ok]

theorem checkKey_ok {nfc : String → String} {label : String} {key : Obj} {k : String} :
    checkKey nfc label key = .ok k ↔ key = .str k ∧ IsBody nfc maxMetadataKeyBytes k := by
  simp only [checkKey, except_bind_ok, require_ok, bodyText_ok]
  constructor
  · intro h
    obtain ⟨_, -, hkey⟩ := h
    exact hkey
  · intro h
    obtain ⟨rfl, hk⟩ := h
    exact ⟨(), rfl, rfl, hk⟩

/-- The rules of `_snapshot_json_value`. -/
def snapshotRules : CopyRules ResultError where
  maximumNodes := maxMetadataNodes
  leaf := checkLeaf nfc
  key := checkKey nfc
  tooMany := fun label => .valueError (label ++ " exceeds its JSON node limit")
  notJson := fun label => .typeError (label ++ " contains a non-JSON value")
  tooDeep := fun label => .valueError (label ++ " exceeds its nesting limit")
  cycle := fun label => .valueError (label ++ " contains a reference cycle")
  changed := fun label => .valueError (label ++ " changed while it was being snapshotted")
  FineLeaf := FineLeaf nfc
  FineKey := IsBody nfc maxMetadataKeyBytes
  leaf_ok := checkLeaf_ok
  key_ok := checkKey_ok

/-- `_snapshot_json_value(value, label, depth=0, active=set(), nodes=[0])`. -/
def snapshotJsonValue (value : Obj) (label : String) : Txn Heap ResultError Obj := fun h =>
  let run := boundedCopy walker (snapshotRules nfc) maxMetadataDepth label [] value ⟨h, 0⟩
  (run.1, run.2.heap)

/-- `_freeze_json`. -/
def freezeJson (value : Obj) : Txn Heap ResultError Obj :=
  rebuild plainView frozenCell .recursion (maxMetadataDepth + spare) value

/-- `_thaw_json`. -/
def thawJson (value : Obj) : Txn Heap ResultError Obj :=
  rebuild frozenView plainCell .recursion (maxMetadataDepth + spare) value

/-- `_canonical_json_bytes`. -/
def canonicalJsonBytes (value : Obj) : Txn Heap ResultError ByteArray := do
  match (← Txn.query (fun h => readTree plainView h (maxMetadataDepth + 1 + spare) value)) with
  | some v => pure (dumps v).toUTF8
  | none => Txn.raise .recursion

def requireDict (message : String) (o : Obj) : Txn Heap ResultError Unit := do
  let plain ← Txn.query (fun h => isDict plainView h o)
  Txn.ensure (plain = true) (.typeError message)

/-- The thawed form of a mapping proxy, if one is allowed. -/
def thawAllowed (allowFrozen : Bool) (value : Obj) : Txn Heap ResultError Obj := do
  let frozen ← Txn.query (fun h => isDict frozenView h value)
  if allowFrozen && frozen then thawJson spare value else pure value

/-- `_snapshot_json_object`. -/
def snapshotJsonObject (value : Obj) (label : String) (allowFrozen : Bool) :
    Txn Heap ResultError (Obj × ByteArray) := do
  let value ← thawAllowed spare allowFrozen value
  requireDict (label ++ " must be a plain dictionary") value
  let copied ← snapshotJsonValue nfc value label
  requireDict (label ++ " must be a JSON object") copied
  let canonical ← canonicalJsonBytes spare copied
  Txn.ensure (canonical.size ≤ maxResultMetadataBytes)
    (.valueError (label ++ " exceeds its canonical byte limit"))
  let frozen ← freezeJson spare copied
  pure (frozen, canonical)

/-- Metadata within every bound. -/
structure GoodMetadata (v : Value) : Prop where
  object : ∃ pairs, v = .dict pairs
  allowed : Permitted (FineLeaf nfc) (IsBody nfc maxMetadataKeyBytes) v
  depth : depthOf v ≤ maxMetadataDepth
  nodes : nodeCount v ≤ maxMetadataNodes
  bytes : (dumps v).toUTF8.size ≤ maxResultMetadataBytes

variable {nfc : String → String} {spare : Nat}

theorem requireDict_ok {message : String} {o : Obj} {u : Unit} {h h' : Heap} :
    requireDict message o h = (.ok u, h') ↔ isDict plainView h o = true ∧ h = h' := by
  simp only [requireDict, Txn.bind_ok, Txn.query_ok, Txn.ensure_ok]
  constructor
  · intro hrun
    obtain ⟨_, _, ⟨rfl, rfl⟩, hplain, rfl⟩ := hrun
    exact ⟨hplain, rfl⟩
  · intro hrun
    exact ⟨_, h, ⟨rfl, rfl⟩, hrun.1, hrun.2⟩

theorem canonicalJsonBytes_runs (spare : Nat) {own : Nat → Prop} {h : Heap} {o : Obj} {v : Value}
    (hv : Holds plainView own h o v) (hd : depthOf v ≤ maxMetadataDepth + 1) :
    canonicalJsonBytes spare o h = (.ok (dumps v).toUTF8, h) := by
  rw [canonicalJsonBytes, Txn.bind_ok]
  refine ⟨_, h, Txn.query_ok.mpr ⟨rfl, rfl⟩, ?_⟩
  rw [readTree_of_holds _ o v hv (Nat.le_trans hd (Nat.le_add_right _ _))]
  rfl

theorem freezeJson_runs (spare : Nat) {own : Nat → Prop} {h : Heap} {o : Obj} {v : Value}
    (hv : Holds plainView own h o v) (hd : depthOf v ≤ maxMetadataDepth) :
    ∃ o' h', freezeJson spare o h = (.ok o', h') ∧
      Landed id (fun _ => 0) frozenView h h' o' v 0 :=
  rebuild_runs rewrites_frozen _ o v hv (Nat.le_trans hd (Nat.le_add_right _ _)) h List.prefix_rfl

/-- **What is thawed holds what was frozen.** -/
theorem thawJson_runs (spare : Nat) {own : Nat → Prop} {h : Heap} {o : Obj} {v : Value}
    (hv : Holds frozenView own h o v) (hd : depthOf v ≤ maxMetadataDepth) :
    ∃ o' h', thawJson spare o h = (.ok o', h') ∧
      Landed id (fun _ => 0) plainView h h' o' v 0 :=
  rebuild_runs rewrites_plain _ o v hv (Nat.le_trans hd (Nat.le_add_right _ _)) h List.prefix_rfl

theorem snapshotJsonValue_ok {o o' : Obj} {label : String} {h h' : Heap}
    (hrun : snapshotJsonValue nfc o label h = (.ok o', h')) :
    ∃ v, Holds plainView (fun _ => True) h' o v ∧
      Permitted (FineLeaf nfc) (IsBody nfc maxMetadataKeyBytes) v ∧
      depthOf v ≤ maxMetadataDepth ∧ nodeCount v ≤ maxMetadataNodes ∧
      h <+: h' ∧ Holds plainView (h.length ≤ ·) h' o' v := by
  simp only [snapshotJsonValue, Prod.mk.injEq] at hrun
  obtain ⟨hresult, rfl⟩ := hrun
  obtain ⟨hlimit, v, hsrc, hgood, hland⟩ := @copy_ok Walk ResultError walker
    (snapshotRules nfc) maxMetadataDepth label [] o ⟨h, 0⟩ o' _ (Nat.zero_le _)
    (Prod.ext hresult rfl)
  have hcounted := hland.counted
  refine ⟨v, hsrc, hgood.1, hgood.2, ?_, hland.grows, hland.holds⟩
  have hzero : walker.nodes ⟨h, 0⟩ = 0 := rfl
  rw [hzero, Nat.zero_add] at hcounted
  rw [← hcounted]
  exact hlimit

theorem snapshotJsonValue_runs (label : String) {o : Obj} {h : Heap} {v : Value}
    (hv : Holds plainView (fun _ => True) h o v)
    (ha : Permitted (FineLeaf nfc) (IsBody nfc maxMetadataKeyBytes) v)
    (hd : depthOf v ≤ maxMetadataDepth) (hn : nodeCount v ≤ maxMetadataNodes) :
    ∃ o' h', snapshotJsonValue nfc o label h = (.ok o', h') ∧ h <+: h' ∧
      Holds plainView (h.length ≤ ·) h' o' v := by
  obtain ⟨o', s', hrun, hland⟩ := @copy_runs Walk ResultError walker (snapshotRules nfc) h
    maxMetadataDepth label [] o v hv ha hd (fun _ hid => absurd hid List.not_mem_nil) ⟨h, 0⟩
    List.prefix_rfl (by rw [show walker.nodes ⟨h, 0⟩ = 0 from rfl, Nat.zero_add]; exact hn)
  exact ⟨o', s'.heap, by simp [snapshotJsonValue, hrun], hland.grows, hland.holds⟩

/-- A thawed form is a copy of the value. -/
theorem thawAllowed_ok {allowFrozen : Bool} {o o' : Obj} {h h' : Heap}
    (hrun : thawAllowed spare allowFrozen o h = (.ok o', h')) :
    CopiedFrom sequenceView plainView o h o' h' := by
  rw [thawAllowed, Txn.bind_ok] at hrun
  obtain ⟨_, _, hread, hrun⟩ := hrun
  obtain ⟨rfl, rfl⟩ := Txn.query_ok.mp hread
  split at hrun
  · exact rebuild_ok rewrites_plain includes_frozenView includes_plainView _ _ _ _ _ hrun
  · obtain ⟨rfl, rfl⟩ := Txn.pure_ok.mp hrun
    exact copiedFrom_self includes_plainView _ _

/-- **What is taken over is metadata within the bounds**, in new cells. -/
theorem snapshotJsonObject_ok {o frozen : Obj} {label : String} {allowFrozen : Bool}
    {bytes : ByteArray} {h h' : Heap}
    (hrun : snapshotJsonObject nfc spare o label allowFrozen h = (.ok (frozen, bytes), h')) :
    ∃ v, Holds sequenceView (fun _ => True) h' o v ∧ GoodMetadata nfc v ∧ h <+: h' ∧
      Holds frozenView (h.length ≤ ·) h' frozen v := by
  simp only [snapshotJsonObject, Txn.bind_ok, requireDict_ok, Txn.ensure_ok, Txn.pure_ok] at hrun
  obtain ⟨thawed, h₁, hthaw, _, _, ⟨-, rfl⟩, copied, h₂, hsnap, _, _, ⟨hdict, rfl⟩, canonical, h₃,
    hbytes, _, _, ⟨hsize, rfl⟩, frozen', h₄, hfreeze, heq, rfl⟩ := hrun
  cases heq
  obtain ⟨hp₁, hcopied⟩ := thawAllowed_ok hthaw
  obtain ⟨v, hsrc, hallowed, hdepth, hnodes, hp₂, hcopy⟩ := snapshotJsonValue_ok hsnap
  have hcanonical := canonicalJsonBytes_runs spare hcopy (Nat.le_succ_of_le hdepth)
  rw [hbytes] at hcanonical
  simp only [Prod.mk.injEq, Except.ok.injEq] at hcanonical
  obtain ⟨rfl, rfl⟩ := hcanonical
  obtain ⟨frozen', h₅, hfreeze', hland⟩ := freezeJson_runs spare hcopy hdepth
  rw [hfreeze] at hfreeze'
  cases hfreeze'
  have hp₃ : h₃ <+: h₄ := hland.grows
  refine ⟨v, hcopied h₄ v (hp₂.trans hp₃) (hsrc.grow hp₃), ⟨(isDict_iff hcopy).mp hdict, hallowed,
    hdepth, hnodes, hsize⟩, (hp₁.trans hp₂).trans hp₃, ?_⟩
  exact hland.holds.mono (fun _ hid => Nat.le_trans (hp₁.trans hp₂).length_le hid)

theorem thawAllowed_plain {own : Nat → Prop} {o : Obj} {h : Heap} {v : Value} {allowFrozen : Bool}
    (hv : Holds plainView own h o v) : thawAllowed spare allowFrozen o h = (.ok o, h) := by
  have hfrozen : isDict frozenView h o = false := by
    rcases hv.split with hs | ⟨id, slots, items, rfl, rfl, hs, -⟩ |
      ⟨id, slots, items, rfl, rfl, hs, -⟩ | ⟨id, d, pairs, rfl, rfl, hs, -⟩
    · cases o <;> cases hs <;> rfl
    · obtain ⟨cell, hcell, hread⟩ := shapeAt_some hs
      cases cell <;> cases hread
      simp [isDict, shapeOf, shapeAt, hcell, frozenView]
    · obtain ⟨cell, hcell, hread⟩ := shapeAt_some hs
      cases cell <;> cases hread
    · obtain ⟨cell, hcell, hread⟩ := shapeAt_some hs
      cases cell <;> cases hread
      simp [isDict, shapeOf, shapeAt, hcell, frozenView]
  rw [thawAllowed, Txn.bind_ok]
  refine ⟨_, h, Txn.query_ok.mpr ⟨rfl, rfl⟩, ?_⟩
  rw [hfrozen, Bool.and_false]
  rfl

theorem thawAllowed_frozen (spare : Nat) {own : Nat → Prop} {o : Obj} {h : Heap} {v : Value}
    (hv : Holds frozenView own h o v) (hobject : ∃ pairs, v = .dict pairs)
    (hd : depthOf v ≤ maxMetadataDepth) :
    ∃ o' h', thawAllowed spare true o h = (.ok o', h') ∧
      Landed id (fun _ => 0) plainView h h' o' v 0 := by
  obtain ⟨o', h', hrun, hland⟩ := thawJson_runs spare hv hd
  refine ⟨o', h', ?_, hland⟩
  rw [thawAllowed, Txn.bind_ok]
  refine ⟨_, h, Txn.query_ok.mpr ⟨rfl, rfl⟩, ?_⟩
  rw [(isDict_iff hv).mpr hobject]
  exact hrun

/-- **Metadata within the bounds is taken over**, plain or frozen. -/
theorem snapshotJsonObject_runs (spare : Nat) (label : String) {o : Obj} {h : Heap} {v : Value}
    (hv : Holds plainView (fun _ => True) h o v ∨ Holds frozenView (fun _ => True) h o v)
    (hg : GoodMetadata nfc v) :
    ∃ frozen h', snapshotJsonObject nfc spare o label true h =
        (.ok (frozen, (dumps v).toUTF8), h') ∧ h <+: h' ∧
      Holds frozenView (h.length ≤ ·) h' frozen v := by
  have hthaw : ∃ o' h₁, thawAllowed spare true o h = (.ok o', h₁) ∧ h <+: h₁ ∧
      Holds plainView (fun _ => True) h₁ o' v := by
    rcases hv with hv | hv
    · exact ⟨o, h, thawAllowed_plain hv, List.prefix_rfl, hv⟩
    · obtain ⟨o', h₁, hrun, hland⟩ := thawAllowed_frozen spare hv hg.object hg.depth
      exact ⟨o', h₁, hrun, hland.grows, hland.holds.mono (fun _ _ => trivial)⟩
  obtain ⟨thawed, h₁, hthaw, hp₁, hplain⟩ := hthaw
  obtain ⟨copied, h₂, hsnap, hp₂, hcopy⟩ :=
    snapshotJsonValue_runs label hplain hg.allowed hg.depth hg.nodes
  obtain ⟨frozen, h₃, hfreeze, hland⟩ := freezeJson_runs spare hcopy hg.depth
  have hp₃ : h₂ <+: h₃ := hland.grows
  refine ⟨frozen, h₃, ?_, (hp₁.trans hp₂).trans hp₃,
    hland.holds.mono (fun _ hid => Nat.le_trans (hp₁.trans hp₂).length_le hid)⟩
  simp only [snapshotJsonObject, Txn.bind_ok, requireDict_ok, Txn.ensure_ok]
  exact ⟨thawed, h₁, hthaw, (), h₁, ⟨(isDict_iff hplain).mpr hg.object, rfl⟩, copied, h₂, hsnap,
    (), h₂, ⟨(isDict_iff hcopy).mpr hg.object, rfl⟩, _, h₂,
    canonicalJsonBytes_runs spare hcopy (Nat.le_succ_of_le hg.depth), (), h₂, ⟨hg.bytes, rfl⟩, frozen, h₃,
    hfreeze, rfl⟩

end Metadata

/-! ## Manifests -/

/-- The texts and numbers of a manifest. -/
structure ManifestIdentity (τ ν : Type) where
  schemaVersion : ν
  tenantId : τ
  workspaceId : τ
  invocationId : τ
  sessionId : τ
  planId : τ
  taskId : τ
  agentId : τ
  jobIdempotencyKey : τ
  taskRevision : ν
  correlationId : τ
  causationId : τ
  runtimeRevision : τ
  executionManifestDigest : τ
  actionReceiptSetDigest : τ
  resultRef : τ
  narration : τ
  deriving DecidableEq

/-- A manifest, its metadata in `μ` and its primary artifact in `π`. -/
structure ManifestOf (τ ν π μ : Type) extends ManifestIdentity τ ν where
  effectClass : EffectClass
  metadata : μ
  primaryArtifactId : π
  artifacts : List ScopedInvocationResultArtifactV2

/-- `ScopedInvocationResultManifestV2`. -/
abbrev ScopedInvocationResultManifestV2 (μ : Type) := ManifestOf String Int (Option String) μ

/-- The arguments of the constructor, of any types. -/
abbrev RawManifest := ManifestOf Obj Obj Obj Obj

/-- A text or `None`. -/
def optionalStr : Option String → Obj
  | none => .null
  | some s => .str s

def optionalStrValue : Option String → Value
  | none => .null
  | some s => .str s

def ManifestIdentity.raw (i : ManifestIdentity String Int) : ManifestIdentity Obj Obj where
  schemaVersion := .int i.schemaVersion
  tenantId := .str i.tenantId
  workspaceId := .str i.workspaceId
  invocationId := .str i.invocationId
  sessionId := .str i.sessionId
  planId := .str i.planId
  taskId := .str i.taskId
  agentId := .str i.agentId
  jobIdempotencyKey := .str i.jobIdempotencyKey
  taskRevision := .int i.taskRevision
  correlationId := .str i.correlationId
  causationId := .str i.causationId
  runtimeRevision := .str i.runtimeRevision
  executionManifestDigest := .str i.executionManifestDigest
  actionReceiptSetDigest := .str i.actionReceiptSetDigest
  resultRef := .str i.resultRef
  narration := .str i.narration

/-- A manifest's fields as objects. -/
def ManifestOf.raw (m : ScopedInvocationResultManifestV2 Obj) : RawManifest :=
  { m.toManifestIdentity.raw with
    effectClass := m.effectClass
    metadata := m.metadata
    primaryArtifactId := optionalStr m.primaryArtifactId
    artifacts := m.artifacts }

def ManifestOf.withMetadata {τ ν π μ μ' : Type} (m : ManifestOf τ ν π μ) (metadata : μ') :
    ManifestOf τ ν π μ' :=
  { m.toManifestIdentity with
    effectClass := m.effectClass
    metadata := metadata
    primaryArtifactId := m.primaryArtifactId
    artifacts := m.artifacts }

/-- `EMPTY_ACTION_RECEIPT_SET_DIGEST`. -/
def emptyActionReceiptSetDigest : String :=
  Sha256.hexDigest ("quantum-entanglement.action-receipt-set/1\n" ++ "[]")

/-- The check of `schema_version`. -/
def schemaVersionOf (value : Obj) : Except ResultError Int :=
  match value with
  | .int n => do
    require (n = 2) (.valueError "schemaVersion is unsupported")
    .ok n
  | _ => .error (.typeError "schemaVersion must be an exact integer")

/-- Pure results have no action receipts, and effectful ones have some. -/
def EffectFits (effectClass : EffectClass) (digest : String) : Prop :=
  effectClass = .pure ↔ digest = emptyActionReceiptSetDigest

/-- The check of the action receipts against the effect class. -/
def checkEffect (effectClass : EffectClass) (digest : String) : Except ResultError Unit :=
  if effectClass = .pure then
    require (digest = emptyActionReceiptSetDigest)
      (.valueError "pure results require the canonical empty action receipt set")
  else
    require (digest ≠ emptyActionReceiptSetDigest)
      (.valueError "effectful results require a non-empty action receipt set digest")

/-- The primary artifact, if there is one, is among these. -/
def PrimaryNamed (primary : Option String) (artifactIds : List String) : Prop :=
  match primary with
  | none => True
  | some id => id ∈ artifactIds

instance (primary : Option String) (artifactIds : List String) :
    Decidable (PrimaryNamed primary artifactIds) :=
  match primary with
  | none => .isTrue trivial
  | some id => inferInstanceAs (Decidable (id ∈ artifactIds))

section Manifests

variable (nfc : String → String) (spare : Nat)

/-- The check of `primary_artifact_id`. -/
def optionalText (value : Obj) (label : String) : Except ResultError (Option String) :=
  if value = .null then .ok none
  else do
    let s ← text nfc value label maxIdentityBytes
    .ok (some s)

/-- The checks of the texts and numbers. -/
def manifestIdentity (raw : ManifestIdentity Obj Obj) :
    Except ResultError (ManifestIdentity String Int) := do
  let schemaVersion ← schemaVersionOf raw.schemaVersion
  let tenantId ← text nfc raw.tenantId "tenantId" maxIdentityBytes
  let workspaceId ← text nfc raw.workspaceId "workspaceId" maxIdentityBytes
  let invocationId ← text nfc raw.invocationId "invocationId" maxIdentityBytes
  let sessionId ← text nfc raw.sessionId "sessionId" maxIdentityBytes
  let planId ← text nfc raw.planId "planId" maxIdentityBytes
  let taskId ← text nfc raw.taskId "taskId" maxIdentityBytes
  let agentId ← text nfc raw.agentId "agentId" maxIdentityBytes
  let jobIdempotencyKey ← text nfc raw.jobIdempotencyKey "jobIdempotencyKey" maxIdentityBytes
  let correlationId ← text nfc raw.correlationId "correlationId" maxIdentityBytes
  let causationId ← text nfc raw.causationId "causationId" maxIdentityBytes
  let runtimeRevision ← text nfc raw.runtimeRevision "runtimeRevision" maxIdentityBytes
  let resultRef ← text nfc raw.resultRef "resultRef" maxIdentityBytes
  let taskRevision ← positiveInteger raw.taskRevision "taskRevision"
  let executionManifestDigest ← digest nfc raw.executionManifestDigest "executionManifestDigest"
  let actionReceiptSetDigest ← digest nfc raw.actionReceiptSetDigest "actionReceiptSetDigest"
  let narration ← bodyText nfc raw.narration "narration" maxNarrationBytes
  .ok { schemaVersion, tenantId, workspaceId, invocationId, sessionId, planId, taskId, agentId,
        jobIdempotencyKey, taskRevision, correlationId, causationId, runtimeRevision,
        executionManifestDigest, actionReceiptSetDigest, resultRef, narration }

/-- `ScopedInvocationResultArtifactV2.from_dict(item.to_dict())`. -/
def recheckArtifact (item : ScopedInvocationResultArtifactV2) :
    Txn Heap ResultError ScopedInvocationResultArtifactV2 := do
  let written ← artifactToDict nfc item
  artifactFromDict nfc written

/-- The loop over the descriptors, with those taken so far. -/
def takeDescriptors (agentId : String) (taken : List ScopedInvocationResultArtifactV2) :
    List ScopedInvocationResultArtifactV2 →
      Txn Heap ResultError (List ScopedInvocationResultArtifactV2)
  | [] => pure taken
  | item :: rest => do
    let snapshot ← recheckArtifact nfc item
    Txn.ensure (snapshot.createdBy = agentId)
      (.valueError "artifact createdBy must equal the result agentId")
    Txn.ensure (snapshot.artifactId ∉ taken.map (fun a => a.artifactId))
      (.valueError "result manifest repeats an artifactId")
    Txn.ensure (snapshot.name ∉ taken.map (fun a => a.name))
      (.valueError "result manifest repeats an artifact name")
    Txn.ensure (snapshot.idempotencyKey ∉ taken.map (fun a => a.idempotencyKey))
      (.valueError "result manifest repeats an artifact idempotencyKey")
    takeDescriptors agentId (taken ++ [snapshot]) rest

/-- The entries of a manifest's dict. -/
def manifestEntries (m : ScopedInvocationResultManifestV2 Obj) (metadata artifacts : Obj) :
    List (Obj × Obj) :=
  [(.str "schemaVersion", .int m.schemaVersion), (.str "tenantId", .str m.tenantId),
   (.str "workspaceId", .str m.workspaceId), (.str "invocationId", .str m.invocationId),
   (.str "sessionId", .str m.sessionId), (.str "planId", .str m.planId),
   (.str "taskId", .str m.taskId), (.str "agentId", .str m.agentId),
   (.str "jobIdempotencyKey", .str m.jobIdempotencyKey),
   (.str "taskRevision", .int m.taskRevision), (.str "correlationId", .str m.correlationId),
   (.str "causationId", .str m.causationId), (.str "runtimeRevision", .str m.runtimeRevision),
   (.str "executionManifestDigest", .str m.executionManifestDigest),
   (.str "effectClass", .str m.effectClass.value),
   (.str "actionReceiptSetDigest", .str m.actionReceiptSetDigest),
   (.str "resultRef", .str m.resultRef), (.str "narration", .str m.narration),
   (.str "metadata", metadata), (.str "primaryArtifactId", optionalStr m.primaryArtifactId),
   (.str "artifacts", artifacts)]

/-- `_MANIFEST_FIELDS`. -/
def manifestFields : List String :=
  ["schemaVersion", "tenantId", "workspaceId", "invocationId", "sessionId", "planId", "taskId",
   "agentId", "jobIdempotencyKey", "taskRevision", "correlationId", "causationId",
   "runtimeRevision", "executionManifestDigest", "effectClass", "actionReceiptSetDigest",
   "resultRef", "narration", "metadata", "primaryArtifactId", "artifacts"]

/-- `_wire_dict`. -/
def wireDict (m : ScopedInvocationResultManifestV2 Obj) : Txn Heap ResultError Obj := do
  let metadata ← thawJson spare m.metadata
  requireDict "metadata snapshot is not a JSON object" metadata
  let written ← Txn.forEach (artifactToDict nfc) m.artifacts
  let artifacts ← alloc (.list written)
  alloc (.dict (PyDict.ofPairs (manifestEntries m metadata artifacts)))

/-- The checks of `__post_init__` up to the size of the whole. -/
def takeManifest (raw : RawManifest) :
    Txn Heap ResultError (ScopedInvocationResultManifestV2 Obj) := do
  let identity ← Txn.lift (manifestIdentity nfc raw.toManifestIdentity)
  let metadata ← snapshotJsonObject nfc spare raw.metadata "metadata" true
  let primaryArtifactId ← Txn.lift (optionalText nfc raw.primaryArtifactId "primaryArtifactId")
  Txn.ensure (identity.causationId = identity.taskId)
    (.valueError "causationId must equal taskId")
  Txn.lift (checkEffect raw.effectClass identity.actionReceiptSetDigest)
  Txn.ensure (raw.artifacts.length ≤ maxArtifacts)
    (.valueError "artifacts must contain at most 256 descriptors")
  let artifacts ← takeDescriptors nfc identity.agentId [] raw.artifacts
  Txn.ensure (PrimaryNamed primaryArtifactId (artifacts.map (fun a => a.artifactId)))
    (.valueError "primaryArtifactId must identify one descriptor in artifacts")
  Txn.ensure (identity.resultRef ∉ artifacts.map (fun a => a.artifactId))
    (.valueError "resultRef must not alias an artifactId")
  pure { identity with
    effectClass := raw.effectClass, metadata := metadata.1, primaryArtifactId, artifacts }

/-- `ScopedInvocationResultManifestV2.__post_init__`. -/
def manifestV2 (raw : RawManifest) :
    Txn Heap ResultError (ScopedInvocationResultManifestV2 Obj) := do
  let m ← takeManifest nfc spare raw
  let wire ← wireDict nfc spare m
  let bytes ← canonicalJsonBytes spare wire
  Txn.ensure (bytes.size ≤ maxManifestBytes)
    (.valueError "result manifest exceeds its canonical byte limit")
  pure m

/-! ### What a manifest is -/

/-- The texts and numbers of a manifest pass every check. -/
structure ManifestIdentity.Valid (i : ManifestIdentity String Int) : Prop where
  schemaVersion : i.schemaVersion = 2
  tenantId : IsText nfc maxIdentityBytes i.tenantId
  workspaceId : IsText nfc maxIdentityBytes i.workspaceId
  invocationId : IsText nfc maxIdentityBytes i.invocationId
  sessionId : IsText nfc maxIdentityBytes i.sessionId
  planId : IsText nfc maxIdentityBytes i.planId
  taskId : IsText nfc maxIdentityBytes i.taskId
  agentId : IsText nfc maxIdentityBytes i.agentId
  jobIdempotencyKey : IsText nfc maxIdentityBytes i.jobIdempotencyKey
  correlationId : IsText nfc maxIdentityBytes i.correlationId
  causationId : IsText nfc maxIdentityBytes i.causationId
  runtimeRevision : IsText nfc maxIdentityBytes i.runtimeRevision
  resultRef : IsText nfc maxIdentityBytes i.resultRef
  taskRevision : 1 ≤ i.taskRevision ∧ i.taskRevision ≤ maxSqliteInteger
  executionText : IsText nfc 64 i.executionManifestDigest
  executionManifestDigest : Sha256.IsHexDigest i.executionManifestDigest
  actionText : IsText nfc 64 i.actionReceiptSetDigest
  actionReceiptSetDigest : Sha256.IsHexDigest i.actionReceiptSetDigest
  narration : IsBody nfc maxNarrationBytes i.narration

/-- No two descriptors share an id, a name or a key. -/
structure Distinct (artifacts : List ScopedInvocationResultArtifactV2) : Prop where
  ids : (artifacts.map (fun a => a.artifactId)).Nodup
  names : (artifacts.map (fun a => a.name)).Nodup
  keys : (artifacts.map (fun a => a.idempotencyKey)).Nodup

/-- The members of a manifest whose metadata is a value, but for its artifacts. -/
def ManifestOf.leading (m : ScopedInvocationResultManifestV2 Value) : List (String × Value) :=
  [("schemaVersion", .int m.schemaVersion), ("tenantId", .str m.tenantId),
   ("workspaceId", .str m.workspaceId), ("invocationId", .str m.invocationId),
   ("sessionId", .str m.sessionId), ("planId", .str m.planId), ("taskId", .str m.taskId),
   ("agentId", .str m.agentId), ("jobIdempotencyKey", .str m.jobIdempotencyKey),
   ("taskRevision", .int m.taskRevision), ("correlationId", .str m.correlationId),
   ("causationId", .str m.causationId), ("runtimeRevision", .str m.runtimeRevision),
   ("executionManifestDigest", .str m.executionManifestDigest),
   ("effectClass", .str m.effectClass.value),
   ("actionReceiptSetDigest", .str m.actionReceiptSetDigest), ("resultRef", .str m.resultRef),
   ("narration", .str m.narration), ("metadata", m.metadata),
   ("primaryArtifactId", optionalStrValue m.primaryArtifactId)]

/-- The members, with the artifacts as given. -/
def ManifestOf.membersWith (m : ScopedInvocationResultManifestV2 Value) (artifacts : Value) :
    List (String × Value) := m.leading ++ [("artifacts", artifacts)]

/-- The members of a manifest whose metadata is a value. -/
def ManifestOf.members (m : ScopedInvocationResultManifestV2 Value) : List (String × Value) :=
  m.membersWith (.list (m.artifacts.map ArtifactOf.wire))

/-- A manifest as JSON. -/
def ManifestOf.wire (m : ScopedInvocationResultManifestV2 Value) : Value := .dict m.members

/-- A manifest that passes every check but that of its size. -/
structure ManifestOf.Sound (m : ScopedInvocationResultManifestV2 Value) : Prop where
  identity : m.toManifestIdentity.Valid nfc
  metadata : GoodMetadata nfc m.metadata
  primaryArtifactId : ∀ s, m.primaryArtifactId = some s → IsText nfc maxIdentityBytes s
  causationId : m.causationId = m.taskId
  effect : EffectFits m.effectClass m.actionReceiptSetDigest
  artifactCount : m.artifacts.length ≤ maxArtifacts
  artifacts : ∀ a ∈ m.artifacts, a.Valid nfc ∧ a.createdBy = m.agentId
  distinct : Distinct m.artifacts
  primaryNamed : PrimaryNamed m.primaryArtifactId (m.artifacts.map (fun a => a.artifactId))
  resultRef : m.resultRef ∉ m.artifacts.map (fun a => a.artifactId)

/-- A manifest that passes every check. -/
structure ManifestOf.Valid (m : ScopedInvocationResultManifestV2 Value) : Prop where
  sound : m.Sound nfc
  bytes : (dumps m.wire).toUTF8.size ≤ maxManifestBytes

variable {nfc : String → String} {spare : Nat}

theorem scalar_optionalStr (s : Option String) :
    scalar (optionalStr s) = some (optionalStrValue s) := by
  cases s <;> rfl

@[simp] theorem holds_optionalStr {view : View} {own : Nat → Prop} {h : Heap} {s : Option String} :
    Holds view own h (optionalStr s) (optionalStrValue s) :=
  holds_of_scalar (scalar_optionalStr s)

theorem schemaVersionOf_ok {value : Obj} {n : Int} :
    schemaVersionOf value = .ok n ↔ value = .int n ∧ n = 2 := by
  cases value with
  | int m =>
    simp only [schemaVersionOf, except_bind_ok, require_ok, Except.ok.injEq, Obj.int.injEq]
    constructor
    · intro h
      obtain ⟨_, rfl, rfl⟩ := h
      exact ⟨rfl, rfl⟩
    · intro h
      obtain ⟨rfl, rfl⟩ := h
      exact ⟨(), rfl, rfl⟩
  | _ => simp [schemaVersionOf]

theorem checkEffect_ok {effectClass : EffectClass} {digest : String} {u : Unit} :
    checkEffect effectClass digest = .ok u ↔ EffectFits effectClass digest := by
  rw [checkEffect, EffectFits]
  split
  next h => simp [h]
  next h => simp [h]

theorem optionalText_ok {value : Obj} {label : String} {p : Option String} :
    optionalText nfc value label = .ok p ↔
      value = optionalStr p ∧ ∀ s, p = some s → IsText nfc maxIdentityBytes s := by
  rw [optionalText]
  split
  next hnull =>
    subst hnull
    cases p <;> simp [optionalStr]
  next hnull =>
    simp only [except_bind_ok, text_ok, Except.ok.injEq]
    cases p with
    | none => simp [optionalStr, hnull]
    | some s => simp [optionalStr]

theorem manifestIdentity_ok {raw : ManifestIdentity Obj Obj} {i : ManifestIdentity String Int} :
    manifestIdentity nfc raw = .ok i ↔ raw = i.raw ∧ i.Valid nfc := by
  simp only [manifestIdentity, except_bind_ok, schemaVersionOf_ok, text_ok, positiveInteger_ok,
    digest_ok, bodyText_ok, Except.ok.injEq]
  constructor
  · intro h
    obtain ⟨_, ⟨h₁, t₁⟩, _, ⟨h₂, t₂⟩, _, ⟨h₃, t₃⟩, _, ⟨h₄, t₄⟩, _, ⟨h₅, t₅⟩, _, ⟨h₆, t₆⟩, _,
      ⟨h₇, t₇⟩, _, ⟨h₈, t₈⟩, _, ⟨h₉, t₉⟩, _, ⟨h₁₀, t₁₀⟩, _, ⟨h₁₁, t₁₁⟩, _, ⟨h₁₂, t₁₂⟩, _,
      ⟨h₁₃, t₁₃⟩, _, ⟨h₁₄, t₁₄⟩, _, ⟨h₁₅, t₁₅, d₁₅⟩, _, ⟨h₁₆, t₁₆, d₁₆⟩, _, ⟨h₁₇, t₁₇⟩, rfl⟩ := h
    refine ⟨?_, ⟨t₁, t₂, t₃, t₄, t₅, t₆, t₇, t₈, t₉, t₁₀, t₁₁, t₁₂, t₁₃, t₁₄, t₁₅, d₁₅, t₁₆, d₁₆,
      t₁₇⟩⟩
    rw [ManifestIdentity.raw, ← h₁, ← h₂, ← h₃, ← h₄, ← h₅, ← h₆, ← h₇, ← h₈, ← h₉, ← h₁₀, ← h₁₁,
      ← h₁₂, ← h₁₃, ← h₁₄, ← h₁₅, ← h₁₆, ← h₁₇]
  · intro h
    obtain ⟨rfl, hv⟩ := h
    exact ⟨_, ⟨rfl, hv.schemaVersion⟩, _, ⟨rfl, hv.tenantId⟩, _, ⟨rfl, hv.workspaceId⟩, _,
      ⟨rfl, hv.invocationId⟩, _, ⟨rfl, hv.sessionId⟩, _, ⟨rfl, hv.planId⟩, _, ⟨rfl, hv.taskId⟩, _,
      ⟨rfl, hv.agentId⟩, _, ⟨rfl, hv.jobIdempotencyKey⟩, _, ⟨rfl, hv.correlationId⟩, _,
      ⟨rfl, hv.causationId⟩, _, ⟨rfl, hv.runtimeRevision⟩, _, ⟨rfl, hv.resultRef⟩, _,
      ⟨rfl, hv.taskRevision⟩, _, ⟨rfl, hv.executionText, hv.executionManifestDigest⟩, _,
      ⟨rfl, hv.actionText, hv.actionReceiptSetDigest⟩, _, ⟨rfl, hv.narration⟩, rfl⟩

/-! ### The descriptors -/

theorem ArtifactOf.raw_inj {a b : ScopedInvocationResultArtifactV2} (h : a.raw = b.raw) : a = b := by
  have hparent : ∀ p q : Option Int, optionalInt p = optionalInt q → p = q := by
    intro p q heq
    cases p <;> cases q <;> cases heq <;> rfl
  cases a
  cases b
  simp only [ArtifactOf.raw, ArtifactOf.mk.injEq, Obj.str.injEq, Obj.int.injEq] at h ⊢
  exact ⟨h.1, h.2.1, h.2.2.1, hparent _ _ h.2.2.2.1, h.2.2.2.2⟩

theorem artifactToDict_ok {a : ScopedInvocationResultArtifactV2} {o : Obj} {h h' : Heap}
    (hrun : artifactToDict nfc a h = (.ok o, h')) : a.Valid nfc := by
  simp only [artifactToDict, Txn.bind_ok, Txn.lift_ok] at hrun
  obtain ⟨checked, _, ⟨hmade, rfl⟩, -⟩ := hrun
  obtain ⟨hraw, hv⟩ := artifactV2_ok.mp hmade
  rw [ArtifactOf.raw_inj hraw]
  exact hv

/-- A descriptor that is written and read again is the one it was. -/
theorem recheckArtifact_runs {a : ScopedInvocationResultArtifactV2} (hv : a.Valid nfc) (h : Heap) :
    ∃ h', recheckArtifact nfc a h = (.ok a, h') ∧ h <+: h' := by
  obtain ⟨o, h', hwrite, hland⟩ := artifactToDict_runs hv h
  refine ⟨h', ?_, hland.grows⟩
  rw [recheckArtifact, Txn.bind_ok]
  exact ⟨o, h', hwrite, artifactFromDict_runs hv hland.holds rfl⟩

theorem recheckArtifact_ok {a b : ScopedInvocationResultArtifactV2} {h h' : Heap}
    (hrun : recheckArtifact nfc a h = (.ok b, h')) : b = a ∧ a.Valid nfc ∧ h <+: h' := by
  have hv : a.Valid nfc := by
    rw [recheckArtifact, Txn.bind_ok] at hrun
    obtain ⟨o, h₁, hwrite, -⟩ := hrun
    exact artifactToDict_ok hwrite
  obtain ⟨h₁, hrun', hp⟩ := recheckArtifact_runs hv h
  rw [hrun] at hrun'
  cases hrun'
  exact ⟨rfl, hv, hp⟩

theorem nodup_map_concat {α : Type} {f : α → String} {xs : List α} {x : α} :
    ((xs ++ [x]).map f).Nodup ↔ (xs.map f).Nodup ∧ f x ∉ xs.map f := by
  rw [List.map_append, List.map_singleton]
  rw [← List.concat_eq_append, List.nodup_concat]
  exact and_comm

theorem distinct_concat {taken : List ScopedInvocationResultArtifactV2}
    {a : ScopedInvocationResultArtifactV2} :
    Distinct (taken ++ [a]) ↔ Distinct taken ∧ a.artifactId ∉ taken.map (fun a => a.artifactId) ∧
      a.name ∉ taken.map (fun a => a.name) ∧
      a.idempotencyKey ∉ taken.map (fun a => a.idempotencyKey) := by
  constructor
  · intro h
    obtain ⟨hids, hid⟩ := nodup_map_concat.mp h.ids
    obtain ⟨hnames, hname⟩ := nodup_map_concat.mp h.names
    obtain ⟨hkeys, hkey⟩ := nodup_map_concat.mp h.keys
    exact ⟨⟨hids, hnames, hkeys⟩, hid, hname, hkey⟩
  · intro h
    obtain ⟨hd, hid, hname, hkey⟩ := h
    exact ⟨nodup_map_concat.mpr ⟨hd.ids, hid⟩, nodup_map_concat.mpr ⟨hd.names, hname⟩,
      nodup_map_concat.mpr ⟨hd.keys, hkey⟩⟩

theorem Distinct.of_append {xs ys : List ScopedInvocationResultArtifactV2}
    (h : Distinct (xs ++ ys)) : Distinct xs where
  ids := (List.map_append ▸ h.ids : (List.map _ xs ++ List.map _ ys).Nodup).of_append_left
  names := (List.map_append ▸ h.names : (List.map _ xs ++ List.map _ ys).Nodup).of_append_left
  keys := (List.map_append ▸ h.keys : (List.map _ xs ++ List.map _ ys).Nodup).of_append_left

/-- **The loop takes every descriptor as it is**, if each is valid and no two
clash. -/
theorem takeDescriptors_ok {agentId : String} : ∀ {taken items result h h'},
    takeDescriptors nfc agentId taken items h = (.ok result, h') →
    result = taken ++ items ∧ (∀ a ∈ items, a.Valid nfc ∧ a.createdBy = agentId) ∧
      (Distinct taken → Distinct result) ∧ h <+: h'
  | taken, [], result, h, h', hrun => by
    obtain ⟨rfl, rfl⟩ := Txn.pure_ok.mp hrun
    exact ⟨(List.append_nil _).symm, fun _ ha => absurd ha List.not_mem_nil, fun hd => hd,
      List.prefix_rfl⟩
  | taken, item :: rest, result, h, h', hrun => by
    simp only [takeDescriptors, Txn.bind_ok, Txn.ensure_ok] at hrun
    obtain ⟨snapshot, h₁, hcheck, _, _, ⟨hagent, rfl⟩, _, _, ⟨hid, rfl⟩, _, _, ⟨hname, rfl⟩, _, _,
      ⟨hkey, rfl⟩, hrest⟩ := hrun
    obtain ⟨rfl, hv, hp⟩ := recheckArtifact_ok hcheck
    obtain ⟨heq, hall, hdistinct, hp'⟩ := takeDescriptors_ok hrest
    refine ⟨by rw [heq, List.append_assoc, List.singleton_append],
      List.forall_mem_cons.mpr ⟨⟨hv, hagent⟩, hall⟩, fun hd => ?_, hp.trans hp'⟩
    exact hdistinct (distinct_concat.mpr ⟨hd, hid, hname, hkey⟩)

theorem takeDescriptors_runs {agentId : String} : ∀ {items taken},
    (∀ a ∈ items, a.Valid nfc ∧ a.createdBy = agentId) → Distinct (taken ++ items) → ∀ h,
    ∃ h', takeDescriptors nfc agentId taken items h = (.ok (taken ++ items), h') ∧ h <+: h'
  | [], taken, _, _, h => ⟨h, by rw [List.append_nil]; rfl, List.prefix_rfl⟩
  | item :: rest, taken, hall, hd, h => by
    obtain ⟨⟨hv, hagent⟩, hrest⟩ := List.forall_mem_cons.mp hall
    have hsplit : taken ++ item :: rest = (taken ++ [item]) ++ rest := by simp
    rw [hsplit] at hd
    obtain ⟨-, hid, hname, hkey⟩ := distinct_concat.mp hd.of_append
    obtain ⟨h₁, hcheck, hp⟩ := recheckArtifact_runs hv h
    obtain ⟨h₂, hrun, hp'⟩ := takeDescriptors_runs hrest hd h₁
    refine ⟨h₂, ?_, hp.trans hp'⟩
    rw [hsplit]
    simp only [takeDescriptors, Txn.bind_ok, Txn.ensure_ok]
    exact ⟨item, h₁, hcheck, (), h₁, ⟨hagent, rfl⟩, (), h₁, ⟨hid, rfl⟩, (), h₁, ⟨hname, rfl⟩, (),
      h₁, ⟨hkey, rfl⟩, hrun⟩

/-! ### The dict form -/

theorem depthOf_wire_artifact (a : ScopedInvocationResultArtifactV2) : depthOf a.wire = 1 := by
  cases hp : a.parentVersion <;>
    simp [ArtifactOf.wire, ArtifactOf.members, depthOf, depthOfPairs, optionalIntValue, hp]

theorem depthOf_wire {m : ScopedInvocationResultManifestV2 Value}
    (hd : depthOf m.metadata ≤ maxMetadataDepth) : depthOf m.wire ≤ maxMetadataDepth + 1 := by
  have hitems : depthOfItems (m.artifacts.map ArtifactOf.wire) ≤ 1 := by
    apply depthOfItems_le.mpr
    intro v hv
    obtain ⟨a, -, rfl⟩ := List.mem_map.mp hv
    rw [depthOf_wire_artifact]
  have hbound : maxMetadataDepth = 64 := rfl
  have hprimary : depthOf (optionalStrValue m.primaryArtifactId) = 0 := by
    cases m.primaryArtifactId <;> rfl
  simp only [ManifestOf.wire, ManifestOf.members, ManifestOf.membersWith, ManifestOf.leading,
    List.cons_append, List.nil_append, depthOf, depthOfPairs, hprimary]
  omega

theorem wires_cost (items : List ScopedInvocationResultArtifactV2) :
    ((items.map ArtifactOf.wire).map (fun _ => 0)).sum = 0 := by
  induction items with
  | nil => rfl
  | cons a rest ih => simpa using ih

/-- Descriptors written one after the other. -/
theorem writeArtifacts_runs {items : List ScopedInvocationResultArtifactV2}
    (hall : ∀ a ∈ items, a.Valid nfc) (h : Heap) :
    ∃ slots h', Txn.forEach (artifactToDict nfc) items h = (.ok slots, h') ∧
      LandedAll id (fun _ => 0) plainView h h' slots (items.map ArtifactOf.wire) 0 := by
  have hruns : List.Forall₂ (fun a v => ∀ h', h <+: h' → 0 + 0 ≤ 0 →
      ∃ o h'', artifactToDict nfc a h' = (.ok o, h'') ∧
        Landed id (fun _ => 0) plainView h' h'' o v 0) items (items.map ArtifactOf.wire) := by
    rw [List.forall₂_map_right_iff]
    apply List.forall₂_same.mpr
    intro a ha h' _ _
    exact artifactToDict_runs (hall a ha) h'
  obtain ⟨slots, h', hrun, hland⟩ := @runs_forEach plainView _ ResultError _ id (fun _ => 0)
    (artifactToDict nfc) (fun _ => 0) 0 h items _ hruns h List.prefix_rfl (by rw [wires_cost])
  rw [wires_cost] at hland
  exact ⟨slots, h', hrun, hland⟩

theorem manifestFields_nodup : (manifestFields.map Obj.str).Nodup := by decide

/-- **A manifest is written as a new dict of its members.** -/
theorem wireDict_runs (spare : Nat) {own : Nat → Prop} {m : ScopedInvocationResultManifestV2 Obj} {v : Value}
    {h : Heap} (hv : Holds frozenView own h m.metadata v) (hobject : ∃ pairs, v = .dict pairs)
    (hd : depthOf v ≤ maxMetadataDepth) (hall : ∀ a ∈ m.artifacts, a.Valid nfc) :
    ∃ o h', wireDict nfc spare m h = (.ok o, h') ∧
      Landed id (fun _ => 0) plainView h h' o (m.withMetadata v).wire 0 := by
  obtain ⟨metadata, h₁, hthaw, hland₁⟩ := thawJson_runs spare hv hd
  obtain ⟨slots, h₂, hwrite, hland₂⟩ := writeArtifacts_runs hall h₁
  have hlist := @LandedAll.list plainView Heap id (fun _ => 0) h₁ h₂ (h₂ ++ [Cell.list slots]) _ _
    _ (.list slots) hland₂ rfl rfl rfl
  have hp₁ : h <+: h₁ := hland₁.grows
  have hp₃ : h₁ <+: h₂ ++ [Cell.list slots] := hlist.grows
  have hmetadata : Holds plainView (h.length ≤ ·) (h₂ ++ [Cell.list slots]) metadata v :=
    hland₁.holds.grow hp₃
  have hartifacts : Holds plainView (h.length ≤ ·) (h₂ ++ [Cell.list slots]) (.ref h₂.length)
      (.list (m.artifacts.map ArtifactOf.wire)) :=
    hlist.holds.mono (fun _ hid => Nat.le_trans hp₁.length_le hid)
  refine ⟨.ref (h₂ ++ [Cell.list slots]).length, h₂ ++ [Cell.list slots] ++
    [.dict (PyDict.ofPairs (manifestEntries m metadata (.ref h₂.length)))], ?_,
    (hp₁.trans hp₃).trans (List.prefix_append _ _), ?_, rfl⟩
  · simp only [wireDict, Txn.bind_ok, requireDict_ok]
    exact ⟨metadata, h₁, hthaw, (), h₁, ⟨(isDict_iff hland₁.holds).mpr hobject, rfl⟩, slots, h₂,
      hwrite, .ref h₂.length, h₂ ++ [Cell.list slots], rfl, rfl⟩
  · apply holds_newDict (hp₁.trans hp₃)
    · exact manifestFields_nodup
    · simp [manifestEntries, ManifestOf.members, ManifestOf.membersWith, ManifestOf.leading,
        ManifestOf.withMetadata, hmetadata, hartifacts]

/-! ### The constructor -/

/-- What was taken over passed its checks, and the metadata is a frozen copy in
new cells. -/
theorem takeManifest_ok {raw : RawManifest} {m : ScopedInvocationResultManifestV2 Obj} {h h' : Heap}
    (hrun : takeManifest nfc spare raw h = (.ok m, h')) :
    ∃ v, (m.withMetadata v).Sound nfc ∧ raw = (m.withMetadata raw.metadata).raw ∧ h <+: h' ∧
      Holds sequenceView (fun _ => True) h' raw.metadata v ∧
      Holds frozenView (h.length ≤ ·) h' m.metadata v := by
  simp only [takeManifest, Txn.bind_ok, Txn.lift_ok, Txn.ensure_ok, Txn.pure_ok,
    manifestIdentity_ok, optionalText_ok, checkEffect_ok] at hrun
  obtain ⟨identity, _, ⟨⟨hraw, hvalid⟩, rfl⟩, ⟨frozen, canonical⟩, h₁, hsnap, primary, _,
    ⟨⟨hprimary, htext⟩, rfl⟩, _, _, ⟨hcausation, rfl⟩, _, _, ⟨heffect, rfl⟩, _, _, ⟨hcount, rfl⟩,
    taken, h₂, htake, _, _, ⟨hnamed, rfl⟩, _, _, ⟨hresult, rfl⟩, rfl, rfl⟩ := hrun
  obtain ⟨v, hsrc, hgood, hp₁, hfrozen⟩ := snapshotJsonObject_ok hsnap
  obtain ⟨heq, hall, hdistinct, hp₂⟩ := takeDescriptors_ok htake
  rw [List.nil_append] at heq
  subst heq
  refine ⟨v, ⟨hvalid, hgood, htext, hcausation, heffect, hcount, hall,
    hdistinct ⟨List.nodup_nil, List.nodup_nil, List.nodup_nil⟩, hnamed, hresult⟩, ?_,
    hp₁.trans hp₂, hsrc.grow hp₂, hfrozen.grow hp₂⟩
  obtain ⟨rawIdentity, effectClass, metadata, primaryArtifactId, artifacts⟩ := raw
  simp only at hraw hprimary
  subst hraw
  subst hprimary
  rfl

theorem takeManifest_runs (spare : Nat) {m : ScopedInvocationResultManifestV2 Value} {o : Obj}
    {h : Heap} (hm : m.Sound nfc) (ho : Holds plainView (fun _ => True) h o m.metadata ∨
      Holds frozenView (fun _ => True) h o m.metadata) :
    ∃ frozen h', takeManifest nfc spare (m.withMetadata o).raw h =
        (.ok (m.withMetadata frozen), h') ∧ h <+: h' ∧
      Holds frozenView (h.length ≤ ·) h' frozen m.metadata := by
  obtain ⟨frozen, h₁, hsnap, hp₁, hfrozen⟩ :=
    snapshotJsonObject_runs spare "metadata" ho hm.metadata
  obtain ⟨h₂, htake, hp₂⟩ := @takeDescriptors_runs nfc m.agentId m.artifacts [] hm.artifacts
    (by rw [List.nil_append]; exact hm.distinct) h₁
  rw [List.nil_append] at htake
  refine ⟨frozen, h₂, ?_, hp₁.trans hp₂, hfrozen.grow hp₂⟩
  simp only [takeManifest, Txn.bind_ok, Txn.lift_ok, Txn.ensure_ok, Txn.pure_ok,
    manifestIdentity_ok, optionalText_ok, checkEffect_ok]
  exact ⟨m.toManifestIdentity, h, ⟨⟨rfl, hm.identity⟩, rfl⟩, _, h₁, hsnap, m.primaryArtifactId, h₁,
    ⟨⟨rfl, hm.primaryArtifactId⟩, rfl⟩, (), h₁, ⟨hm.causationId, rfl⟩, (), h₁, ⟨hm.effect, rfl⟩,
    (), h₁, ⟨hm.artifactCount, rfl⟩, m.artifacts, h₂, htake, (), h₂, ⟨hm.primaryNamed, rfl⟩, (),
    h₂, ⟨hm.resultRef, rfl⟩, rfl, rfl⟩

/-- **What the constructor makes**: the arguments passed every check, and the
metadata is a frozen copy in new cells. -/
theorem manifestV2_ok {raw : RawManifest} {m : ScopedInvocationResultManifestV2 Obj} {h h' : Heap}
    (hrun : manifestV2 nfc spare raw h = (.ok m, h')) :
    ∃ v, (m.withMetadata v).Valid nfc ∧ raw = (m.withMetadata raw.metadata).raw ∧ h <+: h' ∧
      Holds sequenceView (fun _ => True) h' raw.metadata v ∧
      Holds frozenView (h.length ≤ ·) h' m.metadata v := by
  simp only [manifestV2, Txn.bind_ok, Txn.ensure_ok, Txn.pure_ok] at hrun
  obtain ⟨m', h₁, htake, wire, h₂, hwire, bytes, h₃, hbytes, _, _, ⟨hsize, rfl⟩, rfl, rfl⟩ := hrun
  obtain ⟨v, hsound, hraw, hp₁, hsrc, hfrozen⟩ := takeManifest_ok htake
  obtain ⟨o, h₄, hwire', hland⟩ := wireDict_runs spare hfrozen hsound.metadata.object
    hsound.metadata.depth (fun a ha => (hsound.artifacts a ha).1)
  rw [hwire] at hwire'
  cases hwire'
  have hp₂ : h₁ <+: h₂ := hland.grows
  have hcanonical : canonicalJsonBytes spare wire h₂ =
      (.ok (dumps (m'.withMetadata v).wire).toUTF8, h₂) :=
    canonicalJsonBytes_runs spare hland.holds (depthOf_wire hsound.metadata.depth)
  rw [hbytes, Prod.mk.injEq, Except.ok.injEq] at hcanonical
  obtain ⟨hsame, rfl⟩ := hcanonical
  rw [hsame] at hsize
  exact ⟨v, ⟨hsound, hsize⟩, hraw, hp₁.trans hp₂, hsrc.grow hp₂, hfrozen.grow hp₂⟩

/-- **Arguments that pass every check make a manifest**, from metadata that is
plain or frozen. -/
theorem manifestV2_runs (spare : Nat) {m : ScopedInvocationResultManifestV2 Value} {o : Obj}
    {h : Heap} (hm : m.Valid nfc) (ho : Holds plainView (fun _ => True) h o m.metadata ∨
      Holds frozenView (fun _ => True) h o m.metadata) :
    ∃ frozen h', manifestV2 nfc spare (m.withMetadata o).raw h =
        (.ok (m.withMetadata frozen), h') ∧ h <+: h' ∧
      Holds frozenView (h.length ≤ ·) h' frozen m.metadata := by
  have hmetadata := hm.sound.metadata
  obtain ⟨frozen, h₁, htake, hp₁, hfrozen⟩ := takeManifest_runs spare hm.sound ho
  obtain ⟨wire, h₂, hwire, hland⟩ := wireDict_runs spare (m := m.withMetadata frozen) hfrozen
    hmetadata.object hmetadata.depth (fun a ha => (hm.sound.artifacts a ha).1)
  have hp₂ : h₁ <+: h₂ := hland.grows
  have hbytes : canonicalJsonBytes spare wire h₂ = (.ok (dumps m.wire).toUTF8, h₂) :=
    canonicalJsonBytes_runs spare hland.holds (depthOf_wire (m := m) hmetadata.depth)
  refine ⟨frozen, h₂, ?_, hp₁.trans hp₂, hfrozen.grow hp₂⟩
  simp only [manifestV2, Txn.bind_ok, Txn.ensure_ok, Txn.pure_ok]
  exact ⟨_, h₁, htake, wire, h₂, hwire, _, h₂, hbytes, (), h₂, ⟨hm.bytes, rfl⟩, rfl, rfl⟩

end Manifests

end QuantumEntanglement.Results
