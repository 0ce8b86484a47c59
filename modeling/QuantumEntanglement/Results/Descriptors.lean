import QuantumEntanglement.Lib.ExactDict
import QuantumEntanglement.Results.Texts

/-
  Artifact descriptors — one artifact version named by an invocation result

  A descriptor is checked field by field when it is made, and again whenever it
  is written as a dict. Its dict form has eleven entries and is read back by an
  exact set of keys.

  What is proved:
    1. `artifactV2_ok` — which fields make a descriptor.
    2. `artifactToDict_runs` — a descriptor is written as a new dict of its
       members.
    3. `artifactFromDict_ok` — a dict that is read as a descriptor holds the
       members, in some order, and `artifactFromDict_runs` — a dict that is
       equal to a descriptor's as JSON is read as it.

  Correspondence (Python ↔ Lean):
    `_exact_dict`, `raw[...]`                    ↔ `exactDict`, `member`
    `ScopedInvocationResultArtifactV2(...)`      ↔ `artifactV2`
-/

namespace QuantumEntanglement.Results

open PyJson PyHeap PyText Transaction Checked

def require (c : Prop) [Decidable c] (e : ResultError) : Except ResultError Unit :=
  if c then .ok () else .error e

@[simp] theorem require_ok {c : Prop} [Decidable c] {e : ResultError} {u : Unit} :
    require c e = .ok u ↔ c := by
  rw [require]
  split
  next h => simp [h]
  next h => simp [h]

/-! ## Exact dicts -/

/-- `type(key) is str`. -/
def isPlainString : Obj → Bool
  | .str _ => true
  | .surrogates _ => true
  | _ => false

/-- `_exact_dict`. -/
def exactDict (value : Obj) (fields : List String) (label : String) :
    Txn Heap ResultError PyDict := do
  match (← Txn.query (fun h => shapeOf plainView h value)) with
  | some (.dict d) => do
    Txn.ensure (∀ e ∈ d.entries, isPlainString e.1 = true)
      (.typeError (label ++ " keys must be plain strings"))
    Txn.ensure (d.HasFields fields)
      (.valueError (label ++ " fields do not match its exact schema version"))
    pure d
  | _ => Txn.raise (.typeError (label ++ " must be a plain dictionary"))

/-- `raw[name]`. -/
def member (d : PyDict) (name : String) : Except ResultError Obj :=
  match d.get? name with
  | some o => .ok o
  | none => .error (.keyError name)

@[simp] theorem member_ok {d : PyDict} {name : String} {o : Obj} :
    member d name = .ok o ↔ d.get? name = some o := by
  unfold member
  split
  next h => simp [h]
  next h => simp [h]

theorem exactDict_ok {value : Obj} {fields : List String} {label : String} {d : PyDict}
    {h h' : Heap} : exactDict value fields label h = (.ok d, h') ↔
      shapeOf plainView h value = some (.dict d) ∧ d.HasFields fields ∧ h = h' := by
  rw [exactDict, Txn.bind_ok]
  constructor
  · intro hrun
    obtain ⟨_, _, hread, hrun⟩ := hrun
    obtain ⟨rfl, rfl⟩ := Txn.query_ok.mp hread
    cases hshape : shapeOf plainView h value with
    | none =>
      rw [hshape] at hrun
      cases hrun
    | some shape =>
      rw [hshape] at hrun
      cases shape with
      | dict d' =>
        simp only [Txn.bind_ok, Txn.ensure_ok, Txn.pure_ok] at hrun
        obtain ⟨_, _, ⟨-, rfl⟩, _, _, ⟨hfields, rfl⟩, rfl, rfl⟩ := hrun
        exact ⟨rfl, hfields, rfl⟩
      | list _ => cases hrun
      | tuple _ => cases hrun
  · intro hread
    obtain ⟨hshape, hfields, rfl⟩ := hread
    refine ⟨_, h, Txn.query_ok.mpr ⟨rfl, rfl⟩, ?_⟩
    rw [hshape]
    simp only [Txn.bind_ok, Txn.ensure_ok, Txn.pure_ok]
    refine ⟨(), h, ⟨?_, rfl⟩, (), h, ⟨hfields, rfl⟩, trivial, rfl⟩
    intro e he
    obtain ⟨name, -, hkey⟩ := hfields.1 e he
    rw [hkey]
    rfl

/-! ## Descriptors -/

/-- The fields of a descriptor: texts in `τ`, numbers in `ν`, and the version
before this one in `π`. -/
structure ArtifactOf (τ ν π : Type) where
  artifactId : τ
  name : τ
  version : ν
  parentVersion : π
  mediaType : τ
  blobDigest : τ
  byteSize : ν
  metadataDigest : τ
  createdBy : τ
  idempotencyKey : τ
  requestDigest : τ
  deriving DecidableEq

/-- `ScopedInvocationResultArtifactV2`. -/
abbrev ScopedInvocationResultArtifactV2 := ArtifactOf String Int (Option Int)

/-- The arguments of the constructor, of any types. -/
abbrev RawArtifact := ArtifactOf Obj Obj Obj

/-- An integer or `None`. -/
def optionalInt : Option Int → Obj
  | none => .null
  | some n => .int n

def optionalIntValue : Option Int → Value
  | none => .null
  | some n => .int n

/-- A descriptor's fields as objects. -/
def ArtifactOf.raw (a : ScopedInvocationResultArtifactV2) : RawArtifact where
  artifactId := .str a.artifactId
  name := .str a.name
  version := .int a.version
  parentVersion := optionalInt a.parentVersion
  mediaType := .str a.mediaType
  blobDigest := .str a.blobDigest
  byteSize := .int a.byteSize
  metadataDigest := .str a.metadataDigest
  createdBy := .str a.createdBy
  idempotencyKey := .str a.idempotencyKey
  requestDigest := .str a.requestDigest

/-- The check of `parent_version` against the version. -/
def parentVersionOf (value : Obj) (version : Int) : Except ResultError (Option Int) :=
  if value = .null then do
    require (version = 1) (.valueError "parentVersion is required after artifact version 1")
    .ok none
  else do
    let parent ← positiveInteger value "parentVersion"
    require (parent = version - 1)
      (.valueError "parentVersion must immediately precede version")
    .ok (some parent)

/-- The version before a version. -/
def ParentFits (parent : Option Int) (version : Int) : Prop :=
  match parent with
  | none => version = 1
  | some p => 1 ≤ p ∧ p = version - 1

theorem parentVersionOf_ok {value : Obj} {version : Int} {parent : Option Int}
    (hv : version ≤ maxSqliteInteger) : parentVersionOf value version = .ok parent ↔
      value = optionalInt parent ∧ ParentFits parent version := by
  rw [parentVersionOf]
  split
  next hnull =>
    subst hnull
    simp only [except_bind_ok, require_ok, Except.ok.injEq]
    cases parent with
    | none => simp [optionalInt, ParentFits]
    | some p => simp [optionalInt]
  next hnull =>
    simp only [except_bind_ok, require_ok, Except.ok.injEq, positiveInteger_ok]
    cases parent with
    | none => simp [optionalInt, hnull]
    | some p =>
      simp only [optionalInt, ParentFits, Option.some.injEq]
      constructor
      · intro h
        obtain ⟨_, ⟨rfl, hone, -⟩, _, rfl, rfl⟩ := h
        exact ⟨rfl, hone, rfl⟩
      · intro h
        obtain ⟨rfl, hone, rfl⟩ := h
        exact ⟨version - 1, ⟨rfl, hone, by omega⟩, (), rfl, rfl⟩

/-- A media type has no white space and a slash. -/
def IsMediaType (s : String) : Prop := s.toList.any isSpace = false ∧ '/' ∈ s.toList

instance (s : String) : Decidable (IsMediaType s) := inferInstanceAs (Decidable (_ ∧ _))

section Descriptors

variable (nfc : String → String)

/-- `ScopedInvocationResultArtifactV2.__post_init__`. -/
def artifactV2 (raw : RawArtifact) : Except ResultError ScopedInvocationResultArtifactV2 := do
  let artifactId ← text nfc raw.artifactId "artifactId" maxIdentityBytes
  let name ← text nfc raw.name "name" maxIdentityBytes
  let createdBy ← text nfc raw.createdBy "createdBy" maxIdentityBytes
  let idempotencyKey ← text nfc raw.idempotencyKey "idempotencyKey" maxIdentityBytes
  let version ← positiveInteger raw.version "version"
  let parentVersion ← parentVersionOf raw.parentVersion version
  let mediaType ← text nfc raw.mediaType "mediaType" maxMediaTypeBytes
  require (IsMediaType mediaType) (.valueError "mediaType must be a whitespace-free type/subtype")
  let blobDigest ← blobDigest nfc raw.blobDigest
  let byteSize ← nonnegativeInteger raw.byteSize "byteSize"
  let metadataDigest ← digest nfc raw.metadataDigest "metadataDigest"
  let requestDigest ← digest nfc raw.requestDigest "requestDigest"
  .ok { artifactId, name, version, parentVersion, mediaType, blobDigest, byteSize, metadataDigest,
        createdBy, idempotencyKey, requestDigest }

/-- The entries of a descriptor's dict. -/
def artifactEntries (a : ScopedInvocationResultArtifactV2) : List (Obj × Obj) :=
  [(.str "artifactId", .str a.artifactId), (.str "name", .str a.name),
   (.str "version", .int a.version), (.str "parentVersion", optionalInt a.parentVersion),
   (.str "mediaType", .str a.mediaType), (.str "blobDigest", .str a.blobDigest),
   (.str "byteSize", .int a.byteSize), (.str "metadataDigest", .str a.metadataDigest),
   (.str "createdBy", .str a.createdBy), (.str "idempotencyKey", .str a.idempotencyKey),
   (.str "requestDigest", .str a.requestDigest)]

/-- `_ARTIFACT_FIELDS`. -/
def artifactFields : List String :=
  ["artifactId", "name", "version", "parentVersion", "mediaType", "blobDigest", "byteSize",
   "metadataDigest", "createdBy", "idempotencyKey", "requestDigest"]

/-- `ScopedInvocationResultArtifactV2.to_dict`. -/
def artifactToDict (a : ScopedInvocationResultArtifactV2) : Txn Heap ResultError Obj := do
  let checked ← Txn.lift (artifactV2 nfc a.raw)
  alloc (.dict (PyDict.ofPairs (artifactEntries checked)))

/-- The fields as the dict has them. -/
def rawArtifact (d : PyDict) : Except ResultError RawArtifact := do
  let artifactId ← member d "artifactId"
  let name ← member d "name"
  let version ← member d "version"
  let parentVersion ← member d "parentVersion"
  let mediaType ← member d "mediaType"
  let blobDigest ← member d "blobDigest"
  let byteSize ← member d "byteSize"
  let metadataDigest ← member d "metadataDigest"
  let createdBy ← member d "createdBy"
  let idempotencyKey ← member d "idempotencyKey"
  let requestDigest ← member d "requestDigest"
  .ok { artifactId, name, version, parentVersion, mediaType, blobDigest, byteSize, metadataDigest,
        createdBy, idempotencyKey, requestDigest }

/-- `ScopedInvocationResultArtifactV2.from_dict`. -/
def artifactFromDict (value : Obj) : Txn Heap ResultError ScopedInvocationResultArtifactV2 := do
  let d ← exactDict value artifactFields "result artifact descriptor"
  let raw ← Txn.lift (rawArtifact d)
  Txn.lift (artifactV2 nfc raw)

/-! ## What a descriptor is -/

/-- A descriptor that passes every check. -/
structure ArtifactOf.Valid (a : ScopedInvocationResultArtifactV2) : Prop where
  artifactId : IsText nfc maxIdentityBytes a.artifactId
  name : IsText nfc maxIdentityBytes a.name
  createdBy : IsText nfc maxIdentityBytes a.createdBy
  idempotencyKey : IsText nfc maxIdentityBytes a.idempotencyKey
  version : 1 ≤ a.version ∧ a.version ≤ maxSqliteInteger
  parentVersion : ParentFits a.parentVersion a.version
  mediaText : IsText nfc maxMediaTypeBytes a.mediaType
  mediaType : IsMediaType a.mediaType
  blobText : IsText nfc 71 a.blobDigest
  blobDigest : IsBlobDigest a.blobDigest
  byteSize : 0 ≤ a.byteSize ∧ a.byteSize ≤ maxSqliteInteger
  metadataText : IsText nfc 64 a.metadataDigest
  metadataDigest : Sha256.IsHexDigest a.metadataDigest
  requestText : IsText nfc 64 a.requestDigest
  requestDigest : Sha256.IsHexDigest a.requestDigest

/-- The members of a descriptor. -/
def ArtifactOf.members (a : ScopedInvocationResultArtifactV2) : List (String × Value) :=
  [("artifactId", .str a.artifactId), ("name", .str a.name), ("version", .int a.version),
   ("parentVersion", optionalIntValue a.parentVersion), ("mediaType", .str a.mediaType),
   ("blobDigest", .str a.blobDigest), ("byteSize", .int a.byteSize),
   ("metadataDigest", .str a.metadataDigest), ("createdBy", .str a.createdBy),
   ("idempotencyKey", .str a.idempotencyKey), ("requestDigest", .str a.requestDigest)]

/-- A descriptor as JSON. -/
def ArtifactOf.wire (a : ScopedInvocationResultArtifactV2) : Value := .dict a.members

variable {nfc}

theorem artifactV2_ok {raw : RawArtifact} {a : ScopedInvocationResultArtifactV2} :
    artifactV2 nfc raw = .ok a ↔ raw = a.raw ∧ a.Valid nfc := by
  simp only [artifactV2, except_bind_ok, text_ok, positiveInteger_ok, require_ok, blobDigest_ok,
    nonnegativeInteger_ok, digest_ok, Except.ok.injEq]
  constructor
  · intro h
    obtain ⟨_, ⟨h₁, t₁⟩, _, ⟨h₂, t₂⟩, _, ⟨h₃, t₃⟩, _, ⟨h₄, t₄⟩, _, ⟨h₅, t₅⟩, _, hparent, _,
      ⟨h₇, t₇⟩, _, hmedia, _, ⟨h₈, t₈, b₈⟩, _, ⟨h₉, t₉⟩, _, ⟨h₁₀, t₁₀, b₁₀⟩, _, ⟨h₁₁, t₁₁, b₁₁⟩,
      rfl⟩ := h
    obtain ⟨h₆, t₆⟩ := (parentVersionOf_ok t₅.2).mp hparent
    refine ⟨?_, ⟨t₁, t₂, t₃, t₄, t₅, t₆, t₇, hmedia, t₈, b₈, t₉, t₁₀, b₁₀, t₁₁, b₁₁⟩⟩
    rw [ArtifactOf.raw, ← h₁, ← h₂, ← h₃, ← h₄, ← h₅, ← h₆, ← h₇, ← h₈, ← h₉, ← h₁₀, ← h₁₁]
  · intro h
    obtain ⟨rfl, hv⟩ := h
    exact ⟨_, ⟨rfl, hv.artifactId⟩, _, ⟨rfl, hv.name⟩, _, ⟨rfl, hv.createdBy⟩, _,
      ⟨rfl, hv.idempotencyKey⟩, _, ⟨rfl, hv.version⟩, _,
      (parentVersionOf_ok hv.version.2).mpr ⟨rfl, hv.parentVersion⟩, _, ⟨rfl, hv.mediaText⟩, (),
      hv.mediaType, _, ⟨rfl, hv.blobText, hv.blobDigest⟩, _, ⟨rfl, hv.byteSize⟩, _,
      ⟨rfl, hv.metadataText, hv.metadataDigest⟩, _, ⟨rfl, hv.requestText, hv.requestDigest⟩, rfl⟩

theorem scalar_optionalInt (n : Option Int) :
    scalar (optionalInt n) = some (optionalIntValue n) := by
  cases n <;> rfl

@[simp] theorem holds_optionalInt {view : View} {own : Nat → Prop} {h : Heap} {n : Option Int} :
    Holds view own h (optionalInt n) (optionalIntValue n) :=
  holds_of_scalar (scalar_optionalInt n)

/-- **A descriptor is written as a new dict of its members.** -/
theorem artifactToDict_runs {a : ScopedInvocationResultArtifactV2} (hv : a.Valid nfc) (h : Heap) :
    ∃ o h', artifactToDict nfc a h = (.ok o, h') ∧
      Landed id (fun _ => 0) plainView h h' o a.wire 0 := by
  refine ⟨.ref h.length, h ++ [.dict (PyDict.ofPairs (artifactEntries a))], ?_,
    List.prefix_append _ _, ?_, rfl⟩
  · rw [artifactToDict, Txn.bind_ok]
    exact ⟨a, h, Txn.lift_ok.mpr ⟨artifactV2_ok.mpr ⟨rfl, hv⟩, rfl⟩, rfl⟩
  · apply holds_newDict List.prefix_rfl
    · show (artifactFields.map Obj.str).Nodup
      decide
    · simp [artifactEntries, ArtifactOf.members]

theorem rawArtifact_ok {d : PyDict} {raw : RawArtifact} :
    rawArtifact d = .ok raw ↔
      d.get? "artifactId" = some raw.artifactId ∧ d.get? "name" = some raw.name ∧
      d.get? "version" = some raw.version ∧ d.get? "parentVersion" = some raw.parentVersion ∧
      d.get? "mediaType" = some raw.mediaType ∧ d.get? "blobDigest" = some raw.blobDigest ∧
      d.get? "byteSize" = some raw.byteSize ∧
      d.get? "metadataDigest" = some raw.metadataDigest ∧
      d.get? "createdBy" = some raw.createdBy ∧
      d.get? "idempotencyKey" = some raw.idempotencyKey ∧
      d.get? "requestDigest" = some raw.requestDigest := by
  simp only [rawArtifact, except_bind_ok, member_ok, Except.ok.injEq]
  constructor
  · intro h
    obtain ⟨_, h₁, _, h₂, _, h₃, _, h₄, _, h₅, _, h₆, _, h₇, _, h₈, _, h₉, _, h₁₀, _, h₁₁, rfl⟩ := h
    exact ⟨h₁, h₂, h₃, h₄, h₅, h₆, h₇, h₈, h₉, h₁₀, h₁₁⟩
  · intro h
    obtain ⟨h₁, h₂, h₃, h₄, h₅, h₆, h₇, h₈, h₉, h₁₀, h₁₁⟩ := h
    exact ⟨_, h₁, _, h₂, _, h₃, _, h₄, _, h₅, _, h₆, _, h₇, _, h₈, _, h₉, _, h₁₀, _, h₁₁, rfl⟩

/-- Every member of a descriptor is the value of an object of its own. -/
theorem artifact_member {a : ScopedInvocationResultArtifactV2} {d : PyDict}
    (hraw : rawArtifact d = .ok a.raw) :
    ∀ p ∈ a.members, ∃ o, scalar o = some p.2 ∧ d.get? p.1 = some o := by
  obtain ⟨h₁, h₂, h₃, h₄, h₅, h₆, h₇, h₈, h₉, h₁₀, h₁₁⟩ := rawArtifact_ok.mp hraw
  simp only [ArtifactOf.members, List.forall_mem_cons]
  exact ⟨⟨_, rfl, h₁⟩, ⟨_, rfl, h₂⟩, ⟨_, rfl, h₃⟩, ⟨_, scalar_optionalInt _, h₄⟩, ⟨_, rfl, h₅⟩,
    ⟨_, rfl, h₆⟩, ⟨_, rfl, h₇⟩, ⟨_, rfl, h₈⟩, ⟨_, rfl, h₉⟩, ⟨_, rfl, h₁₀⟩, ⟨_, rfl, h₁₁⟩,
    fun _ hp => absurd hp List.not_mem_nil⟩

theorem members_nodup (a : ScopedInvocationResultArtifactV2) : (a.members.map Prod.fst).Nodup := by
  show artifactFields.Nodup
  decide

/-- **A dict read as a descriptor holds its members**, in some order. -/
theorem artifactFromDict_ok {o : Obj} {a : ScopedInvocationResultArtifactV2} {h h' : Heap}
    (hrun : artifactFromDict nfc o h = (.ok a, h')) :
    h = h' ∧ a.Valid nfc ∧
      ∃ pairs, Holds plainView (fun _ => True) h o (.dict pairs) ∧ pairs.Perm a.members := by
  simp only [artifactFromDict, Txn.bind_ok, exactDict_ok, Txn.lift_ok] at hrun
  obtain ⟨d, _, ⟨hshape, hfields, rfl⟩, raw, _, ⟨hraw, rfl⟩, hmade, rfl⟩ := hrun
  obtain ⟨rfl, hv⟩ := artifactV2_ok.mp hmade
  refine ⟨rfl, hv, ?_⟩
  obtain ⟨id, rfl⟩ : ∃ id, o = .ref id := by
    cases o with
    | ref id => exact ⟨id, rfl⟩
    | _ => cases hshape
  obtain ⟨pairs, hall, hperm⟩ := @holds_of_fields plainView (fun _ => True) h d a.members
    (members_nodup a) hfields (by
      intro p hp o hget
      obtain ⟨o', hs, hget'⟩ := artifact_member hraw p hp
      rw [hget] at hget'
      cases hget'
      exact holds_of_scalar hs)
  exact ⟨pairs, ⟨id, d, rfl, trivial, hshape, hall⟩, hperm⟩

/-- **A dict that is equal to a descriptor's as JSON is read as it.** -/
theorem artifactFromDict_runs {own : Nat → Prop} {o : Obj} {t : Value}
    {a : ScopedInvocationResultArtifactV2} {h : Heap} (hv : a.Valid nfc)
    (ho : Holds plainView own h o t) (heq : PyJson.normalize t = PyJson.normalize a.wire) :
    artifactFromDict nfc o h = (.ok a, h) := by
  have htidy : Tidy a.wire := by
    obtain ⟨o', h', -, hland⟩ := artifactToDict_runs hv h
    exact Holds.tidy _ _ hland.holds
  obtain ⟨pairs, rfl, hkeys, hmembers⟩ := member_of_normalize (Holds.tidy _ _ ho) htidy heq
  obtain ⟨id, d, rfl, -, hs, hall⟩ := ho
  have hget : ∀ {name : String} {v : Value} {o : Obj}, (name, v) ∈ a.members →
      scalar o = some v → d.get? name = some o :=
    fun hmem hscalar => get?_scalar hall (hmembers _ hmem) hscalar
  have hraw : rawArtifact d = .ok a.raw := by
    apply rawArtifact_ok.mpr
    refine ⟨hget ?_ rfl, hget ?_ rfl, hget ?_ rfl, hget ?_ (scalar_optionalInt _), hget ?_ rfl,
      hget ?_ rfl, hget ?_ rfl, hget ?_ rfl, hget ?_ rfl, hget ?_ rfl, hget ?_ rfl⟩ <;>
      simp [ArtifactOf.members]
  simp only [artifactFromDict, Txn.bind_ok, exactDict_ok, Txn.lift_ok]
  exact ⟨d, h, ⟨hs, hasFields_of_holds hall hkeys, rfl⟩, a.raw, h, ⟨hraw, rfl⟩,
    artifactV2_ok.mpr ⟨rfl, hv⟩, rfl⟩

end Descriptors

end QuantumEntanglement.Results
