import QuantumEntanglement.ArtifactStore.Metadata
import QuantumEntanglement.Attempts.Records

/-
  Artifact records — what is written, what is stored, and how a row is read

  An artifact is one version of a named content inside a scope (a tenant and a
  workspace) and a session. Its row carries a fingerprint of the request that
  wrote it, and names a blob by the digest of its bytes; reading a row checks
  both again, and everything else the row says.

  A field whose Python type is `str`, `int` or `bytes` has that type here, so
  the branches that reject another type have no counterpart.

  What is proved:
    1. `rowToArtifact_ok` — a row that is as the store writes it is read, as
       the artifact its columns spell out.

  Correspondence (Python ↔ Lean):
    `artifact_blobs`, `artifact_versions`      ↔ `BlobRow`, `VersionRow`
-/

namespace QuantumEntanglement.ArtifactStore

open PyJson IsoTime Sha256

/-! ## Values and rows -/

/-- The limits of a store. -/
structure ArtifactStoreConfig where
  maxContentBytes : Nat
  maxMetadataBytes : Nat
  maxHistoryBytes : Nat
  py : PyVersion
  positive : 0 < maxContentBytes ∧ 0 < maxMetadataBytes ∧ 0 < maxHistoryBytes

/-- What `ArtifactWrite.__post_init__` checks of the texts; no `bytes` object
has more than `sys.maxsize` bytes. Metadata can be changed after that check and
is checked again by every write. -/
structure ArtifactWrite where
  tenantId : String
  workspaceId : String
  sessionId : String
  taskId : String
  name : String
  content : List UInt8
  createdBy : String
  idempotencyKey : String
  mediaType : String
  metadata : Value
  artifactId : String
  texts : ∀ t ∈ [tenantId, workspaceId, sessionId, taskId, name, createdBy, idempotencyKey, artifactId],
    TextOk maxIdentifierLength t
  media : TextOk maxMediaTypeLength mediaType
  sized : content.length ≤ maxSqliteInteger

structure BlobRow where
  digest : String
  content : List UInt8
  byteSize : Nat
  createdAt : String
  deriving DecidableEq

structure VersionRow where
  artifactId : String
  tenantId : String
  workspaceId : String
  sessionId : String
  taskId : String
  name : String
  version : Nat
  parentVersion : Option Nat
  mediaType : String
  blobDigest : String
  byteSize : Nat
  metadataJson : String
  createdBy : String
  createdAt : String
  idempotencyKey : String
  requestDigest : String
  deriving DecidableEq

/-- `version.*, blob.content, blob.byte_size AS blob_byte_size`. -/
structure JoinedRow where
  version : VersionRow
  content : List UInt8
  blobByteSize : Nat
  deriving DecidableEq

structure StoredArtifact where
  artifactId : String
  tenantId : String
  workspaceId : String
  sessionId : String
  taskId : String
  name : String
  version : Nat
  parentVersion : Option Nat
  mediaType : String
  digest : String
  byteSize : Nat
  metadata : Value
  createdBy : String
  createdAt : String
  idempotencyKey : String
  requestDigest : String
  content : List UInt8
  deriving DecidableEq

/-! ## Timestamps and digests -/

/-- `_normalize_timestamp`. The pattern's `\d` is read as an ASCII digit. -/
def normalizeTimestamp (py : PyVersion) (value name : String) : Except StoreError String :=
  if !isRfc3339 value.toList || "-00:00".toList.isSuffixOf value.toList then
    valueError (name ++ " must be a strict RFC 3339 timestamp")
  else
    match timestampMoment py value name with
    | .ok m => .ok (Attempts.microText m)
    | .error e => .error e

/-- `_content_digest`. -/
def contentDigest (content : List UInt8) : String :=
  "sha256:" ++ hexDigestBytes (content.map UInt8.toNat)

/-- `_request_digest`. -/
def requestDigest (tenantId workspaceId sessionId taskId name mediaType blobDigest : String)
    (byteSize : Nat) (metadata : Value) (createdBy : String) : String :=
  hexDigest (dumps (.dict
    [("tenantId", .str tenantId), ("workspaceId", .str workspaceId), ("sessionId", .str sessionId),
      ("taskId", .str taskId), ("name", .str name), ("mediaType", .str mediaType),
      ("blobDigest", .str blobDigest), ("byteSize", .int byteSize), ("metadata", metadata),
      ("createdBy", .str createdBy)]))

/-- `sha256:` and 64 lowercase hexadecimal digits. -/
def isContentDigest (digest : String) : Bool :=
  "sha256:".toList.isPrefixOf digest.toList &&
    decide (IsHexDigest (String.ofList (digest.toList.drop 7)))

/-- A write, prepared. -/
structure Prepared where
  metadataJson : String
  digest : String
  requestDigest : String

/-- `_prepare`. -/
def prepare (cfg : ArtifactStoreConfig) (spec : ArtifactWrite) : Except StoreError Prepared := do
  if cfg.maxContentBytes < spec.content.length then
    tooLarge ("artifact content exceeds " ++ toString cfg.maxContentBytes ++ " bytes")
  else
    let (metadataJson, metadata) ← canonicalMetadata spec.metadata
    if cfg.maxMetadataBytes < metadataJson.utf8ByteSize then
      tooLarge ("artifact metadata exceeds " ++ toString cfg.maxMetadataBytes ++ " bytes")
    else
      let digest := contentDigest spec.content
      .ok ⟨metadataJson, digest,
        requestDigest spec.tenantId spec.workspaceId spec.sessionId spec.taskId spec.name
          spec.mediaType digest spec.content.length metadata spec.createdBy⟩

/-! ## Reading a row -/

/-- `_persisted_integer`. -/
def persistedIntegerFrom (value : Nat) (name : String) (minimum : Nat) : Except StoreError Nat :=
  if minimum ≤ value ∧ value ≤ maxSqliteInteger then .ok value
  else valueError ("persisted " ++ name ++ " is outside the supported range")

/-- A parent version, which may be NULL. -/
def persistedParent : Option Nat → Except StoreError (Option Nat)
  | none => .ok none
  | some parent => (persistedIntegerFrom parent "parent_version" 1).map some

/-- The `except` clause around a row's fields: the errors it turns into an
integrity error. -/
def asIntegrity {α : Type} (message : String) (r : Except StoreError α) : Except StoreError α :=
  match r with
  | .ok a => .ok a
  | .error e =>
    match e.kind with
    | .valueError => integrityError message
    | .typeError => integrityError message
    | .artifactTooLarge => integrityError message
    | _ => .error e

/-- The parent a version has. -/
def parentOf (version : Nat) : Option Nat := if 1 < version then some (version - 1) else none

/-- The checks of the columns, one after the other. -/
def checkColumns (py : PyVersion) (row : VersionRow) (blobByteSize : Nat) (metadata : Value) :
    Except StoreError Unit := do
  let _ ← visit "metadata" 0 0 metadata
  let _ ← requiredText row.artifactId "artifact_id" maxIdentifierLength
  let _ ← requiredText row.tenantId "tenant_id" maxIdentifierLength
  let _ ← requiredText row.workspaceId "workspace_id" maxIdentifierLength
  let _ ← requiredText row.sessionId "session_id" maxIdentifierLength
  let _ ← requiredText row.taskId "task_id" maxIdentifierLength
  let _ ← requiredText row.name "name" maxIdentifierLength
  let _ ← requiredText row.mediaType "media_type" maxMediaTypeLength
  let _ ← requiredText row.createdBy "created_by" maxIdentifierLength
  let _ ← requiredText row.idempotencyKey "idempotency_key" maxIdentifierLength
  let _ ← requiredText row.blobDigest "blob_digest" 71
  let _ ← demand (isContentDigest row.blobDigest = true)
    "persisted blob_digest is not canonical SHA-256"
  let _ ← requiredText row.requestDigest "request_digest" 64
  let _ ← demand (IsHexDigest row.requestDigest) "persisted request_digest is not canonical SHA-256"
  let _ ← persistedIntegerFrom row.byteSize "byte_size" 0
  let _ ← persistedIntegerFrom blobByteSize "blob_byte_size" 0
  let _ ← persistedIntegerFrom row.version "version" 1
  let _ ← persistedParent row.parentVersion
  let _ ← requiredText row.createdAt "created_at" 32
  let createdAt ← normalizeTimestamp py row.createdAt "created_at"
  demand (row.createdAt = createdAt) "persisted created_at is not canonical UTC"

/-- The fingerprint a row's columns should have. -/
def VersionRow.fingerprint (row : VersionRow) (metadata : Value) : String :=
  ArtifactStore.requestDigest row.tenantId row.workspaceId row.sessionId row.taskId row.name
    row.mediaType row.blobDigest row.byteSize metadata row.createdBy

/-- The artifact the columns spell out. -/
def JoinedRow.artifact (j : JoinedRow) (metadata : Value) : StoredArtifact where
  artifactId := j.version.artifactId
  tenantId := j.version.tenantId
  workspaceId := j.version.workspaceId
  sessionId := j.version.sessionId
  taskId := j.version.taskId
  name := j.version.name
  version := j.version.version
  parentVersion := j.version.parentVersion
  mediaType := j.version.mediaType
  digest := j.version.blobDigest
  byteSize := j.version.byteSize
  metadata := metadata
  createdBy := j.version.createdBy
  createdAt := j.version.createdAt
  idempotencyKey := j.version.idempotencyKey
  requestDigest := j.version.requestDigest
  content := j.content

/-- `_row_to_artifact`. -/
def rowToArtifact (py : PyVersion) (j : JoinedRow) : Except StoreError StoredArtifact :=
  match loads j.version.metadataJson with
  | none => integrityError "artifact row contains malformed data"
  | some metadata =>
    if isObject metadata = false then integrityError "artifact metadata is not a JSON object"
    else do
      let _ ← asIntegrity "artifact row violates its data contract"
        (checkColumns py j.version j.blobByteSize metadata)
      if contentDigest j.content ≠ j.version.blobDigest then
        integrityError "artifact blob digest verification failed"
      else if j.content.length ≠ j.version.byteSize ∨ j.content.length ≠ j.blobByteSize then
        integrityError "artifact byte size verification failed"
      else if j.version.fingerprint metadata ≠ j.version.requestDigest then
        integrityError "artifact request fingerprint verification failed"
      else if j.version.version = 0 ∨ j.version.parentVersion ≠ parentOf j.version.version then
        integrityError "artifact version lineage is invalid"
      else .ok (j.artifact metadata)

/-! ## Rows as the store writes them -/

/-- What a write checked of the columns it stores. -/
structure RowOk (row : VersionRow) (metadata : Value) : Prop where
  texts : ∀ t ∈ [row.tenantId, row.workspaceId, row.sessionId, row.taskId, row.name, row.createdBy,
    row.idempotencyKey, row.artifactId], TextOk maxIdentifierLength t
  media : TextOk maxMediaTypeLength row.mediaType
  json : MetadataOk row.metadataJson metadata
  fingerprint : row.fingerprint metadata = row.requestDigest
  sized : row.byteSize ≤ maxSqliteInteger
  numbered : 1 ≤ row.version ∧ row.version ≤ maxSqliteInteger
  parent : row.parentVersion = parentOf row.version
  created : ∃ m, InRange m ∧ row.createdAt = Attempts.microText m

/-- The bytes a row names. -/
structure Content (row : VersionRow) (content : List UInt8) : Prop where
  digest : row.blobDigest = contentDigest content
  size : row.byteSize = content.length

theorem normalizeTimestamp_ok {py : PyVersion} {value name text : String}
    (h : normalizeTimestamp py value name = .ok text) :
    ∃ m, InRange m ∧ text = Attempts.microText m := by
  unfold normalizeTimestamp valueError at h
  split at h
  · simp at h
  · split at h
    next m hm =>
      obtain ⟨r, o, -, -, hin, rfl⟩ := timestampMoment_ok.mp hm
      exact ⟨_, hin, (Except.ok.inj h).symm⟩
    next => simp at h

theorem normalizeTimestamp_microText {py : PyVersion} {m : Int} (h : InRange m) (name : String) :
    normalizeTimestamp py (Attempts.microText m) name = .ok (Attempts.microText m) := by
  have hrfc : isRfc3339 (Attempts.microText m).toList = true := by
    rw [Attempts.microText, String.toList_ofList]
    exact isRfc3339_isoformatMicros m
  have hmoment : timestampMoment py (Attempts.microText m) name = .ok m := by
    have hm := microReading_moment h
    refine timestampMoment_ok.mpr ⟨microReading m, 0, Attempts.readTimestamp_microText h, rfl, ?_,
      hm.symm⟩
    rwa [hm]
  simp only [normalizeTimestamp, hrfc, Attempts.microText_noSuffix, Bool.not_true, Bool.or_self,
    Bool.false_eq_true, if_false, hmoment]

/-- A text of the store's own making. -/
theorem textOk_of_plain {value : String} {maxLength : Nat} (hne : value ≠ "")
    (hplain : ∀ c ∈ value.toList, Attempts.isPlain c = true) (hlen : value.length ≤ maxLength) :
    TextOk maxLength value := by
  have hcode : ∀ c ∈ value.toList, 0x21 ≤ c.toNat ∧ c.toNat < 0x7F := by
    intro c hc
    simpa [Attempts.isPlain] using hplain c hc
  refine ⟨?_, hlen, ?_⟩
  · cases hval : value.toList with
    | nil => exact absurd (String.toList_eq_nil_iff.mp hval) hne
    | cons c rest =>
      obtain ⟨hlo, hhi⟩ := hcode c (by simp [hval])
      have hspace : PyText.isSpace c = false := by
        simp [PyText.isSpace]
        omega
      simp [PyText.isBlank, hval, hspace]
  · rw [List.any_eq_false]
    intro c hc
    obtain ⟨hlo, -⟩ := hcode c hc
    simp only [Bool.or_eq_true, beq_iff_eq, not_or]
    refine ⟨⟨?_, ?_⟩, ?_⟩ <;> rintro rfl <;> simp at hlo

theorem isPlain_of_lowerHex {c : Char} (h : isLowerHex c = true) : Attempts.isPlain c = true := by
  simp only [isLowerHex, Char.isDigit, Bool.or_eq_true, Bool.and_eq_true, decide_eq_true_eq,
    UInt32.le_iff_toNat_le, Char.le_def] at h
  have hval : c.val.toNat = c.toNat := rfl
  simp only [Attempts.isPlain, Bool.and_eq_true, decide_eq_true_eq]
  rcases h with ⟨h₁, h₂⟩ | ⟨h₁, h₂⟩ <;> simp only [hval] at h₁ h₂
  · exact ⟨Nat.le_trans (by decide) h₁, Nat.lt_of_le_of_lt h₂ (by decide)⟩
  · exact ⟨Nat.le_trans (by decide) h₁, Nat.lt_of_le_of_lt h₂ (by decide)⟩

/-- A fingerprint is a text the store accepts. -/
theorem textOk_hexDigest {text : String} (h : IsHexDigest text) : TextOk 64 text := by
  refine textOk_of_plain ?_ (fun c hc => isPlain_of_lowerHex (h.2 c hc)) (Nat.le_of_eq h.1)
  rintro rfl
  exact absurd h.1 (by decide)

/-- So is the digest of a blob. -/
theorem contentDigest_canonical (content : List UInt8) :
    TextOk 71 (contentDigest content) ∧ isContentDigest (contentDigest content) = true := by
  have hhex := hexDigestBytes_canonical (content.map UInt8.toNat)
  have hlist : (contentDigest content).toList =
      "sha256:".toList ++ (hexDigestBytes (content.map UInt8.toNat)).toList := by
    rw [contentDigest, String.toList_append]
  constructor
  · refine textOk_of_plain ?_ (fun c hc => ?_) ?_
    · intro e
      rw [e] at hlist
      simp at hlist
    · rw [hlist] at hc
      rcases List.mem_append.mp hc with hc | hc
      · have hall : ∀ d ∈ "sha256:".toList, Attempts.isPlain d = true := by decide
        exact hall c hc
      · exact isPlain_of_lowerHex (hhex.2 c hc)
    · rw [← String.length_toList, hlist, List.length_append]
      simp only [String.length_toList, hhex.1]
      decide
  · have hdrop : (contentDigest content).toList.drop 7 =
        (hexDigestBytes (content.map UInt8.toNat)).toList := by
      rw [hlist]
      rfl
    simp only [isContentDigest, hdrop, String.ofList_toList, Bool.and_eq_true, decide_eq_true_eq]
    refine ⟨?_, hhex⟩
    rw [hlist, List.isPrefixOf_iff_prefix]
    exact List.prefix_append _ _

theorem persistedIntegerFrom_ok {value minimum n : Nat} {name : String} :
    persistedIntegerFrom value name minimum = .ok n ↔
      (minimum ≤ value ∧ value ≤ maxSqliteInteger) ∧ n = value := by
  unfold persistedIntegerFrom valueError
  split
  next h => simp [h, eq_comm]
  next h => simp [h]

theorem persistedParent_ok {version : Nat} (h : version ≤ maxSqliteInteger) :
    persistedParent (parentOf version) = .ok (parentOf version) := by
  unfold parentOf
  split
  next hmore =>
    have hparent : persistedIntegerFrom (version - 1) "parent_version" 1 = .ok (version - 1) :=
      persistedIntegerFrom_ok.mpr ⟨⟨by omega, by omega⟩, rfl⟩
    rw [persistedParent, hparent]
    rfl
  next => rfl

/-- **A row the store wrote is read**, as the artifact its columns spell out. -/
theorem rowToArtifact_ok {py : PyVersion} {j : JoinedRow} {metadata : Value}
    (h : RowOk j.version metadata) (hc : Content j.version j.content)
    (hb : j.blobByteSize = j.content.length) :
    rowToArtifact py j = .ok (j.artifact metadata) := by
  have htext : ∀ t ∈ [j.version.tenantId, j.version.workspaceId, j.version.sessionId,
      j.version.taskId, j.version.name, j.version.createdBy, j.version.idempotencyKey,
      j.version.artifactId], ∀ name, requiredText t name maxIdentifierLength = .ok t :=
    fun t ht name => requiredText_ok.mpr ⟨h.texts t ht, rfl⟩
  simp only [List.forall_mem_cons, List.not_mem_nil, false_implies, implies_true, and_true] at htext
  obtain ⟨h₁, h₂, h₃, h₄, h₅, h₆, h₇, h₈⟩ := htext
  obtain ⟨n, hvisit⟩ := h.json.walk
  obtain ⟨m, hin, hcreated⟩ := h.created
  obtain ⟨hdigestText, hdigest⟩ := contentDigest_canonical j.content
  have hrequest : IsHexDigest j.version.requestDigest := by
    rw [← h.fingerprint]
    exact hexDigest_canonical _
  have hparent : persistedParent j.version.parentVersion = .ok j.version.parentVersion := by
    rw [h.parent]
    exact persistedParent_ok h.numbered.2
  have hcolumns : checkColumns py j.version j.blobByteSize metadata = .ok () := by
    have hsize := h.sized
    have hwhen : TextOk 32 j.version.createdAt := by
      rw [hcreated]
      refine textOk_of_plain ?_ (fun c hc => Attempts.microText_plain hc) ?_
      · intro e
        have hlen := Attempts.microText_length m
        rw [e] at hlen
        exact absurd hlen (by decide)
      · rw [Attempts.microText_length]
        decide
    simp only [checkColumns, except_bind_ok]
    refine ⟨n, hvisit, _, h₈ _, _, h₁ _, _, h₂ _, _, h₃ _, _, h₄ _, _, h₅ _, _,
      requiredText_ok.mpr ⟨h.media, rfl⟩, _, h₆ _, _, h₇ _, _,
      requiredText_ok.mpr ⟨by rw [hc.digest]; exact hdigestText, rfl⟩, (),
      demand_ok.mpr (by rw [hc.digest]; exact hdigest), _,
      requiredText_ok.mpr ⟨textOk_hexDigest hrequest, rfl⟩, (), demand_ok.mpr hrequest, _,
      persistedIntegerFrom_ok.mpr ⟨⟨Nat.zero_le _, hsize⟩, rfl⟩, _,
      persistedIntegerFrom_ok.mpr ⟨⟨Nat.zero_le _, by rw [hb, ← hc.size]; exact hsize⟩, rfl⟩, _,
      persistedIntegerFrom_ok.mpr ⟨h.numbered, rfl⟩, _, hparent, _,
      requiredText_ok.mpr ⟨hwhen, rfl⟩, _, by
        rw [hcreated]
        exact normalizeTimestamp_microText hin _, demand_ok.mpr hcreated⟩
  have hlineage : ¬(j.version.version = 0 ∨ j.version.parentVersion ≠ parentOf j.version.version) := by
    rintro (hzero | hne)
    · exact absurd hzero (Nat.pos_iff_ne_zero.mp h.numbered.1)
    · exact hne h.parent
  have hbytes : ¬(j.content.length ≠ j.version.byteSize ∨ j.content.length ≠ j.blobByteSize) := by
    rintro (hne | hne)
    · exact hne hc.size.symm
    · exact hne hb.symm
  have hread : asIntegrity "artifact row violates its data contract"
      (checkColumns py j.version j.blobByteSize metadata) = .ok () := by
    rw [hcolumns]
    rfl
  rw [rowToArtifact, h.json.reads]
  simp only
  rw [if_neg (by rw [h.json.object]; simp), hread]
  show (if contentDigest j.content ≠ j.version.blobDigest then _ else _) = _
  rw [if_neg (not_not.mpr hc.digest.symm), if_neg hbytes, if_neg (not_not.mpr h.fingerprint),
    if_neg hlineage]

end QuantumEntanglement.ArtifactStore
