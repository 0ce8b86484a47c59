import QuantumEntanglement.Events
import QuantumEntanglement.Lib.Rfc3339
import QuantumEntanglement.Lib.Sha256
import QuantumEntanglement.Store.Json
import QuantumEntanglement.Store.Timestamps

/-
  The artifact codec — what an `artifact.versioned` payload must be

  A payload is checked the same way when a ledger is about to write it and
  when a ledger reads it back from the log: one function,
  `decodePersistedVersion`. Inside it a defect raises a value or type error;
  outside there is one error, `ArtifactReplayError`, with one text.

  The metadata of a version is checked by a walk that counts value nodes and
  keys, then encoded, then decoded again. Freezing and thawing it keeps a
  caller from changing a ledger's copy; a value here never changes, so
  `_freeze_metadata` and `_snapshot_version` have no counterpart.

  What is proved:
    1. `visit_plain` — the walk accepts plain JSON values only.
    2. `decodeMetadata_ok` — accepted metadata is in normal form.
    3. `decode_payload` — what the payload of a request decodes to.

  Correspondence (Python ↔ Lean):
    `ArtifactLedger._validate_metadata_json`               ↔ `visit`
    `ArtifactLedger._canonical_metadata_bytes`             ↔ `canonicalMetadata`
    `ArtifactLedger._artifact_uri`, `_digest`              ↔ `artifactUri`, `artifactDigest`
-/

namespace QuantumEntanglement.Artifacts

open PyJson PyText IsoTime Sha256

def maxIdentifierLength : Nat := 512
def maxMediaTypeLength : Nat := 255
def maxUriLength : Nat := 4096
def maxDigestLength : Nat := 71
def maxContentBytes : Nat := 16 * 1024 * 1024
def maxMetadataBytes : Nat := 1024 * 1024
def maxMetadataDepth : Nat := 64
def maxMetadataNodes : Nat := 10000
def maxMetadataKeyLength : Nat := 512
def maxMetadataStringLength : Nat := 65536
def maxMetadataIntegerBits : Nat := 4096

def valueError {α : Type} (message : String) : Except StoreError α := .error ⟨.valueError, message⟩

def typeError {α : Type} (message : String) : Except StoreError α := .error ⟨.typeError, message⟩

/-! ## Fields -/

/-- `_require_text`. -/
def requireText (value : Value) (field : String) (maxLength : Nat) : Except StoreError String :=
  match value with
  | .str text =>
    if isBlank text then valueError (field ++ " must not be blank")
    else if maxLength < text.length then valueError (field ++ " exceeds its length limit")
    else if text.toList.any (fun c => c == '\x00' || c == '\r' || c == '\n') then
      valueError (field ++ " contains a forbidden control character")
    else .ok text
  | _ => typeError (field ++ " must be text")

def keysOf (pairs : List (String × Value)) : List String := pairs.map Prod.fst

/-- `_require_object_shape`: the pairs of a mapping with the keys it must have
and no others than it may have. -/
def requireObjectShape (value : Value) (required optional : List String) (field : String) :
    Except StoreError (List (String × Value)) :=
  match value with
  | .dict pairs =>
    if required.all (keysOf pairs).contains && (keysOf pairs).all (required ++ optional).contains then
      .ok pairs
    else valueError (field ++ " keys do not match its contract")
  | _ => typeError (field ++ " must be a plain object")

/-- `payload[key]`. -/
def item (pairs : List (String × Value)) (key : String) : Except StoreError Value :=
  match lookup key pairs with
  | some v => .ok v
  | none => .error ⟨.keyError, key⟩

/-- `_require_positive_integer`. -/
def requirePositiveInteger (value : Value) (field : String) : Except StoreError Nat :=
  match value with
  | .int n =>
    if 1 ≤ n ∧ n ≤ maxSqliteInteger then .ok n.toNat
    else valueError (field ++ " is outside its supported range")
  | _ => typeError (field ++ " must be an integer")

/-- `_require_content`. -/
def requireContent (value : Value) : Except StoreError String :=
  match value with
  | .str text =>
    if maxContentBytes < text.utf8ByteSize then valueError "content exceeds its byte limit"
    else .ok text
  | _ => typeError "content must be text"

/-- The pattern `^\d{4}-\d{2}-\d{2}T\d{2}:\d{2}:\d{2}(?:\.\d{6})?Z$`. -/
def isCanonicalUtcForm (text : List Char) : Bool :=
  match scanRfc3339 text with
  | some ('.' :: fraction) => scanDigits 6 fraction == some ['Z']
  | some rest => rest == ['Z']
  | none => false

/-- `_require_canonical_utc`. The text must be the one its moment is written
as, so the pattern's `\d` can be read as an ASCII digit. -/
def requireCanonicalUtc (py : PyVersion) (value : Value) (field : String) :
    Except StoreError String :=
  match value with
  | .str text =>
    if isCanonicalUtcForm text.toList = false then valueError (field ++ " must be canonical UTC")
    else do
      let canonical ← normalizeTimestamp py text field
      if canonical = text then .ok text else valueError (field ++ " must be canonical UTC")
  | _ => valueError (field ++ " must be canonical UTC")

/-! ## Metadata -/

/-- One more value node. -/
def countNode (nodes : Nat) : Except StoreError Nat :=
  if maxMetadataNodes < nodes + 1 then valueError "metadata exceeds its JSON node limit"
  else .ok (nodes + 1)

/-- The nesting check of a container met below `parentDepth`. -/
def enterContainer (parentDepth : Nat) : Except StoreError Unit :=
  if maxMetadataDepth < parentDepth + 1 then valueError "metadata exceeds its nesting limit"
  else .ok ()

mutual

/-- The walk over a value: the nodes counted after it. The source keeps a
stack of values to come and visits them in this order. -/
def visit (parentDepth nodes : Nat) : Value → Except StoreError Nat
  | .null => countNode nodes
  | .bool _ => countNode nodes
  | .str s => do
    let n ← countNode nodes
    if maxMetadataStringLength < s.length then valueError "metadata string exceeds its length limit"
    else .ok n
  | .int k => do
    let n ← countNode nodes
    if maxMetadataIntegerBits < bitLength k then valueError "metadata integer exceeds its bit limit"
    else .ok n
  | .float _ => countNode nodes
  | .nonFinite => do
    let _ ← countNode nodes
    valueError "metadata contains a non-finite number"
  | .tuple _ => do
    let _ ← countNode nodes
    typeError "metadata contains a non-JSON value"
  | .other _ => do
    let _ ← countNode nodes
    typeError "metadata contains a non-JSON value"
  | .backReference => do
    let _ ← countNode nodes
    let _ ← enterContainer parentDepth
    valueError "metadata contains a reference cycle"
  | .list items => do
    let n ← countNode nodes
    let _ ← enterContainer parentDepth
    if maxMetadataNodes - n < items.length then valueError "metadata exceeds its JSON node limit"
    else visitItems (parentDepth + 1) n items
  | .dict pairs => do
    let n ← countNode nodes
    let _ ← enterContainer parentDepth
    if (maxMetadataNodes - n) / 2 < pairs.length then
      valueError "metadata exceeds its JSON node limit"
    else if pairs.any (fun p => maxMetadataKeyLength < p.1.length) then
      valueError "metadata key exceeds its length limit"
    else visitPairs (parentDepth + 1) (n + pairs.length) pairs

def visitItems (parentDepth nodes : Nat) : List Value → Except StoreError Nat
  | [] => .ok nodes
  | v :: rest => do
    let n ← visit parentDepth nodes v
    visitItems parentDepth n rest

def visitPairs (parentDepth nodes : Nat) : List (String × Value) → Except StoreError Nat
  | [] => .ok nodes
  | (_, v) :: rest => do
    let n ← visit parentDepth nodes v
    visitPairs parentDepth n rest

end

/-- The canonical text of metadata: keys sorted, no blanks. -/
def canonicalMetadata (metadata : Value) : String := dumps (PyJson.normalize metadata)

/-- Checked metadata, the bytes of its text and its nodes. -/
structure DecodedMetadata where
  value : Value
  bytes : Nat
  nodes : Nat
  deriving DecidableEq

/-- `_decode_metadata_with_usage`. -/
def decodeMetadata (value : Value) : Except StoreError DecodedMetadata :=
  if isObject value = false then typeError "metadata must be a plain JSON object"
  else do
    let nodes ← visit 0 0 value
    let encoded := canonicalMetadata value
    if maxMetadataBytes < encoded.utf8ByteSize then
      valueError "metadata exceeds its encoded byte limit"
    else
      match loads encoded with
      | some decoded =>
        if isObject decoded then .ok ⟨decoded, encoded.utf8ByteSize, nodes⟩
        else typeError "metadata must decode to a JSON object"
      | none => valueError "metadata does not decode"

/-! ## Versions -/

/-- `protocol.ArtifactRef`. -/
structure ArtifactRef where
  artifactId : String
  name : String
  version : Nat
  mediaType : String
  uri : String
  digest : String
  createdBy : String
  taskId : String
  parentVersion : Option Nat
  deriving DecidableEq

/-- A natural number or nothing, as a value. -/
def optionalInt : Option Nat → Value
  | some n => .int n
  | none => .null

/-- `ArtifactRef.to_dict`. -/
def ArtifactRef.toDict (ref : ArtifactRef) : Value :=
  .dict [("artifactId", .str ref.artifactId), ("createdBy", .str ref.createdBy),
    ("digest", .str ref.digest), ("mediaType", .str ref.mediaType), ("name", .str ref.name),
    ("parentVersion", optionalInt ref.parentVersion), ("taskId", .str ref.taskId),
    ("uri", .str ref.uri), ("version", .int ref.version)]

structure ArtifactVersion where
  ref : ArtifactRef
  content : String
  metadata : Value
  createdAt : String
  trigger : String
  deriving DecidableEq

/-- A decoded version, the key of its history and what it costs. -/
structure DecodedArtifactVersion where
  key : String × String
  item : ArtifactVersion
  contentBytes : Nat
  metadataBytes : Nat
  metadataNodes : Nat
  stateDataBytes : Nat
  deriving DecidableEq

/-- A byte as `urllib.parse.quote` escapes it. -/
def quoteByte (b : UInt8) : List Char :=
  ['%', (Nat.digitChar (b.toNat / 16)).toUpper, (Nat.digitChar (b.toNat % 16)).toUpper]

/-- `urllib.parse.quote(value, safe)`. -/
def quote (safe : List Char) (value : String) : String :=
  String.ofList (value.toList.flatMap (fun c =>
    if c.isAlphanum || ['_', '.', '-', '~'].contains c || safe.contains c then [c]
    else (String.utf8EncodeChar c).flatMap quoteByte))

def artifactUri (sessionId name : String) (version : Nat) : String :=
  "artifact://" ++ quote [] sessionId ++ "/" ++ quote ['/'] name ++ "/v" ++ toString version

def artifactDigest (content : String) : String := "sha256:" ++ hexDigest content

/-- `^sha256:[0-9a-f]{64}$`. -/
def isSha256Text (digest : String) : Bool :=
  digest.toList.take 7 == "sha256:".toList && (digest.toList.drop 7).length == 64 &&
    (digest.toList.drop 7).all isLowerHex

def payloadRequiredKeys : List String := ["sessionId", "taskId", "ref", "content", "createdAt"]
def payloadOptionalKeys : List String := ["metadata", "trigger"]
def refRequiredKeys : List String :=
  ["artifactId", "name", "version", "mediaType", "uri", "digest", "createdBy", "taskId"]
def refOptionalKeys : List String := ["parentVersion"]

/-- The parent version of a reference, which may be absent or null. -/
def decodeParentVersion (raw : Option Value) : Except StoreError (Option Nat) :=
  match raw with
  | none => .ok none
  | some .null => .ok none
  | some v => (requirePositiveInteger v "ref.parentVersion").map some

/-- The version before one, if there is one. -/
def parentOf (version : Nat) : Option Nat := if 1 < version then some (version - 1) else none

/-- The reference of a payload, checked field by field. -/
def decodeRef (raw : Value) : Except StoreError ArtifactRef := do
  let pairs ← requireObjectShape raw refRequiredKeys refOptionalKeys "artifact ref"
  let artifactId ← requireText (← item pairs "artifactId") "ref.artifactId" maxIdentifierLength
  let name ← requireText (← item pairs "name") "ref.name" maxIdentifierLength
  let version ← requirePositiveInteger (← item pairs "version") "ref.version"
  let mediaType ← requireText (← item pairs "mediaType") "ref.mediaType" maxMediaTypeLength
  let uri ← requireText (← item pairs "uri") "ref.uri" maxUriLength
  let digest ← requireText (← item pairs "digest") "ref.digest" maxDigestLength
  let createdBy ← requireText (← item pairs "createdBy") "ref.createdBy" maxIdentifierLength
  let taskId ← requireText (← item pairs "taskId") "ref.taskId" maxIdentifierLength
  let parentVersion ← decodeParentVersion (lookup "parentVersion" pairs)
  if parentVersion ≠ parentOf version then valueError "ref.parentVersion does not match ref.version"
  else .ok ⟨artifactId, name, version, mediaType, uri, digest, createdBy, taskId, parentVersion⟩

/-- The checks of a reference against the payload it stands in. -/
def bindRef (ref : ArtifactRef) (sessionId taskId content : String) : Except StoreError Unit :=
  if ref.taskId ≠ taskId then valueError "payload taskId does not match ref.taskId"
  else if isSha256Text ref.digest = false then valueError "ref.digest is not canonical SHA-256"
  else if ref.digest ≠ artifactDigest content then
    valueError "ref.digest does not match artifact content"
  else if ref.uri ≠ artifactUri sessionId ref.name ref.version then
    valueError "ref.uri is not the canonical artifact URI"
  else .ok ()

/-- The bytes of a version's texts. -/
def descriptorBytes (sessionId createdAt trigger : String) (ref : ArtifactRef) : Nat :=
  ([sessionId, ref.artifactId, ref.name, ref.mediaType, ref.uri, ref.digest, ref.createdBy,
    ref.taskId, createdAt, trigger].map String.utf8ByteSize).sum

/-- The body of `_decode_persisted_version_with_usage`, before its errors are
made one. -/
def decodePayload (py : PyVersion) (raw : Value) : Except StoreError DecodedArtifactVersion := do
  let pairs ← requireObjectShape raw payloadRequiredKeys payloadOptionalKeys "artifact payload"
  let sessionId ← requireText (← item pairs "sessionId") "sessionId" maxIdentifierLength
  let taskId ← requireText (← item pairs "taskId") "taskId" maxIdentifierLength
  let content ← requireContent (← item pairs "content")
  let createdAt ← requireCanonicalUtc py (← item pairs "createdAt") "createdAt"
  let trigger ← requireText ((lookup "trigger" pairs).getD (.str "create")) "trigger"
    maxIdentifierLength
  let metadata ← decodeMetadata ((lookup "metadata" pairs).getD (.dict []))
  let ref ← decodeRef (← item pairs "ref")
  let _ ← bindRef ref sessionId taskId content
  .ok
    { key := (sessionId, ref.name)
      item := ⟨ref, content, metadata.value, createdAt, trigger⟩
      contentBytes := content.utf8ByteSize
      metadataBytes := metadata.bytes
      metadataNodes := metadata.nodes
      stateDataBytes := descriptorBytes sessionId createdAt trigger ref + content.utf8ByteSize +
        metadata.bytes }

def replayError {α : Type} (message : String) : Except StoreError α :=
  .error ⟨.artifactReplay, message⟩

/-- `_decode_persisted_version_with_usage`. -/
def decodePersistedVersion (py : PyVersion) (raw : Value) :
    Except StoreError DecodedArtifactVersion :=
  match decodePayload py raw with
  | .ok decoded => .ok decoded
  | .error _ => replayError "persisted artifact.versioned payload violates its contract"

/-- The payload of a version, its keys in the order the encoder sorts them. -/
def versionPayload (sessionId : String) (version : ArtifactVersion) : Value :=
  .dict [("content", .str version.content), ("createdAt", .str version.createdAt),
    ("metadata", version.metadata), ("ref", version.ref.toDict), ("sessionId", .str sessionId),
    ("taskId", .str version.ref.taskId), ("trigger", .str version.trigger)]

/-! ## Accepted fields -/

theorem requireText_str {text field : String} {maxLength : Nat} {t : String}
    (h : requireText (.str text) field maxLength = .ok t) :
    t = text ∧ isBlank text = false := by
  simp only [requireText, valueError] at h
  split at h
  · simp at h
  next hblank =>
    split at h
    · simp at h
    · split at h
      · simp at h
      · simp only [Except.ok.injEq] at h
        exact ⟨h.symm, by simpa using hblank⟩

theorem requireContent_str {text t : String} (h : requireContent (.str text) = .ok t) :
    t = text := by
  simp only [requireContent, valueError] at h
  split at h
  · simp at h
  · exact (Except.ok.inj h).symm

theorem requireCanonicalUtc_str {py : PyVersion} {text field t : String}
    (h : requireCanonicalUtc py (.str text) field = .ok t) : t = text := by
  simp only [requireCanonicalUtc, valueError] at h
  split at h
  · simp at h
  · simp only [except_bind_ok] at h
    obtain ⟨_, -, h⟩ := h
    split at h
    · exact (Except.ok.inj h).symm
    · simp at h

theorem requirePositiveInteger_int {n : Nat} {field : String} {m : Nat}
    (h : requirePositiveInteger (.int n) field = .ok m) : m = n := by
  simp only [requirePositiveInteger, valueError] at h
  split at h
  · have hm := Except.ok.inj h
    omega
  · simp at h

theorem decodeParentVersion_optionalInt {parent p : Option Nat}
    (h : decodeParentVersion (some (optionalInt parent)) = .ok p) : p = parent := by
  cases parent with
  | none => exact (Except.ok.inj h).symm
  | some n =>
    simp only [decodeParentVersion, optionalInt] at h
    cases hn : requirePositiveInteger (.int n) "ref.parentVersion" with
    | error e => rw [hn] at h; simp [Except.map] at h
    | ok m =>
      rw [hn] at h
      rw [← Except.ok.inj h, requirePositiveInteger_int hn]

/-! ## Accepted metadata -/

mutual

/-- **The walk accepts plain JSON values only.** -/
theorem visit_plain : ∀ (v : Value) (depth nodes n : Nat), visit depth nodes v = .ok n → Plain v
  | .null, _, _, _, _ => trivial
  | .bool _, _, _, _, _ => trivial
  | .float _, _, _, _, _ => trivial
  | .str _, _, _, _, _ => trivial
  | .int _, _, _, _, _ => trivial
  | .nonFinite, _, _, _, h => by simp [visit, except_bind_ok, valueError] at h
  | .backReference, _, _, _, h => by simp [visit, except_bind_ok, valueError] at h
  | .other _, _, _, _, h => by simp [visit, except_bind_ok, typeError] at h
  | .tuple _, _, _, _, h => by simp [visit, except_bind_ok, typeError] at h
  | .list items, depth, nodes, n, h => by
    simp only [visit, except_bind_ok] at h
    obtain ⟨k, -, _, -, h⟩ := h
    split at h
    · simp [valueError] at h
    · exact visitItems_plain items (depth + 1) k n h
  | .dict pairs, depth, nodes, n, h => by
    simp only [visit, except_bind_ok] at h
    obtain ⟨k, -, _, -, h⟩ := h
    split at h
    · simp [valueError] at h
    · split at h
      · simp [valueError] at h
      · exact visitPairs_plain pairs (depth + 1) _ n h

theorem visitItems_plain : ∀ (items : List Value) (depth nodes n : Nat),
    visitItems depth nodes items = .ok n → PlainItems items
  | [], _, _, _, _ => trivial
  | v :: rest, depth, nodes, n, h => by
    simp only [visitItems, except_bind_ok] at h
    obtain ⟨k, hv, hrest⟩ := h
    exact ⟨visit_plain v depth nodes k hv, visitItems_plain rest depth k n hrest⟩

theorem visitPairs_plain : ∀ (pairs : List (String × Value)) (depth nodes n : Nat),
    visitPairs depth nodes pairs = .ok n → PlainPairs pairs
  | [], _, _, _, _ => trivial
  | (_, v) :: rest, depth, nodes, n, h => by
    simp only [visitPairs, except_bind_ok] at h
    obtain ⟨k, hv, hrest⟩ := h
    exact ⟨visit_plain v depth nodes k hv, visitPairs_plain rest depth k n hrest⟩

end

/-- **Accepted metadata is the normal form of what was given.** -/
theorem decodeMetadata_ok {value : Value} {d : DecodedMetadata} (h : decodeMetadata value = .ok d) :
    Normal d.value ∧ d.value = PyJson.normalize value := by
  simp only [decodeMetadata] at h
  split at h
  · simp [typeError] at h
  · simp only [except_bind_ok] at h
    obtain ⟨nodes, hvisit, h⟩ := h
    have hnormal := normal_normalize value (visit_plain value 0 0 nodes hvisit)
    split at h
    · simp [valueError] at h
    · rw [canonicalMetadata, loads_dumps hnormal] at h
      simp only at h
      split at h
      · have hd := Except.ok.inj h
        rw [← hd]
        exact ⟨hnormal, rfl⟩
      · simp [typeError] at h

/-! ## The payload of a version -/

theorem decodeRef_toDict {ref r : ArtifactRef} (h : decodeRef ref.toDict = .ok r) : r = ref := by
  simp only [decodeRef, ArtifactRef.toDict, requireObjectShape, item, except_bind_ok] at h
  obtain ⟨pairs, hpairs, h⟩ := h
  split at hpairs
  · obtain rfl := (Except.ok.inj hpairs).symm
    simp only [lookup, String.reduceEq, if_true, if_false, Except.ok.injEq, exists_eq_left'] at h
    obtain ⟨a, ha, b, hb, c, hc, d, hd, e, he, f, hf, g, hg, i, hi, j, hj, h⟩ := h
    split at h
    · simp [valueError] at h
    · obtain rfl := Except.ok.inj h
      rw [(requireText_str ha).1, (requireText_str hb).1, requirePositiveInteger_int hc,
        (requireText_str hd).1, (requireText_str he).1, (requireText_str hf).1,
        (requireText_str hg).1, (requireText_str hi).1, decodeParentVersion_optionalInt hj]
  · simp [valueError] at hpairs

/-- **The payload of a version decodes, if at all, to that version.** -/
theorem decode_versionPayload {py : PyVersion} {sessionId : String} {v : ArtifactVersion}
    {d : DecodedArtifactVersion} (hm : Normal v.metadata)
    (h : decodePersistedVersion py (versionPayload sessionId v) = .ok d) :
    d.key = (sessionId, v.ref.name) ∧ d.item = v := by
  simp only [decodePersistedVersion] at h
  cases hbody : decodePayload py (versionPayload sessionId v) with
  | error e => rw [hbody] at h; simp [replayError] at h
  | ok decoded =>
    rw [hbody] at h
    obtain rfl := Except.ok.inj h
    simp only [decodePayload, versionPayload, requireObjectShape, except_bind_ok] at hbody
    obtain ⟨pairs, hpairs, hbody⟩ := hbody
    split at hpairs
    · obtain rfl := (Except.ok.inj hpairs).symm
      simp only [item, lookup, String.reduceEq, if_true, if_false, Except.ok.injEq,
        exists_eq_left', Option.getD_some] at hbody
      obtain ⟨a, ha, b, hb, c, hc, d, hd, e, he, m, hmeta, ref, href, _, -, rfl⟩ := hbody
      obtain rfl := decodeRef_toDict href
      simp only [(requireText_str ha).1, requireContent_str hc, requireCanonicalUtc_str hd,
        (requireText_str he).1, (decodeMetadata_ok hmeta).2, normalize_of_normal _ hm, and_self]
    · simp [valueError] at hpairs

theorem sortedKeys_of {pairs : List (String × Value)}
    (h : (keysOf pairs).Pairwise (fun a b => keyLt a b = true)) : SortedKeys pairs :=
  List.pairwise_map.mp h

/-- **A version's payload is in normal form when its metadata is.** -/
theorem normal_versionPayload {sessionId : String} {v : ArtifactVersion} (hm : Normal v.metadata) :
    Normal (versionPayload sessionId v) := by
  have hparent : Normal (optionalInt v.ref.parentVersion) := by
    cases v.ref.parentVersion <;> trivial
  have href : Normal v.ref.toDict := by
    refine ⟨?_, trivial, trivial, trivial, trivial, trivial, hparent, trivial, trivial, trivial,
      trivial⟩
    exact sortedKeys_of (by simp only [keysOf, List.map]; decide)
  refine ⟨?_, trivial, trivial, hm, href, trivial, trivial, trivial, trivial⟩
  exact sortedKeys_of (by simp only [keysOf, List.map]; decide)

end QuantumEntanglement.Artifacts
