import QuantumEntanglement.Lib.ObjectHeap
import QuantumEntanglement.Lib.PyJsonStrict
import QuantumEntanglement.Store.Json

/-
  The artifact metadata codec — one byte string for one value

  A caller's metadata is a dict it may share with anyone and change at any
  time. The codec copies it into containers of its own, under bounds on the
  nodes, the nesting, the texts and the integers, writes the copy as compact
  JSON with its keys sorted, and keeps the bytes beside a frozen form of the
  copy, in tuples and mapping proxies. The decoder reads bytes back and
  refuses those that the encoder would have written otherwise.

  The metadata is a heap object here, so sharing, cycles and later writes are
  what they are in Python; no other thread writes while the codec runs.
  `unicodedata.normalize("NFC", ·)` is the parameter `nfc`: nothing is assumed
  of it.

  What is proved:
    1. `snapshot_ok`, `snapshot_runs` — the copy is made exactly of the values
       within the bounds, in new cells, and the nodes are counted.
    2. `canonical_ok`, `canonical_runs` — the encoder accepts exactly such
       values and writes the canonical text of what they hold.
    3. `decode_canonical` — the decoder takes those bytes and gives the value
       in key order.
    4. `metadata_codec_laws` — decoding undoes encoding, the decoder accepts
       the encoder's byte strings alone, equal bytes are equal values, and the
       frozen value stands whatever is written afterwards.
-/

namespace QuantumEntanglement.ArtifactCodec

open PyJson PyHeap Transaction

def maxArtifactMetadataDepth : Nat := 64
def maxArtifactMetadataNodes : Nat := 10000
def maxArtifactMetadataKeyBytes : Nat := 512
def maxArtifactMetadataStringBytes : Nat := 65536
def maxArtifactMetadataIntegerBits : Nat := 4096

/-- What the codec raises: a `TypeError`, a `ValueError`, its subclass
`ArtifactMetadataCodecTooLargeError`, or Python's own `RecursionError`. -/
inductive CodecError where
  | typeError (message : String)
  | valueError (message : String)
  | tooLarge (message : String)
  | recursion
  deriving DecidableEq

section Codec

variable (nfc : String → String)

/-! ## Texts -/

/-- A control character other than a tab or a line feed. -/
def isForbiddenControl (c : Char) : Bool :=
  (decide (c.toNat < 0x20) && c != '\t' && c != '\n') || c.toNat == 0x7F

/-- `_safe_text`. -/
def safeText (value : Obj) (label : String) (maximumBytes : Nat) : Except CodecError String :=
  match value with
  | .surrogates _ => .error (.valueError (label ++ " must be valid UTF-8"))
  | .str s =>
    if maximumBytes < s.utf8ByteSize then
      .error (.tooLarge (label ++ " exceeds its UTF-8 byte limit"))
    else if nfc s ≠ s then .error (.valueError (label ++ " must use Unicode NFC"))
    else if s.toList.any isForbiddenControl then
      .error (.valueError (label ++ " contains a forbidden control character"))
    else .ok s
  | _ => .error (.typeError (label ++ " must be a plain string"))

/-- A text `safeText` accepts. -/
def SafeText (maximumBytes : Nat) (s : String) : Prop :=
  s.utf8ByteSize ≤ maximumBytes ∧ nfc s = s ∧ s.toList.any isForbiddenControl = false

theorem safeText_ok {value : Obj} {label : String} {maximumBytes : Nat} {s : String} :
    safeText nfc value label maximumBytes = .ok s ↔
      value = .str s ∧ SafeText nfc maximumBytes s := by
  cases value with
  | str t =>
    simp only [safeText, SafeText, Obj.str.injEq]
    split
    next h =>
      simp only [reduceCtorEq, false_iff, not_and]
      intro heq hle
      subst heq
      exact absurd hle (Nat.not_le.mpr h)
    next h =>
      split
      next hn =>
        simp only [reduceCtorEq, false_iff, not_and]
        intro heq _ hnfc
        subst heq
        exact absurd hnfc hn
      next hn =>
        rw [not_not] at hn
        split
        next hc =>
          simp only [reduceCtorEq, false_iff, not_and]
          intro heq _ _
          subst heq
          simp [hc]
        next hc =>
          simp only [Except.ok.injEq]
          constructor
          · intro heq
            subst heq
            exact ⟨rfl, Nat.not_lt.mp h, hn, by simpa using hc⟩
          · intro hs
            exact hs.1
  | _ => simp [safeText]

/-! ## The snapshot -/

/-- The heap, and the nodes counted so far. -/
structure Walk where
  heap : Heap
  nodes : Nat

/-- One more node. -/
def countNode (label : String) : Txn Walk CodecError Unit := do
  Txn.update (fun s => { s with nodes := s.nodes + 1 })
  let nodes ← Txn.query Walk.nodes
  Txn.ensure (nodes ≤ maxArtifactMetadataNodes)
    (.tooLarge (label ++ " exceeds its JSON node limit"))

def newCell (cell : Cell) : Txn Walk CodecError Obj := fun s =>
  (.ok (.ref s.heap.length), { s with heap := s.heap ++ [cell] })

/-- The container is as it was captured. -/
def requireUnchanged (label : String) (id : Nat) (captured : Shape) : Txn Walk CodecError Unit := do
  let current ← Txn.query (fun s => shapeAt plainView s.heap id)
  Txn.ensure (current = some captured)
    (.valueError (label ++ " changed while it was being snapshotted"))

/-- The copy of the value of a dict's entry. -/
def snapshotEntry (snap : String → Obj → Txn Walk CodecError Obj) (label : String)
    (entry : Obj × Obj) : Txn Walk CodecError Obj := do
  countNode label
  let key ← Txn.lift (safeText nfc entry.1 (label ++ " key") maxArtifactMetadataKeyBytes)
  snap (label ++ "." ++ key) entry.2

/-- The copy of a container by `snap`, which takes a label and a slot. -/
def snapshotContainer (snap : String → Obj → Txn Walk CodecError Obj) (label : String) (id : Nat) :
    Shape → Txn Walk CodecError Obj
  | .list captured => do
    let copied ← Txn.forEach
      (fun item => snap (label ++ "[" ++ toString item.2 ++ "]") item.1) captured.zipIdx
    requireUnchanged label id (.list captured)
    newCell (.list copied)
  | .dict captured => do
    let copied ← Txn.forEach (snapshotEntry nfc snap label) captured.entries
    requireUnchanged label id (.dict captured)
    newCell (.dict (captured.withValues copied))
  | .tuple _ => Txn.raise (.typeError (label ++ " contains a non-JSON value"))

def snapshotText (label : String) (value : Obj) : Txn Walk CodecError Obj := do
  let s ← Txn.lift (safeText nfc value label maxArtifactMetadataStringBytes)
  pure (.str s)

/-- A program that copies one value: its label, the containers being copied,
the value. -/
abbrev Snapshot := String → List Nat → Obj → Txn Walk CodecError Obj

/-- The copy of one value; `deeper` copies what is inside a container, if there
is room for one more. -/
def snapshotValue (deeper : Option Snapshot) (label : String) (active : List Nat) (value : Obj) :
    Txn Walk CodecError Obj := do
  countNode label
  match value with
  | .null => pure .null
  | .bool b => pure (.bool b)
  | .str s => snapshotText nfc label (.str s)
  | .surrogates units => snapshotText nfc label (.surrogates units)
  | .int n => do
    Txn.ensure (bitLength n ≤ maxArtifactMetadataIntegerBits)
      (.tooLarge (label ++ " integer exceeds its bit limit"))
    pure (.int n)
  | .float x => pure (.float x)
  | .nonFinite => Txn.raise (.valueError (label ++ " contains a non-finite number"))
  | .other _ _ => Txn.raise (.typeError (label ++ " contains a non-JSON value"))
  | .ref id => do
    let read ← Txn.query (fun s => shapeAt plainView s.heap id)
    match read, deeper with
    | none, _ => Txn.raise (.typeError (label ++ " contains a non-JSON value"))
    | some _, none => Txn.raise (.tooLarge (label ++ " exceeds its nesting limit"))
    | some shape, some snap => do
      Txn.ensure (id ∉ active) (.valueError (label ++ " contains a reference cycle"))
      snapshotContainer nfc (fun label => snap label (id :: active)) label id shape

/-- `_snapshot_json_value`, with room for that many containers inside each
other. -/
def snapshotJsonValue : Nat → Snapshot
  | 0 => snapshotValue nfc none
  | room + 1 => snapshotValue nfc (some (snapshotJsonValue room))

/-! ## Frozen and thawed forms -/

/-- `_freeze_json`. -/
def freezeJson (value : Obj) : Txn Heap CodecError Obj :=
  rebuild plainView frozenCell .recursion maxArtifactMetadataDepth value

/-- `_thaw_json`. -/
def thawJson (value : Obj) : Txn Heap CodecError Obj :=
  rebuild frozenView plainCell .recursion maxArtifactMetadataDepth value

/-- `_canonical_json_bytes`. -/
def canonicalJsonBytes (value : Obj) : Txn Heap CodecError ByteArray := do
  match (← Txn.query (fun h => readTree plainView h maxArtifactMetadataDepth value)) with
  | some v => pure (dumps v).toUTF8
  | none => Txn.raise .recursion

/-- What a reference leads to. -/
def cellOf (h : Heap) : Obj → Option Cell
  | .ref id => h[id]?
  | _ => none

def isPlainDict (h : Heap) (o : Obj) : Bool :=
  match cellOf h o with
  | some (.dict _) => true
  | _ => false

def isMappingProxy (h : Heap) (o : Obj) : Bool :=
  match cellOf h o with
  | some (.proxy _) => true
  | _ => false

def requireDict (message : String) (o : Obj) : Txn Heap CodecError Unit := do
  let plain ← Txn.query (fun h => isPlainDict h o)
  Txn.ensure (plain = true) (.typeError message)

/-- The bytes, and the frozen value. -/
structure CanonicalArtifactMetadataV1 where
  canonicalBytes : ByteArray
  value : Obj

/-- `CanonicalArtifactMetadataV1(canonical_bytes=..., value=...)`, which checks
that the two agree. -/
def retain (canonicalBytes : ByteArray) (value : Obj) :
    Txn Heap CodecError CanonicalArtifactMetadataV1 := do
  let frozen ← Txn.query (fun h => isMappingProxy h value)
  Txn.ensure (frozen = true) (.typeError "canonical metadata value must be a frozen object")
  let thawed ← thawJson value
  let bytes ← canonicalJsonBytes thawed
  Txn.ensure (bytes = canonicalBytes)
    (.valueError "canonical metadata bytes and value disagree")
  pure ⟨canonicalBytes, value⟩

def CanonicalArtifactMetadataV1.toDict (metadata : CanonicalArtifactMetadataV1) :
    Txn Heap CodecError Obj := do
  let thawed ← thawJson metadata.value
  requireDict "canonical metadata is not a JSON object" thawed
  pure thawed

/-! ## The codec -/

/-- The snapshot of metadata, from no node counted. -/
def snapshotMetadata (metadata : Obj) : Txn Heap CodecError Obj := fun h =>
  let (result, s) := snapshotJsonValue nfc maxArtifactMetadataDepth "metadata" [] metadata ⟨h, 0⟩
  (result, s.heap)

/-- `canonical_artifact_metadata_v1`. -/
def canonicalArtifactMetadataV1 (metadata : Obj) (maximumBytes : Int) :
    Txn Heap CodecError CanonicalArtifactMetadataV1 := do
  Txn.ensure (0 < maximumBytes) (.valueError "maximum_bytes must be greater than zero")
  requireDict "metadata must be a plain dictionary" metadata
  let snapshot ← snapshotMetadata nfc metadata
  requireDict "metadata must be a JSON object" snapshot
  let canonicalBytes ← canonicalJsonBytes snapshot
  Txn.ensure ((canonicalBytes.size : Int) ≤ maximumBytes)
    (.tooLarge "metadata exceeds its canonical byte limit")
  let value ← freezeJson snapshot
  retain canonicalBytes value

/-- The text of the bytes and the document in it. A key given twice and a
constant such as `NaN` have messages of their own in the source. -/
def readDocument (encoded : ByteArray) : Except CodecError Value :=
  match (String.fromUTF8? encoded).bind strictLoads with
  | some v => .ok v
  | none => .error (.valueError "encoded metadata is not bounded canonical JSON")

/-- `decode_canonical_artifact_metadata_v1`. -/
def decodeCanonicalArtifactMetadataV1 (encoded : ByteArray) (maximumBytes : Int) :
    Txn Heap CodecError CanonicalArtifactMetadataV1 := do
  Txn.ensure ((encoded.size : Int) ≤ maximumBytes)
    (.tooLarge "metadata exceeds its canonical byte limit")
  let document ← Txn.lift (readDocument encoded)
  let decoded ← build document
  let canonical ← canonicalArtifactMetadataV1 nfc decoded maximumBytes
  Txn.ensure (canonical.canonicalBytes = encoded)
    (.valueError "encoded metadata is not in canonical form")
  pure canonical

/-! ## What the snapshot accepts -/

mutual

/-- A value of JSON types whose texts and integers are within the bounds. -/
def Allowed : Value → Prop
  | .list items => AllowedItems items
  | .dict pairs => AllowedPairs pairs
  | .null => True
  | .bool _ => True
  | .int n => bitLength n ≤ maxArtifactMetadataIntegerBits
  | .float _ => True
  | .str s => SafeText nfc maxArtifactMetadataStringBytes s
  | .tuple _ => False
  | .nonFinite => False
  | .backReference => False
  | .other _ => False

def AllowedItems : List Value → Prop
  | [] => True
  | v :: rest => Allowed v ∧ AllowedItems rest

def AllowedPairs : List (String × Value) → Prop
  | [] => True
  | (k, v) :: rest => SafeText nfc maxArtifactMetadataKeyBytes k ∧ Allowed v ∧ AllowedPairs rest

end

end Codec

mutual

/-- The nodes of a value: itself, its items, its keys and its values. -/
def nodesOf : Value → Nat
  | .list items => 1 + nodesOfItems items
  | .tuple items => 1 + nodesOfItems items
  | .dict pairs => 1 + nodesOfPairs pairs
  | .null => 1
  | .bool _ => 1
  | .int _ => 1
  | .float _ => 1
  | .str _ => 1
  | .nonFinite => 1
  | .backReference => 1
  | .other _ => 1

def nodesOfItems : List Value → Nat
  | [] => 0
  | v :: rest => nodesOf v + nodesOfItems rest

def nodesOfPairs : List (String × Value) → Nat
  | [] => 0
  | (_, v) :: rest => (1 + nodesOf v) + nodesOfPairs rest

end

theorem nodesOfItems_eq (items : List Value) : nodesOfItems items = (items.map nodesOf).sum := by
  induction items with
  | nil => rfl
  | cons v rest ih => rw [nodesOfItems, ih, List.map_cons, List.sum_cons]

theorem nodesOfPairs_eq (pairs : List (String × Value)) :
    nodesOfPairs pairs = ((pairs.map Prod.snd).map (fun v => 1 + nodesOf v)).sum := by
  induction pairs with
  | nil => rfl
  | cons p rest ih =>
    obtain ⟨k, v⟩ := p
    rw [nodesOfPairs, ih, List.map_cons, List.map_cons, List.sum_cons]

section Codec

variable {nfc : String → String}

theorem allowedItems_iff {items : List Value} :
    AllowedItems nfc items ↔ ∀ v ∈ items, Allowed nfc v := by
  induction items with
  | nil => simp [AllowedItems]
  | cons v rest ih => rw [AllowedItems, ih, List.forall_mem_cons]

theorem allowedPairs_iff {pairs : List (String × Value)} :
    AllowedPairs nfc pairs ↔
      ∀ p ∈ pairs, SafeText nfc maxArtifactMetadataKeyBytes p.1 ∧ Allowed nfc p.2 := by
  induction pairs with
  | nil => simp [AllowedPairs]
  | cons p rest ih => rw [AllowedPairs, ih, List.forall_mem_cons, and_assoc]

/-! ## One step of the snapshot -/

/-- The count is within the bound. -/
def Counted (s : Walk) : Prop := s.nodes ≤ maxArtifactMetadataNodes

theorem countNode_ok {label : String} {u : Unit} {s s' : Walk} :
    countNode label s = (.ok u, s') ↔
      s.nodes + 1 ≤ maxArtifactMetadataNodes ∧ s' = { s with nodes := s.nodes + 1 } := by
  simp only [countNode, Txn.bind_ok, Txn.update_ok, Txn.query_ok, Txn.ensure_ok]
  constructor
  · intro h
    obtain ⟨_, _, rfl, _, _, ⟨rfl, rfl⟩, hle, rfl⟩ := h
    exact ⟨hle, rfl⟩
  · intro h
    obtain ⟨hle, rfl⟩ := h
    exact ⟨(), _, rfl, _, _, ⟨rfl, rfl⟩, hle, rfl⟩

theorem snapshotText_ok {nfc : String → String} {label : String} {value o : Obj} {s s' : Walk} :
    snapshotText nfc label value s = (.ok o, s') ↔
      ∃ t, value = .str t ∧ SafeText nfc maxArtifactMetadataStringBytes t ∧ o = .str t ∧
        s' = s := by
  simp only [snapshotText, Txn.bind_ok, Txn.lift_ok, safeText_ok, Txn.pure_ok]
  constructor
  · intro h
    obtain ⟨t, _, ⟨⟨ht, hsafe⟩, rfl⟩, rfl, rfl⟩ := h
    exact ⟨t, ht, hsafe, rfl, rfl⟩
  · intro h
    obtain ⟨t, ht, hsafe, rfl, rfl⟩ := h
    exact ⟨t, _, ⟨⟨ht, hsafe⟩, rfl⟩, rfl, rfl⟩

theorem requireUnchanged_ok {label : String} {id : Nat} {captured : Shape} {u : Unit}
    {s s' : Walk} : requireUnchanged label id captured s = (.ok u, s') ↔
      shapeAt plainView s.heap id = some captured ∧ s = s' := by
  simp only [requireUnchanged, Txn.bind_ok, Txn.query_ok, Txn.ensure_ok]
  constructor
  · intro h
    obtain ⟨_, _, ⟨rfl, rfl⟩, heq, rfl⟩ := h
    exact ⟨heq, rfl⟩
  · intro h
    exact ⟨_, s, ⟨rfl, rfl⟩, h.1, h.2⟩

theorem newCell_ok {cell : Cell} {o : Obj} {s s' : Walk} :
    newCell cell s = (.ok o, s') ↔
      o = .ref s.heap.length ∧ s' = { s with heap := s.heap ++ [cell] } := by
  simp only [newCell, Prod.mk.injEq, Except.ok.injEq]
  constructor
  · intro h
    exact ⟨h.1.symm, h.2.symm⟩
  · intro h
    exact ⟨h.1.symm, h.2.symm⟩

theorem snapshotEntry_ok {nfc : String → String} {snap : String → Obj → Txn Walk CodecError Obj}
    {label : String} {entry : Obj × Obj} {o' : Obj} {s s' : Walk} :
    snapshotEntry nfc snap label entry s = (.ok o', s') ↔
      ∃ key, entry.1 = .str key ∧ SafeText nfc maxArtifactMetadataKeyBytes key ∧
        s.nodes + 1 ≤ maxArtifactMetadataNodes ∧
        snap (label ++ "." ++ key) entry.2 { s with nodes := s.nodes + 1 } = (.ok o', s') := by
  simp only [snapshotEntry, Txn.bind_ok, Txn.lift_ok, safeText_ok, countNode_ok]
  constructor
  · intro h
    obtain ⟨_, _, ⟨hle, rfl⟩, key, _, ⟨⟨hkey, hsafe⟩, rfl⟩, hitem⟩ := h
    exact ⟨key, hkey, hsafe, hle, hitem⟩
  · intro h
    obtain ⟨key, hkey, hsafe, hle, hitem⟩ := h
    exact ⟨(), _, ⟨hle, rfl⟩, key, _, ⟨⟨hkey, hsafe⟩, rfl⟩, hitem⟩

/-- What a copy made by the snapshot is: of a value within the bounds, in new
cells, its nodes counted. -/
def SnapshotOf (nfc : String → String) (room : Nat) (o o' : Obj) (s s' : Walk) : Prop :=
  ∃ v, Holds plainView (fun _ => True) s'.heap o v ∧ (Allowed nfc v ∧ depthOf v ≤ room) ∧
    Landed Walk.heap Walk.nodes plainView s s' o' v (nodesOf v)

/-- A counted scalar is copied as it is. -/
theorem SnapshotOf.scalar {room : Nat} {o : Obj} {v : Value} {s : Walk} (hs : scalar o = some v)
    (ha : Allowed nfc v) (hd : depthOf v = 0) (hn : nodesOf v = 1) :
    SnapshotOf nfc room o o s { s with nodes := s.nodes + 1 } :=
  ⟨v, holds_of_scalar hs, ⟨ha, by omega⟩, Landed.scalar hs rfl (by rw [hn])⟩

/-- **A container copied slot by slot is copied.** -/
theorem snapshotContainer_ok {snap : String → Obj → Txn Walk CodecError Obj} {room id : Nat}
    {label : String} {shape : Shape} {s s' : Walk} {o' : Obj}
    (hsnap : ∀ label o s o' s', Counted s → snap label o s = (.ok o', s') →
      Counted s' ∧ SnapshotOf nfc room o o' s s')
    (hc : Counted s) (hrun : snapshotContainer nfc snap label id shape s = (.ok o', s')) :
    Counted s' ∧ ∃ v c, Holds plainView (fun _ => True) s'.heap (.ref id) v ∧
      (Allowed nfc v ∧ depthOf v ≤ room + 1) ∧ nodesOf v = 1 + c ∧
      Landed Walk.heap Walk.nodes plainView s s' o' v c := by
  cases shape with
  | list captured =>
    simp only [snapshotContainer, Txn.bind_ok, requireUnchanged_ok, newCell_ok] at hrun
    obtain ⟨copied, s₁, hloop, _, _, ⟨hsame, rfl⟩, rfl, rfl⟩ := hrun
    obtain ⟨hc₁, items, hsrc, hgood, hland⟩ :=
      @copied_forEach plainView plainView Walk CodecError (Obj × Nat) Walk.heap Walk.nodes
        _ Prod.fst nodesOf (fun v => Allowed nfc v ∧ depthOf v ≤ room) Counted captured.zipIdx
        (fun item _ s o s' hcs hitem => hsnap _ item.1 s o s' hcs hitem) s copied s₁ hc hloop
    rw [List.zipIdx_map_fst] at hsrc
    refine ⟨hc₁, .list items, nodesOfItems items, ?_, ⟨?_, ?_⟩, rfl, ?_⟩
    · exact ⟨id, captured, rfl, trivial, shapeAt_of_growth (List.prefix_append _ _) hsame,
        hsrc.grow (List.prefix_append _ _)⟩
    · exact allowedItems_iff.mpr (fun v hv => (hgood v hv).1)
    · exact Nat.succ_le_succ (depthOfItems_le.mpr (fun v hv => (hgood v hv).2))
    · rw [nodesOfItems_eq]
      exact hland.list rfl rfl rfl
  | dict captured =>
    simp only [snapshotContainer, Txn.bind_ok, requireUnchanged_ok, newCell_ok] at hrun
    obtain ⟨copied, s₁, hloop, _, _, ⟨hsame, rfl⟩, rfl, rfl⟩ := hrun
    have hkeys : ∀ e ∈ captured.entries,
        ∃ k, e.1 = .str k ∧ SafeText nfc maxArtifactMetadataKeyBytes k := by
      intro e he
      obtain ⟨_, _, _, hentry⟩ := Txn.forEach_ok_mem hloop e he
      obtain ⟨k, hk, hsafe, -⟩ := snapshotEntry_ok.mp hentry
      exact ⟨k, hk, hsafe⟩
    have hentry : ∀ e ∈ captured.entries, ∀ (s : Walk) (o : Obj) (s' : Walk), Counted s →
        snapshotEntry nfc snap label e s = (.ok o, s') →
        Counted s' ∧ ∃ v, Holds plainView (fun _ => True) s'.heap e.2 v ∧
          (Allowed nfc v ∧ depthOf v ≤ room) ∧
          Landed Walk.heap Walk.nodes plainView s s' o v (1 + nodesOf v) := by
      intro e _ s o s' _ hone
      obtain ⟨key, -, -, hle, hitem⟩ := snapshotEntry_ok.mp hone
      have hle : Counted { s with nodes := s.nodes + 1 } := hle
      obtain ⟨hc', v, hsrc, hgood, hland⟩ := hsnap _ _ _ _ _ hle hitem
      refine ⟨hc', v, hsrc, hgood, hland.grows, hland.holds, ?_⟩
      rw [hland.counted, Nat.add_assoc]
    obtain ⟨hc₁, items, hsrc, hgood, hland⟩ :=
      @copied_forEach plainView plainView Walk CodecError (Obj × Obj) Walk.heap Walk.nodes
        _ Prod.snd (fun v => 1 + nodesOf v) (fun v => Allowed nfc v ∧ depthOf v ≤ room) Counted
        captured.entries hentry s copied s₁ hc hloop
    obtain ⟨pairs, hfst, hsnd⟩ := exists_pairs
      (fun e he => (hkeys e he).imp (fun _ hk => hk.1)) (by simpa using hsrc.length.symm)
    subst hsnd
    refine ⟨hc₁, .dict pairs, nodesOfPairs pairs, ?_, ⟨?_, ?_⟩, rfl, ?_⟩
    · exact ⟨id, captured, rfl, trivial, shapeAt_of_growth (List.prefix_append _ _) hsame,
        holdsPairs_iff.mpr ⟨hfst, hsrc.grow (List.prefix_append _ _)⟩⟩
    · refine allowedPairs_iff.mpr (fun p hp => ⟨?_, (hgood p.2 (List.mem_map.mpr ⟨p, hp, rfl⟩)).1⟩)
      have hmem : Obj.str p.1 ∈ captured.entries.map Prod.fst := by
        rw [hfst]
        exact List.mem_map.mpr ⟨p, hp, rfl⟩
      obtain ⟨e, he, hep⟩ := List.mem_map.mp hmem
      obtain ⟨k, hk, hsafe⟩ := hkeys e he
      rw [hep] at hk
      rw [Obj.str.inj hk]
      exact hsafe
    · rw [depthOf, depthOfPairs_eq]
      exact Nat.succ_le_succ (depthOfItems_le.mpr (fun v hv => (hgood v hv).2))
    · rw [nodesOfPairs_eq]
      exact LandedAll.dict hfst hland rfl rfl rfl
  | tuple captured => simp [snapshotContainer] at hrun

/-- The copy of one value, from what copies the values inside it. -/
theorem snapshotValue_ok {deeper : Option Snapshot} {room : Nat} {label : String}
    {active : List Nat} {o o' : Obj} {s s' : Walk}
    (hdeeper : ∀ snap, deeper = some snap → ∃ r, room = r + 1 ∧
      ∀ label active o s o' s', Counted s → snap label active o s = (.ok o', s') →
        Counted s' ∧ SnapshotOf nfc r o o' s s')
    (hrun : snapshotValue nfc deeper label active o s = (.ok o', s')) :
    Counted s' ∧ SnapshotOf nfc room o o' s s' := by
  rw [snapshotValue.eq_def, Txn.bind_ok] at hrun
  obtain ⟨_, s₁, hcount, hrun⟩ := hrun
  obtain ⟨hle, rfl⟩ := countNode_ok.mp hcount
  have hle : Counted { s with nodes := s.nodes + 1 } := hle
  cases o with
  | null =>
    obtain ⟨rfl, rfl⟩ := Txn.pure_ok.mp hrun
    exact ⟨hle, SnapshotOf.scalar rfl trivial rfl rfl⟩
  | bool b =>
    obtain ⟨rfl, rfl⟩ := Txn.pure_ok.mp hrun
    exact ⟨hle, SnapshotOf.scalar rfl trivial rfl rfl⟩
  | int n =>
    simp only [Txn.bind_ok, Txn.ensure_ok, Txn.pure_ok] at hrun
    obtain ⟨_, _, ⟨hbits, rfl⟩, rfl, rfl⟩ := hrun
    exact ⟨hle, @SnapshotOf.scalar nfc _ _ (.int n) _ rfl hbits rfl rfl⟩
  | float x =>
    obtain ⟨rfl, rfl⟩ := Txn.pure_ok.mp hrun
    exact ⟨hle, SnapshotOf.scalar rfl trivial rfl rfl⟩
  | nonFinite => cases hrun
  | other _ _ => cases hrun
  | str t =>
    obtain ⟨t', ht, hsafe, rfl, rfl⟩ := snapshotText_ok.mp hrun
    cases ht
    exact ⟨hle, @SnapshotOf.scalar nfc _ _ (.str t) _ rfl hsafe rfl rfl⟩
  | surrogates units =>
    obtain ⟨_, ht, -⟩ := snapshotText_ok.mp hrun
    cases ht
  | ref id =>
    simp only [Txn.bind_ok, Txn.query_ok] at hrun
    obtain ⟨_, _, ⟨rfl, rfl⟩, hrun⟩ := hrun
    cases hshape : shapeAt plainView s.heap id with
    | none =>
      rw [hshape] at hrun
      cases hrun
    | some shape =>
      rw [hshape] at hrun
      cases hsnap : deeper with
      | none =>
        rw [hsnap] at hrun
        cases hrun
      | some snap =>
        rw [hsnap] at hrun
        obtain ⟨r, rfl, hinner⟩ := hdeeper snap hsnap
        simp only [Txn.bind_ok, Txn.ensure_ok] at hrun
        obtain ⟨_, _, ⟨-, rfl⟩, hrun⟩ := hrun
        obtain ⟨hc', v, c, hsrc, hgood, hnodes, hland⟩ :=
          snapshotContainer_ok (fun label o s o' s' => hinner label (id :: active) o s o' s') hle
            hrun
        refine ⟨hc', v, hsrc, hgood, hland.grows, hland.holds, ?_⟩
        rw [hland.counted, hnodes, Nat.add_assoc]

/-- **What the snapshot copies is a value within the bounds.** -/
theorem snapshot_ok (room : Nat) : ∀ label active o s o' s', Counted s →
    snapshotJsonValue nfc room label active o s = (.ok o', s') →
    Counted s' ∧ SnapshotOf nfc room o o' s s' := by
  -- The recursion is on the room left for containers.
  induction room with
  | zero =>
    intro label active o s o' s' _ hrun
    exact snapshotValue_ok (fun _ hnone => by cases hnone) hrun
  | succ room ih =>
    intro label active o s o' s' _ hrun
    apply snapshotValue_ok _ hrun
    intro snap hsnap
    cases hsnap
    exact ⟨room, rfl, ih⟩

/-! ### Running it -/

/-- What is copied holds less than every container being copied. -/
def Below (base : Heap) (active : List Nat) (v : Value) : Prop :=
  ∀ id ∈ active, ∃ w, Holds plainView (fun _ => True) base (.ref id) w ∧ depthOf v < depthOf w

/-- `snap` copies values of depth up to `room` that are held in `base`. -/
def Copies (nfc : String → String) (base : Heap) (room : Nat) (snap : Snapshot) : Prop :=
  ∀ label active o v, Holds plainView (fun _ => True) base o v → Allowed nfc v →
    depthOf v ≤ room → Below base active v → ∀ s : Walk, base <+: s.heap →
    s.nodes + nodesOf v ≤ maxArtifactMetadataNodes →
    ∃ o' s', snap label active o s = (.ok o', s') ∧
      Landed Walk.heap Walk.nodes plainView s s' o' v (nodesOf v)

theorem Below.child {base : Heap} {active : List Nat} {id : Nat} {v c : Value}
    (hv : Holds plainView (fun _ => True) base (.ref id) v) (hb : Below base active v)
    (hc : depthOf c < depthOf v) : Below base (id :: active) c := by
  intro id' hid
  rcases List.mem_cons.mp hid with rfl | hid
  · exact ⟨v, hv, hc⟩
  · obtain ⟨w, hw, hlt⟩ := hb id' hid
    exact ⟨w, hw, Nat.lt_trans hc hlt⟩

/-- A container that holds a tree is not inside itself. -/
theorem Below.notMem {base : Heap} {active : List Nat} {id : Nat} {v : Value}
    (hv : Holds plainView (fun _ => True) base (.ref id) v) (hb : Below base active v) :
    id ∉ active := by
  intro hid
  obtain ⟨w, hw, hlt⟩ := hb id hid
  rw [Holds.unique v (.ref id) w hv hw] at hlt
  exact Nat.lt_irrefl _ hlt

theorem countNode_runs {label : String} {s : Walk} (h : s.nodes + 1 ≤ maxArtifactMetadataNodes) :
    countNode label s = (.ok (), { s with nodes := s.nodes + 1 }) := countNode_ok.mpr ⟨h, rfl⟩

theorem requireUnchanged_runs {label : String} {id : Nat} {captured : Shape} {s : Walk}
    (h : shapeAt plainView s.heap id = some captured) :
    requireUnchanged label id captured s = (.ok (), s) := requireUnchanged_ok.mpr ⟨h, rfl⟩

/-- Each item of a container is copied, wherever the copying stands. -/
theorem Copies.child {snap : Snapshot} {base : Heap} {room id : Nat} {active : List Nat}
    {v c : Value} {o : Obj} (hsnap : Copies nfc base room snap)
    (hv : Holds plainView (fun _ => True) base (.ref id) v) (hb : Below base active v)
    (hroom : depthOf v ≤ room + 1) (ho : Holds plainView (fun _ => True) base o c)
    (hc : Allowed nfc c) (hlt : depthOf c < depthOf v) (label : String) (s : Walk)
    (hp : base <+: s.heap) (hlimit : s.nodes + nodesOf c ≤ maxArtifactMetadataNodes) :
    ∃ o' s', snap label (id :: active) o s = (.ok o', s') ∧
      Landed Walk.heap Walk.nodes plainView s s' o' c (nodesOf c) :=
  hsnap label (id :: active) o c ho hc (by omega) (hb.child hv hlt) s hp hlimit

/-- **A container within the bounds is copied.** -/
theorem snapshotContainer_runs {snap : Snapshot} {base : Heap} {room id : Nat} {label : String}
    {active : List Nat} {v : Value} (hsnap : Copies nfc base room snap)
    (hv : Holds plainView (fun _ => True) base (.ref id) v) (ha : Allowed nfc v)
    (hroom : depthOf v ≤ room + 1) (hb : Below base active v) :
    ∃ shape c, shapeAt plainView base id = some shape ∧ nodesOf v = 1 + c ∧
      ∀ s : Walk, base <+: s.heap → s.nodes + c ≤ maxArtifactMetadataNodes →
      ∃ o' s', snapshotContainer nfc (fun label => snap label (id :: active)) label id shape s =
          (.ok o', s') ∧ Landed Walk.heap Walk.nodes plainView s s' o' v c := by
  rcases hv.split with hs | ⟨_, slots, items, heq, rfl, hs, hall⟩ |
    ⟨_, _, _, heq, rfl, -, -⟩ | ⟨_, d, pairs, heq, rfl, hs, hall⟩
  · cases hs
  · cases heq
    refine ⟨.list slots, (items.map nodesOf).sum, hs, by rw [nodesOf, nodesOfItems_eq],
      fun s hp hlimit => ?_⟩
    have hitem : List.Forall₂ (fun o c => ∀ label, ∀ s : Walk, base <+: s.heap →
        s.nodes + nodesOf c ≤ maxArtifactMetadataNodes →
        ∃ o' s', snap label (id :: active) o s = (.ok o', s') ∧
          Landed Walk.heap Walk.nodes plainView s s' o' c (nodesOf c)) slots items := by
      apply forall₂_of_mem (holdsAll_iff.mp hall)
      intro o c _ hc ho
      have hdepth := depthOfItems_le.mp (Nat.le_refl (depthOfItems items)) c hc
      exact hsnap.child hv hb hroom ho (allowedItems_iff.mp ha c hc) (Nat.lt_succ_of_le hdepth)
    obtain ⟨copied, s₁, hrun, hland⟩ := @runs_forEach plainView Walk CodecError (Obj × Nat)
      Walk.heap Walk.nodes (fun item =>
        snap (label ++ "[" ++ toString item.2 ++ "]") (id :: active) item.1)
      nodesOf maxArtifactMetadataNodes base slots.zipIdx items
      (forall₂_of_mem (forall₂_zipIdx hitem) (fun _ _ _ _ h => h _)) s hp hlimit
    have hsame := shapeAt_of_growth (hp.trans hland.grows) hs
    refine ⟨_, { s₁ with heap := s₁.heap ++ [.list copied] }, ?_, hland.list rfl rfl rfl⟩
    simp only [snapshotContainer, Txn.bind_ok]
    exact ⟨copied, s₁, hrun, (), s₁, requireUnchanged_runs hsame, rfl⟩
  · exact ha.elim
  · cases heq
    obtain ⟨hfst, hvalues⟩ := holdsPairs_iff.mp hall
    refine ⟨.dict d, ((pairs.map Prod.snd).map (fun v => 1 + nodesOf v)).sum, hs,
      by rw [nodesOf, nodesOfPairs_eq], fun s hp hlimit => ?_⟩
    have hentry : List.Forall₂ (fun e c => ∀ s : Walk, base <+: s.heap →
        s.nodes + (1 + nodesOf c) ≤ maxArtifactMetadataNodes →
        ∃ o' s', snapshotEntry nfc (fun label => snap label (id :: active)) label e s =
            (.ok o', s') ∧
          Landed Walk.heap Walk.nodes plainView s s' o' c (1 + nodesOf c))
        d.entries (pairs.map Prod.snd) := by
      apply List.forall₂_map_right_iff.mpr
      apply forall₂_of_mem (forall₂_of_holdsPairs hall)
      intro e p _ hp he s hs hlimit
      obtain ⟨hkey, hc⟩ := allowedPairs_iff.mp ha p hp
      have hdepth := depthOfItems_le.mp (Nat.le_refl _) p.2 (List.mem_map.mpr ⟨p, hp, rfl⟩)
      rw [← depthOfPairs_eq] at hdepth
      obtain ⟨o', s', hrun, hland⟩ := hsnap.child hv hb hroom he.2 hc (Nat.lt_succ_of_le hdepth)
        (label ++ "." ++ p.1) { s with nodes := s.nodes + 1 } hs (by simp only; omega)
      refine ⟨o', s', snapshotEntry_ok.mpr ⟨p.1, he.1, hkey, by omega, hrun⟩, hland.grows,
        hland.holds, ?_⟩
      rw [hland.counted, Nat.add_assoc]
    obtain ⟨copied, s₁, hrun, hland⟩ := @runs_forEach plainView Walk CodecError (Obj × Obj)
      Walk.heap Walk.nodes (snapshotEntry nfc (fun label => snap label (id :: active)) label)
      (fun v => 1 + nodesOf v) maxArtifactMetadataNodes base d.entries (pairs.map Prod.snd)
      hentry s hp hlimit
    have hsame := shapeAt_of_growth (hp.trans hland.grows) hs
    refine ⟨_, { s₁ with heap := s₁.heap ++ [.dict (d.withValues copied)] }, ?_,
      LandedAll.dict hfst hland rfl rfl rfl⟩
    simp only [snapshotContainer, Txn.bind_ok]
    exact ⟨copied, s₁, hrun, (), s₁, requireUnchanged_runs hsame, rfl⟩

/-- The copy of one value runs, from what copies the values inside it. -/
theorem snapshotValue_runs {deeper : Option Snapshot} {base : Heap} {room : Nat}
    (hdeeper : ∀ r, room = r + 1 → ∃ snap, deeper = some snap ∧ Copies nfc base r snap) :
    Copies nfc base room (snapshotValue nfc deeper) := by
  intro label active o v hv ha hroom hb s hp hlimit
  have hone : 1 ≤ nodesOf v := by cases v <;> simp [nodesOf]
  have hcount := @countNode_runs label s (by omega)
  cases o with
  | null =>
    cases hv.scalar (fun _ heq => by cases heq)
    refine ⟨.null, { s with nodes := s.nodes + 1 }, ?_, Landed.scalar rfl rfl rfl⟩
    rw [snapshotValue.eq_def, Txn.bind_ok]
    exact ⟨(), _, hcount, rfl⟩
  | bool b =>
    cases hv.scalar (fun _ heq => by cases heq)
    refine ⟨.bool b, { s with nodes := s.nodes + 1 }, ?_, Landed.scalar rfl rfl rfl⟩
    rw [snapshotValue.eq_def, Txn.bind_ok]
    exact ⟨(), _, hcount, rfl⟩
  | int n =>
    cases hv.scalar (fun _ heq => by cases heq)
    refine ⟨.int n, { s with nodes := s.nodes + 1 }, ?_, Landed.scalar rfl rfl rfl⟩
    rw [snapshotValue.eq_def, Txn.bind_ok]
    refine ⟨(), _, hcount, ?_⟩
    simp only [Txn.bind_ok, Txn.ensure_ok]
    exact ⟨(), _, ⟨ha, rfl⟩, rfl⟩
  | float x =>
    cases hv.scalar (fun _ heq => by cases heq)
    refine ⟨.float x, { s with nodes := s.nodes + 1 }, ?_, Landed.scalar rfl rfl rfl⟩
    rw [snapshotValue.eq_def, Txn.bind_ok]
    exact ⟨(), _, hcount, rfl⟩
  | str t =>
    cases hv.scalar (fun _ heq => by cases heq)
    refine ⟨.str t, { s with nodes := s.nodes + 1 }, ?_, Landed.scalar rfl rfl rfl⟩
    rw [snapshotValue.eq_def, Txn.bind_ok]
    exact ⟨(), _, hcount, snapshotText_ok.mpr ⟨t, rfl, ha, rfl, rfl⟩⟩
  | nonFinite => cases hv.scalar (fun _ heq => by cases heq)
  | surrogates units => cases hv.scalar (fun _ heq => by cases heq)
  | other typeName id => cases hv.scalar (fun _ heq => by cases heq)
  | ref id =>
    have hdepth : ∃ r, room = r + 1 := by
      rcases hv.split with hs | ⟨_, _, _, -, rfl, -⟩ | ⟨_, _, _, -, rfl, -⟩ | ⟨_, _, _, -, rfl, -⟩
      · cases hs
      · exact Nat.exists_eq_add_one.mpr (Nat.lt_of_lt_of_le (Nat.succ_pos _) hroom)
      · exact Nat.exists_eq_add_one.mpr (Nat.lt_of_lt_of_le (Nat.succ_pos _) hroom)
      · exact Nat.exists_eq_add_one.mpr (Nat.lt_of_lt_of_le (Nat.succ_pos _) hroom)
    obtain ⟨r, rfl⟩ := hdepth
    obtain ⟨snap, hsome, hsnap⟩ := hdeeper r rfl
    obtain ⟨shape, c, hshape, hnodes, hrun⟩ :=
      @snapshotContainer_runs nfc snap base r id label active v hsnap hv ha hroom hb
    obtain ⟨o', s', hcopy, hland⟩ := hrun { s with nodes := s.nodes + 1 } hp (by simp only; omega)
    refine ⟨o', s', ?_, hland.grows, hland.holds, ?_⟩
    · rw [snapshotValue.eq_def, Txn.bind_ok]
      refine ⟨(), _, hcount, ?_⟩
      simp only [Txn.bind_ok, Txn.query_ok]
      refine ⟨_, _, ⟨rfl, rfl⟩, ?_⟩
      rw [shapeAt_of_growth hp hshape, hsome]
      simp only [Txn.bind_ok, Txn.ensure_ok]
      exact ⟨(), _, ⟨hb.notMem hv, rfl⟩, hcopy⟩
    · rw [hland.counted, hnodes, Nat.add_assoc]

/-- **A value within the bounds is copied.** -/
theorem snapshot_runs (base : Heap) (room : Nat) :
    Copies nfc base room (snapshotJsonValue nfc room) := by
  induction room with
  | zero => exact snapshotValue_runs (fun r hr => by cases hr)
  | succ room ih =>
    apply snapshotValue_runs
    intro r hr
    cases hr
    exact ⟨snapshotJsonValue nfc room, rfl, ih⟩

/-! ## The normal form keeps the bounds -/

mutual

theorem allowed_normalize : ∀ v : Value, Tidy v → Allowed nfc v →
    Allowed nfc (PyJson.normalize v)
  | .list items, hs, ha => allowedItems_normalizeItems items hs ha
  | .dict pairs, hs, ha => by
    refine allowedPairs_iff.mpr (fun p hp => ?_)
    obtain ⟨q, hq, rfl⟩ := List.mem_map.mp ((normalizePairs_perm hs.1).mem_iff.mp hp)
    exact allowedPairs_normalize pairs hs.2 ha q hq
  | .null, _, _ => trivial
  | .bool _, _, _ => trivial
  | .int _, _, ha => ha
  | .float _, _, _ => trivial
  | .str _, _, ha => ha
  | .tuple _, _, ha => ha.elim
  | .nonFinite, _, ha => ha.elim
  | .backReference, _, ha => ha.elim
  | .other _, _, ha => ha.elim

theorem allowedItems_normalizeItems : ∀ items : List Value, TidyItems items →
    AllowedItems nfc items → AllowedItems nfc (normalizeItems items)
  | [], _, _ => trivial
  | v :: rest, hs, ha =>
    ⟨allowed_normalize v hs.1 ha.1, allowedItems_normalizeItems rest hs.2 ha.2⟩

theorem allowedPairs_normalize : ∀ pairs : List (String × Value), TidyPairs pairs →
    AllowedPairs nfc pairs → ∀ p ∈ pairs,
      SafeText nfc maxArtifactMetadataKeyBytes p.1 ∧ Allowed nfc (PyJson.normalize p.2)
  | [], _, _, _, hp => absurd hp List.not_mem_nil
  | (_, v) :: rest, hs, ha, p, hp => by
    rcases List.mem_cons.mp hp with rfl | hp
    · exact ⟨ha.1, allowed_normalize v hs.1 ha.2.1⟩
    · exact allowedPairs_normalize rest hs.2 ha.2.2 p hp

end

end Codec

mutual

theorem nodesOf_normalize : ∀ v : Value, Tidy v → nodesOf (PyJson.normalize v) = nodesOf v
  | .list items, hs => by
    rw [PyJson.normalize, nodesOf, nodesOf, nodesOfItems_normalize items hs]
  | .tuple items, hs => by
    rw [PyJson.normalize, nodesOf, nodesOf, nodesOfItems_normalize items hs]
  | .dict pairs, hs => by
    have hperm := ((normalizePairs_perm hs.1).map Prod.snd).map (fun v => 1 + nodesOf v)
    rw [PyJson.normalize, nodesOf, nodesOf, nodesOfPairs_eq, hperm.sum_nat,
      nodesOfPairs_normalize pairs hs.2]
  | .null, _ => rfl
  | .bool _, _ => rfl
  | .int _, _ => rfl
  | .float _, _ => rfl
  | .str _, _ => rfl
  | .nonFinite, _ => rfl
  | .backReference, _ => rfl
  | .other _, _ => rfl

theorem nodesOfItems_normalize : ∀ items : List Value, TidyItems items →
    nodesOfItems (normalizeItems items) = nodesOfItems items
  | [], _ => rfl
  | v :: rest, hs => by
    rw [normalizeItems, nodesOfItems, nodesOfItems, nodesOf_normalize v hs.1,
      nodesOfItems_normalize rest hs.2]

theorem nodesOfPairs_normalize : ∀ pairs : List (String × Value), TidyPairs pairs →
    (((pairs.map normalMember).map Prod.snd).map (fun v => 1 + nodesOf v)).sum =
      nodesOfPairs pairs
  | [], _ => rfl
  | (_, v) :: rest, hs => by
    have ih := nodesOfPairs_normalize rest hs.2
    rw [List.map_cons, List.map_cons, List.map_cons, List.sum_cons, ih, nodesOfPairs, normalMember,
      nodesOf_normalize v hs.1]

end

section Codec

variable {nfc : String → String}

/-! ## Accepted metadata -/

/-- A dict within every bound. -/
structure Accepted (nfc : String → String) (maximumBytes : Int) (v : Value) : Prop where
  positive : 0 < maximumBytes
  object : ∃ pairs, v = .dict pairs
  allowed : Allowed nfc v
  depth : depthOf v ≤ maxArtifactMetadataDepth
  nodes : nodesOf v ≤ maxArtifactMetadataNodes
  bytes : ((dumps v).toUTF8.size : Int) ≤ maximumBytes

theorem normalize_normalize {v : Value} (hv : Tidy v) :
    PyJson.normalize (PyJson.normalize v) = PyJson.normalize v :=
  normalize_of_normal _ (normal_normalize v (Tidy.plain v hv))

theorem dumps_normalize {v : Value} (hv : Tidy v) : dumps (PyJson.normalize v) = dumps v := by
  rw [dumps, dumps, normalize_normalize hv]

theorem Accepted.normalize {maximumBytes : Int} {v : Value} (ha : Accepted nfc maximumBytes v)
    (hv : Tidy v) : Accepted nfc maximumBytes (PyJson.normalize v) where
  positive := ha.positive
  object := by
    obtain ⟨pairs, rfl⟩ := ha.object
    exact ⟨_, rfl⟩
  allowed := allowed_normalize v hv ha.allowed
  depth := by
    rw [depthOf_normalize v hv]
    exact ha.depth
  nodes := by
    rw [nodesOf_normalize v hv]
    exact ha.nodes
  bytes := by
    rw [dumps_normalize hv]
    exact ha.bytes

/-! ### The steps of the encoder -/

theorem requireDict_ok {message : String} {o : Obj} {u : Unit} {h h' : Heap} :
    requireDict message o h = (.ok u, h') ↔ isPlainDict h o = true ∧ h = h' := by
  simp only [requireDict, Txn.bind_ok, Txn.query_ok, Txn.ensure_ok]
  constructor
  · intro hrun
    obtain ⟨_, _, ⟨rfl, rfl⟩, hplain, rfl⟩ := hrun
    exact ⟨hplain, rfl⟩
  · intro hrun
    exact ⟨_, h, ⟨rfl, rfl⟩, hrun.1, hrun.2⟩

/-- A dict is what holds an object of a document. -/
theorem isPlainDict_iff {own : Nat → Prop} {h : Heap} {o : Obj} {v : Value}
    (hv : Holds plainView own h o v) : isPlainDict h o = true ↔ ∃ pairs, v = .dict pairs := by
  rcases hv.split with hs | ⟨id, slots, items, rfl, rfl, hs, hall⟩ |
    ⟨id, slots, items, rfl, rfl, hs, hall⟩ | ⟨id, d, pairs, rfl, rfl, hs, hall⟩
  · cases o <;> cases hs <;> simp [isPlainDict, cellOf]
  · obtain ⟨cell, hcell, hread⟩ := shapeAt_some hs
    cases cell <;> cases hread
    simp [isPlainDict, cellOf, hcell]
  · obtain ⟨cell, hcell, hread⟩ := shapeAt_some hs
    cases cell <;> cases hread
  · obtain ⟨cell, hcell, hread⟩ := shapeAt_some hs
    cases cell <;> cases hread
    simp [isPlainDict, cellOf, hcell]

theorem isMappingProxy_of_holds {own : Nat → Prop} {h : Heap} {o : Obj}
    {pairs : List (String × Value)} (hv : Holds frozenView own h o (.dict pairs)) :
    isMappingProxy h o = true := by
  obtain ⟨id, d, rfl, -, hs, -⟩ := hv
  obtain ⟨cell, hcell, hread⟩ := shapeAt_some hs
  cases cell <;> cases hread
  simp [isMappingProxy, cellOf, hcell]

theorem canonicalJsonBytes_runs {own : Nat → Prop} {h : Heap} {o : Obj} {v : Value}
    (hv : Holds plainView own h o v) (hd : depthOf v ≤ maxArtifactMetadataDepth) :
    canonicalJsonBytes o h = (.ok (dumps v).toUTF8, h) := by
  rw [canonicalJsonBytes, Txn.bind_ok]
  refine ⟨_, h, Txn.query_ok.mpr ⟨rfl, rfl⟩, ?_⟩
  rw [readTree_of_holds _ o v hv hd]
  rfl

theorem freezeJson_runs {own : Nat → Prop} {h : Heap} {o : Obj} {v : Value}
    (hv : Holds plainView own h o v) (hd : depthOf v ≤ maxArtifactMetadataDepth) :
    ∃ o' h', freezeJson o h = (.ok o', h') ∧ Landed id (fun _ => 0) frozenView h h' o' v 0 :=
  rebuild_runs rewrites_frozen _ o v hv hd h List.prefix_rfl

/-- **What is thawed holds what was frozen.** -/
theorem thawJson_runs {own : Nat → Prop} {h : Heap} {o : Obj} {v : Value}
    (hv : Holds frozenView own h o v) (hd : depthOf v ≤ maxArtifactMetadataDepth) :
    ∃ o' h', thawJson o h = (.ok o', h') ∧ Landed id (fun _ => 0) plainView h h' o' v 0 :=
  rebuild_runs rewrites_plain _ o v hv hd h List.prefix_rfl

theorem retain_runs {own : Nat → Prop} {h : Heap} {o : Obj} {v : Value}
    (hv : Holds frozenView own h o v) (hobject : ∃ pairs, v = .dict pairs)
    (hd : depthOf v ≤ maxArtifactMetadataDepth) :
    ∃ h', retain (dumps v).toUTF8 o h = (.ok ⟨(dumps v).toUTF8, o⟩, h') ∧ h <+: h' := by
  obtain ⟨pairs, rfl⟩ := hobject
  obtain ⟨thawed, h', hthaw, hland⟩ := thawJson_runs hv hd
  refine ⟨h', ?_, hland.grows⟩
  simp only [retain, Txn.bind_ok, Txn.query_ok, Txn.ensure_ok, Txn.pure_ok]
  exact ⟨_, h, ⟨rfl, rfl⟩, (), h, ⟨isMappingProxy_of_holds hv, rfl⟩, thawed, h', hthaw,
    _, h', canonicalJsonBytes_runs hland.holds hd, (), h', ⟨rfl, rfl⟩, trivial, rfl⟩

theorem snapshotMetadata_ok {o o' : Obj} {h h' : Heap}
    (hrun : snapshotMetadata nfc o h = (.ok o', h')) :
    ∃ v, Holds plainView (fun _ => True) h' o v ∧ Allowed nfc v ∧
      depthOf v ≤ maxArtifactMetadataDepth ∧ nodesOf v ≤ maxArtifactMetadataNodes ∧
      h <+: h' ∧ Holds plainView (h.length ≤ ·) h' o' v := by
  simp only [snapshotMetadata, Prod.mk.injEq] at hrun
  obtain ⟨hresult, hheap⟩ := hrun
  have hpair : snapshotJsonValue nfc maxArtifactMetadataDepth "metadata" [] o ⟨h, 0⟩ =
      (.ok o', (snapshotJsonValue nfc maxArtifactMetadataDepth "metadata" [] o ⟨h, 0⟩).2) :=
    Prod.ext hresult rfl
  obtain ⟨hcounted, v, hsrc, hgood, hland⟩ :=
    snapshot_ok _ _ _ o ⟨h, 0⟩ o' _ (Nat.zero_le _) hpair
  have hnodes := hland.counted
  simp only [Nat.zero_add] at hnodes
  subst hheap
  refine ⟨v, hsrc, hgood.1, hgood.2, ?_, hland.grows, hland.holds⟩
  rw [← hnodes]
  exact hcounted

theorem snapshotMetadata_runs {o : Obj} {h : Heap} {v : Value}
    (hv : Holds plainView (fun _ => True) h o v) (ha : Allowed nfc v)
    (hd : depthOf v ≤ maxArtifactMetadataDepth) (hn : nodesOf v ≤ maxArtifactMetadataNodes) :
    ∃ o' h', snapshotMetadata nfc o h = (.ok o', h') ∧ h <+: h' ∧
      Holds plainView (h.length ≤ ·) h' o' v := by
  obtain ⟨o', s', hrun, hland⟩ := snapshot_runs h _ "metadata" [] o v hv ha hd
    (fun _ hid => absurd hid List.not_mem_nil) ⟨h, 0⟩ List.prefix_rfl (by simpa using hn)
  exact ⟨o', s'.heap, by simp [snapshotMetadata, hrun], hland.grows, hland.holds⟩

/-! ### The encoder -/

/-- **What the encoder accepts is within the bounds, and its bytes are the
canonical text.** -/
theorem canonical_ok {o : Obj} {maximumBytes : Int} {c : CanonicalArtifactMetadataV1}
    {h h' : Heap} (hrun : canonicalArtifactMetadataV1 nfc o maximumBytes h = (.ok c, h')) :
    ∃ v h₁, h <+: h₁ ∧ Holds plainView (fun _ => True) h₁ o v ∧ Accepted nfc maximumBytes v ∧
      c.canonicalBytes = (dumps v).toUTF8 := by
  simp only [canonicalArtifactMetadataV1, Txn.bind_ok, Txn.ensure_ok, requireDict_ok] at hrun
  obtain ⟨_, _, ⟨hpositive, rfl⟩, _, _, ⟨hplain, rfl⟩, snapshot, h₁, hsnap, _, _, ⟨hdict, rfl⟩,
    bytes, h₂, hbytes, _, _, ⟨hsize, rfl⟩, frozen, h₃, -, hretain⟩ := hrun
  obtain ⟨v, hsrc, hallowed, hdepth, hnodes, hp, hcopy⟩ := snapshotMetadata_ok hsnap
  have heq := canonicalJsonBytes_runs hcopy hdepth
  rw [hbytes] at heq
  simp only [Prod.mk.injEq, Except.ok.injEq] at heq
  obtain ⟨rfl, rfl⟩ := heq
  refine ⟨v, h₂, hp, hsrc, ⟨hpositive, (isPlainDict_iff hcopy).mp hdict, hallowed, hdepth, hnodes,
    hsize⟩, ?_⟩
  simp only [retain, Txn.bind_ok, Txn.query_ok, Txn.ensure_ok, Txn.pure_ok] at hretain
  obtain ⟨_, _, _, _, _, _, _, _, _, _, _, _, _, _, _, rfl, -⟩ := hretain
  rfl

/-- **Metadata within the bounds is accepted**, nothing that exists is written,
and the value kept is in cells of its own. -/
theorem canonical_runs {o : Obj} {maximumBytes : Int} {h : Heap} {v : Value}
    (hv : Holds plainView (fun _ => True) h o v) (ha : Accepted nfc maximumBytes v) :
    ∃ c h', canonicalArtifactMetadataV1 nfc o maximumBytes h = (.ok c, h') ∧ h <+: h' ∧
      c.canonicalBytes = (dumps v).toUTF8 ∧ Holds frozenView (h.length ≤ ·) h' c.value v := by
  obtain ⟨snapshot, h₁, hsnap, hp₁, hcopy⟩ :=
    snapshotMetadata_runs hv ha.allowed ha.depth ha.nodes
  obtain ⟨frozen, h₂, hfreeze, hland⟩ := freezeJson_runs hcopy ha.depth
  have hp₂ : h₁ <+: h₂ := hland.grows
  obtain ⟨h₃, hretain, hp₃⟩ := retain_runs hland.holds ha.object ha.depth
  refine ⟨⟨(dumps v).toUTF8, frozen⟩, h₃, ?_, (hp₁.trans hp₂).trans hp₃, rfl, ?_⟩
  · simp only [canonicalArtifactMetadataV1, Txn.bind_ok, Txn.ensure_ok, requireDict_ok]
    exact ⟨(), h, ⟨ha.positive, rfl⟩, (), h, ⟨(isPlainDict_iff hv).mpr ha.object, rfl⟩,
      snapshot, h₁, hsnap, (), h₁, ⟨(isPlainDict_iff hcopy).mpr ha.object, rfl⟩,
      _, h₁, canonicalJsonBytes_runs hcopy ha.depth, (), h₁, ⟨ha.bytes, rfl⟩,
      frozen, h₂, hfreeze, hretain⟩
  · exact (hland.holds.mono (fun _ hid => Nat.le_trans hp₁.length_le hid)).grow hp₃

/-! ### The decoder -/

theorem readDocument_dumps {v : Value} (hv : Tidy v) :
    readDocument (dumps v).toUTF8 = .ok (PyJson.normalize v) := by
  have hloads : strictLoads (dumps v) = some (PyJson.normalize v) := by
    rw [← dumps_normalize hv]
    exact strictLoads_dumps (normal_normalize v (Tidy.plain v hv))
  have hvalid : (dumps v).toUTF8.IsValidUTF8 := (dumps v).isValidUTF8
  have htext : String.fromUTF8? (dumps v).toUTF8 = some (dumps v) := by
    rw [String.fromUTF8?, dif_pos hvalid]
    rfl
  rw [readDocument, htext, Option.bind_some, hloads]

/-- **The decoder takes the canonical text** and keeps the value in key
order. -/
theorem decode_canonical {maximumBytes : Int} {v : Value} (hv : Tidy v)
    (ha : Accepted nfc maximumBytes v) (h : Heap) :
    ∃ d h', decodeCanonicalArtifactMetadataV1 nfc (dumps v).toUTF8 maximumBytes h = (.ok d, h') ∧
      d.canonicalBytes = (dumps v).toUTF8 ∧
      Holds frozenView (h.length ≤ ·) h' d.value (PyJson.normalize v) := by
  have hnormal := normal_normalize v (Tidy.plain v hv)
  obtain ⟨o, h₁, hbuild, hland⟩ := @build_runs CodecError _ hnormal (tidy_normalize v hv) h
  have hp : h <+: h₁ := hland.grows
  obtain ⟨d, h₂, hrun, -, hbytes, hvalue⟩ :=
    canonical_runs (hland.holds.mono (fun _ _ => trivial)) (ha.normalize hv)
  rw [dumps_normalize hv] at hbytes
  refine ⟨d, h₂, ?_, hbytes, hvalue.mono (fun _ hid => Nat.le_trans hp.length_le hid)⟩
  simp only [decodeCanonicalArtifactMetadataV1, Txn.bind_ok, Txn.ensure_ok, Txn.lift_ok,
    Txn.pure_ok]
  exact ⟨(), h, ⟨ha.bytes, rfl⟩, _, h, ⟨readDocument_dumps hv, rfl⟩, o, h₁, hbuild, d, h₂, hrun,
    (), h₂, ⟨hbytes, rfl⟩, rfl, rfl⟩

/-- What the decoder accepts, the encoder wrote. -/
theorem decode_ok {encoded : ByteArray} {maximumBytes : Int} {d : CanonicalArtifactMetadataV1}
    {h h' : Heap}
    (hrun : decodeCanonicalArtifactMetadataV1 nfc encoded maximumBytes h = (.ok d, h')) :
    ∃ o h₁, canonicalArtifactMetadataV1 nfc o maximumBytes h₁ = (.ok d, h') ∧
      d.canonicalBytes = encoded := by
  simp only [decodeCanonicalArtifactMetadataV1, Txn.bind_ok, Txn.ensure_ok, Txn.lift_ok,
    Txn.pure_ok] at hrun
  obtain ⟨_, _, _, _, _, _, o, h₁, -, c, h₂, hcanonical, _, _, ⟨hbytes, rfl⟩, rfl, rfl⟩ := hrun
  exact ⟨o, h₁, hcanonical, hbytes⟩

theorem toDict_runs {own : Nat → Prop} {c : CanonicalArtifactMetadataV1} {h : Heap} {v : Value}
    (hv : Holds frozenView own h c.value v) (hobject : ∃ pairs, v = .dict pairs)
    (hd : depthOf v ≤ maxArtifactMetadataDepth) :
    ∃ o h', c.toDict h = (.ok o, h') ∧ Holds plainView (h.length ≤ ·) h' o v := by
  obtain ⟨o, h', hthaw, hland⟩ := thawJson_runs hv hd
  refine ⟨o, h', ?_, hland.holds⟩
  simp only [CanonicalArtifactMetadataV1.toDict, Txn.bind_ok, requireDict_ok, Txn.pure_ok]
  exact ⟨o, h', hthaw, (), h', ⟨(isPlainDict_iff hland.holds).mpr hobject, rfl⟩, rfl, rfl⟩

/-- **Bytes and values are one.** -/
theorem bytes_eq_iff {v w : Value} (hv : Tidy v) (hw : Tidy w) :
    (dumps v).toUTF8 = (dumps w).toUTF8 ↔ typedEq v w = true := by
  rw [typedEq_iff_dumps hv hw]
  constructor
  · intro heq
    exact String.toByteArray_inj.mp heq
  · intro heq
    rw [heq]

/-! ## The laws of the codec -/

/-- **The laws of the metadata codec.** Accepted metadata is a value `v` and is
left as it was; its bytes decode to that value, type by type; the frozen value
is made of cells of its own and gives `v` back in every heap that has the
tuples and the proxies of this one, whatever became of the lists and dicts; the
decoder takes a byte string exactly if the encoder writes it for some metadata;
and two accepted values have the same bytes exactly if they are equal. -/
theorem metadata_codec_laws (nfc : String → String) :
    (∀ h m maximumBytes c h', WellFormed h → m.within (· < h.length) →
      canonicalArtifactMetadataV1 nfc m maximumBytes h = (.ok c, h') →
      ∃ v, Holds plainView (fun _ => True) h m v ∧ h <+: h' ∧
        (∀ h₁, ∃ d h₂ o h₃ w,
          decodeCanonicalArtifactMetadataV1 nfc c.canonicalBytes maximumBytes h₁ = (.ok d, h₂) ∧
          d.canonicalBytes = c.canonicalBytes ∧ d.toDict h₂ = (.ok o, h₃) ∧
          Holds plainView (fun _ => True) h₃ o w ∧ typedEq v w = true) ∧
        Holds frozenView (h.length ≤ ·) h' c.value v ∧
        (∀ h₁, Keeps frozenView (fun _ => True) h' h₁ →
          ∃ o h₂, c.toDict h₁ = (.ok o, h₂) ∧ Holds plainView (h₁.length ≤ ·) h₂ o v)) ∧
    (∀ encoded maximumBytes h₁,
      (∃ d h₂, decodeCanonicalArtifactMetadataV1 nfc encoded maximumBytes h₁ = (.ok d, h₂)) ↔
        ∃ h m c h', canonicalArtifactMetadataV1 nfc m maximumBytes h = (.ok c, h') ∧
          c.canonicalBytes = encoded) ∧
    (∀ h₁ m₁ max₁ c₁ h₁' v₁ h₂ m₂ max₂ c₂ h₂' v₂,
      canonicalArtifactMetadataV1 nfc m₁ max₁ h₁ = (.ok c₁, h₁') →
      canonicalArtifactMetadataV1 nfc m₂ max₂ h₂ = (.ok c₂, h₂') →
      Holds plainView (fun _ => True) h₁ m₁ v₁ → Holds plainView (fun _ => True) h₂ m₂ v₂ →
      (c₁.canonicalBytes = c₂.canonicalBytes ↔ typedEq v₁ v₂ = true)) := by
  refine ⟨?_, ?_, ?_⟩
  · intro h m maximumBytes c h' hw hm hrun
    obtain ⟨v, h₁, hp, hv, ha, hbytes⟩ := canonical_ok hrun
    have hv := hv.restrict faithful_plainView hw hp hm
    have htidy := Holds.tidy v m hv
    obtain ⟨c', h'', hrun', hp', -, hvalue⟩ := canonical_runs hv ha
    rw [hrun] at hrun'
    simp only [Prod.mk.injEq, Except.ok.injEq] at hrun'
    obtain ⟨rfl, rfl⟩ := hrun'
    refine ⟨v, hv, hp', ?_, hvalue, ?_⟩
    · intro h₂
      obtain ⟨d, h₃, hdecode, hsame, hkept⟩ := decode_canonical htidy ha h₂
      have hnormal := ha.normalize htidy
      obtain ⟨o, h₄, hdict, ho⟩ := toDict_runs hkept hnormal.object hnormal.depth
      refine ⟨d, h₃, o, h₄, PyJson.normalize v, ?_, ?_, hdict, ho.mono (fun _ _ => trivial), ?_⟩
      · rw [hbytes]
        exact hdecode
      · rw [hbytes]
        exact hsame
      · rw [typedEq_iff v _ htidy (tidy_normalize v htidy), normalize_normalize htidy]
    · intro h₂ hkeeps
      have hlater : Holds frozenView (fun _ => True) h₂ c.value v :=
        Holds.keep (fun _ _ => trivial) hkeeps v c.value (hvalue.mono (fun _ _ => trivial))
      exact toDict_runs hlater ha.object ha.depth
  · intro encoded maximumBytes h₁
    constructor
    · intro hdecode
      obtain ⟨d, h₂, hrun⟩ := hdecode
      obtain ⟨o, h₃, hcanonical, hbytes⟩ := decode_ok hrun
      exact ⟨h₃, o, d, h₂, hcanonical, hbytes⟩
    · intro hencode
      obtain ⟨h, m, c, h', hrun, rfl⟩ := hencode
      obtain ⟨v, h₂, -, hv, ha, hbytes⟩ := canonical_ok hrun
      obtain ⟨d, h₃, hdecode, -, -⟩ := decode_canonical (Holds.tidy v m hv) ha h₁
      rw [hbytes]
      exact ⟨d, h₃, hdecode⟩
  · intro h₁ m₁ max₁ c₁ h₁' v₁ h₂ m₂ max₂ c₂ h₂' v₂ hrun₁ hrun₂ hv₁ hv₂
    obtain ⟨w₁, g₁, hp₁, hw₁, -, hb₁⟩ := canonical_ok hrun₁
    obtain ⟨w₂, g₂, hp₂, hw₂, -, hb₂⟩ := canonical_ok hrun₂
    cases Holds.unique v₁ m₁ w₁ (hv₁.grow hp₁) hw₁
    cases Holds.unique v₂ m₂ w₂ (hv₂.grow hp₂) hw₂
    rw [hb₁, hb₂]
    exact bytes_eq_iff (Holds.tidy v₁ m₁ hv₁) (Holds.tidy v₂ m₂ hv₂)

-- A dict with a list in it, its keys out of order.
example : (match (canonicalArtifactMetadataV1 id (.ref 1) 64
      [.list [.bool true], .dict ⟨[(.str "b", .int 1), (.str "a", .ref 0)], by decide⟩]).1 with
    | .ok c => decide (c.canonicalBytes = "\x7b\"a\":[true],\"b\":1\x7d".toUTF8)
    | .error _ => false) = true := by
  decide +kernel

end Codec

end QuantumEntanglement.ArtifactCodec
