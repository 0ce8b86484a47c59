import QuantumEntanglement.Store.Json

/-
  Artifact metadata — bounded JSON, written in one form

  A caller's metadata is walked before it is encoded: its nodes, its nesting,
  its keys, its texts and its integers are bounded, and a value JSON has no
  form for is refused. What is stored is the compact text with its keys
  sorted, and what is fingerprinted is what that text decodes to.

  What is proved:
    1. `visit_ok` — the walk accepts the values that fit, and counts their
       nodes.
    2. `fits_normalize` — a value that fits still fits after a trip through
       its text.
    3. `canonicalMetadata_ok` — accepted metadata is read back from its text
       and passes the walk again.
-/

namespace QuantumEntanglement.ArtifactStore

open PyJson PyText

def maxIdentifierLength : Nat := 512
def maxMediaTypeLength : Nat := 255
def maxMetadataContainerDepth : Nat := 64
def maxMetadataNodes : Nat := 10000
def maxMetadataKeyLength : Nat := 512
def maxMetadataStringLength : Nat := 65536
def maxMetadataIntegerBits : Nat := 4096

def valueError {α : Type} (message : String) : Except StoreError α := .error ⟨.valueError, message⟩

def typeError {α : Type} (message : String) : Except StoreError α := .error ⟨.typeError, message⟩

/-- `ArtifactTooLargeError`. -/
def tooLarge {α : Type} (message : String) : Except StoreError α :=
  .error ⟨.artifactTooLarge, message⟩

/-- `ArtifactIntegrityError`. -/
def integrityError {α : Type} (message : String) : Except StoreError α :=
  .error ⟨.artifactIntegrity, message⟩

/-! ## Texts -/

/-- `_required_text`. -/
def requiredText (value name : String) (maxLength : Nat) : Except StoreError String :=
  if isBlank value then valueError (name ++ " is required")
  else if maxLength < value.length then
    valueError (name ++ " exceeds " ++ toString maxLength ++ " characters")
  else if value.toList.any (fun c => c == '\x00' || c == '\r' || c == '\n') then
    valueError (name ++ " contains a forbidden control character")
  else .ok value

/-- A text `requiredText` accepts. -/
def TextOk (maxLength : Nat) (value : String) : Prop :=
  isBlank value = false ∧ value.length ≤ maxLength ∧
    value.toList.any (fun c => c == '\x00' || c == '\r' || c == '\n') = false

instance (maxLength : Nat) (value : String) : Decidable (TextOk maxLength value) :=
  inferInstanceAs (Decidable (_ ∧ _ ∧ _))

theorem requiredText_ok {value name v : String} {maxLength : Nat} :
    requiredText value name maxLength = .ok v ↔ TextOk maxLength value ∧ v = value := by
  unfold requiredText TextOk valueError
  split
  next h => simp [h]
  next h =>
    split
    next hl => simp [Nat.not_le.mpr hl]
    next hl =>
      split
      next hc => simp [hc]
      next hc =>
        simp only [Bool.not_eq_true] at h hc
        simp [h, hc, Nat.not_lt.mp hl, eq_comm]

/-! ## The walk -/

/-- One more value node. -/
def countNode (nodes : Nat) : Except StoreError Nat :=
  if maxMetadataNodes < nodes + 1 then
    tooLarge ("metadata exceeds " ++ toString maxMetadataNodes ++ " JSON value nodes")
  else .ok (nodes + 1)

/-- The nesting check of a container met below `parentDepth`. -/
def enterContainer (parentDepth : Nat) : Except StoreError Unit :=
  if maxMetadataContainerDepth < parentDepth + 1 then
    tooLarge ("metadata exceeds " ++ toString maxMetadataContainerDepth ++ " nested JSON containers")
  else .ok ()

/-- A container cannot hold more items than there are nodes left. -/
def roomFor (items nodes : Nat) : Except StoreError Unit :=
  if maxMetadataNodes - nodes < items then
    tooLarge ("metadata exceeds " ++ toString maxMetadataNodes ++ " JSON value nodes")
  else .ok ()

mutual

/-- `_validate_json_value`: the nodes counted after a value. The source keeps a
stack of values to come and visits them in this order. -/
def visit (path : String) (parentDepth nodes : Nat) : Value → Except StoreError Nat
  | .null => countNode nodes
  | .bool _ => countNode nodes
  | .str s => do
    let n ← countNode nodes
    if maxMetadataStringLength < s.length then
      tooLarge (path ++ " exceeds " ++ toString maxMetadataStringLength ++ " characters")
    else .ok n
  | .int k => do
    let n ← countNode nodes
    if maxMetadataIntegerBits < bitLength k then
      tooLarge (path ++ " exceeds " ++ toString maxMetadataIntegerBits ++ " integer bits")
    else .ok n
  | .float _ => countNode nodes
  | .nonFinite => do
    let _ ← countNode nodes
    valueError (path ++ " contains a non-finite number")
  | .tuple _ => do
    let _ ← countNode nodes
    typeError (path ++ " contains unsupported type tuple")
  | .other typeName => do
    let _ ← countNode nodes
    typeError (path ++ " contains unsupported type " ++ typeName)
  | .backReference => do
    let _ ← countNode nodes
    let _ ← enterContainer parentDepth
    valueError (path ++ " contains a reference cycle")
  | .list items => do
    let n ← countNode nodes
    let _ ← enterContainer parentDepth
    let _ ← roomFor items.length n
    visitItems path 0 (parentDepth + 1) n items
  | .dict pairs => do
    let n ← countNode nodes
    let _ ← enterContainer parentDepth
    let _ ← roomFor pairs.length n
    if pairs.any (fun p => maxMetadataKeyLength < p.1.length) then
      tooLarge (path ++ " key exceeds " ++ toString maxMetadataKeyLength ++ " characters")
    else visitPairs path (parentDepth + 1) n pairs

def visitItems (path : String) (index parentDepth nodes : Nat) : List Value → Except StoreError Nat
  | [] => .ok nodes
  | v :: rest => do
    let n ← visit (path ++ "[" ++ toString index ++ "]") parentDepth nodes v
    visitItems path (index + 1) parentDepth n rest

def visitPairs (path : String) (parentDepth nodes : Nat) :
    List (String × Value) → Except StoreError Nat
  | [] => .ok nodes
  | (k, v) :: rest => do
    let n ← visit (path ++ "." ++ k) parentDepth nodes v
    visitPairs path parentDepth n rest

end

/-! ## What the walk accepts -/

mutual

/-- The values a value consists of, itself among them. -/
def nodesOf : Value → Nat
  | .list items => 1 + nodesOfItems items
  | .dict pairs => 1 + nodesOfPairs pairs
  | _ => 1

def nodesOfItems : List Value → Nat
  | [] => 0
  | v :: rest => nodesOf v + nodesOfItems rest

def nodesOfPairs : List (String × Value) → Nat
  | [] => 0
  | (_, v) :: rest => nodesOf v + nodesOfPairs rest

end

mutual

/-- A JSON value within the bounds, below `depth` containers. -/
def Fits (depth : Nat) : Value → Prop
  | .null => True
  | .bool _ => True
  | .float _ => True
  | .str s => s.length ≤ maxMetadataStringLength
  | .int k => bitLength k ≤ maxMetadataIntegerBits
  | .list items => depth + 1 ≤ maxMetadataContainerDepth ∧ FitsItems (depth + 1) items
  | .dict pairs => depth + 1 ≤ maxMetadataContainerDepth ∧ FitsPairs (depth + 1) pairs
  | .nonFinite => False
  | .tuple _ => False
  | .other _ => False
  | .backReference => False

def FitsItems (depth : Nat) : List Value → Prop
  | [] => True
  | v :: rest => Fits depth v ∧ FitsItems depth rest

def FitsPairs (depth : Nat) : List (String × Value) → Prop
  | [] => True
  | (k, v) :: rest => k.length ≤ maxMetadataKeyLength ∧ Fits depth v ∧ FitsPairs depth rest

end

theorem countNode_ok {nodes n : Nat} :
    countNode nodes = .ok n ↔ n = nodes + 1 ∧ n ≤ maxMetadataNodes := by
  unfold countNode tooLarge
  split
  next h =>
    simp only [reduceCtorEq, false_iff, not_and]
    omega
  next h =>
    simp only [Except.ok.injEq]
    omega

theorem enterContainer_ok {depth : Nat} {u : Unit} :
    enterContainer depth = .ok u ↔ depth + 1 ≤ maxMetadataContainerDepth := by
  unfold enterContainer tooLarge
  split
  next h =>
    simp only [reduceCtorEq, false_iff]
    omega
  next h =>
    simp only [true_iff]
    omega

theorem roomFor_ok {items nodes : Nat} {u : Unit} :
    roomFor items nodes = .ok u ↔ items ≤ maxMetadataNodes - nodes := by
  unfold roomFor tooLarge
  split
  next h =>
    simp only [reduceCtorEq, false_iff]
    omega
  next h =>
    simp only [true_iff]
    omega

theorem one_le_nodesOf (v : Value) : 1 ≤ nodesOf v := by
  cases v <;> simp [nodesOf]

theorem length_le_nodesOfItems (items : List Value) : items.length ≤ nodesOfItems items := by
  induction items with
  | nil => simp [nodesOfItems]
  | cons v rest ih =>
    have hv := one_le_nodesOf v
    simp only [List.length_cons, nodesOfItems]
    omega

theorem length_le_nodesOfPairs (pairs : List (String × Value)) :
    pairs.length ≤ nodesOfPairs pairs := by
  induction pairs with
  | nil => simp [nodesOfPairs]
  | cons p rest ih =>
    have hv := one_le_nodesOf p.2
    obtain ⟨k, v⟩ := p
    simp only [List.length_cons, nodesOfPairs] at hv ⊢
    omega

theorem fitsPairs_keys {depth : Nat} {pairs : List (String × Value)} (h : FitsPairs depth pairs) :
    pairs.any (fun p => maxMetadataKeyLength < p.1.length) = false := by
  induction pairs with
  | nil => rfl
  | cons p rest ih =>
    obtain ⟨k, v⟩ := p
    obtain ⟨hk, -, hrest⟩ := h
    simp only [List.any_cons, ih hrest, Bool.or_false, decide_eq_false_iff_not, Nat.not_lt]
    exact hk

mutual

/-- **The walk accepts the values that fit**, and counts their nodes. -/
theorem visit_ok : ∀ (v : Value) (path : String) (depth nodes n : Nat),
    visit path depth nodes v = .ok n ↔
      Fits depth v ∧ n = nodes + nodesOf v ∧ n ≤ maxMetadataNodes
  | .null, path, depth, nodes, n => by simp [visit, countNode_ok, Fits, nodesOf]
  | .bool _, path, depth, nodes, n => by simp [visit, countNode_ok, Fits, nodesOf]
  | .float _, path, depth, nodes, n => by simp [visit, countNode_ok, Fits, nodesOf]
  | .str s, path, depth, nodes, n => by
    simp only [visit, except_bind_ok, countNode_ok, Fits, nodesOf, tooLarge]
    by_cases h : maxMetadataStringLength < s.length
    · simp [h, Nat.not_le.mpr h]
    · simp only [h, if_false, Except.ok.injEq, Nat.not_lt.mp h, true_and]
      constructor
      · rintro ⟨_, hn, rfl⟩
        exact hn
      · intro hn
        exact ⟨n, hn, rfl⟩
  | .int k, path, depth, nodes, n => by
    simp only [visit, except_bind_ok, countNode_ok, Fits, nodesOf, tooLarge]
    by_cases h : maxMetadataIntegerBits < bitLength k
    · simp [h, Nat.not_le.mpr h]
    · simp only [h, if_false, Except.ok.injEq, Nat.not_lt.mp h, true_and]
      constructor
      · rintro ⟨_, hn, rfl⟩
        exact hn
      · intro hn
        exact ⟨n, hn, rfl⟩
  | .nonFinite, path, depth, nodes, n => by simp [visit, except_bind_ok, Fits, valueError]
  | .tuple _, path, depth, nodes, n => by simp [visit, except_bind_ok, Fits, typeError]
  | .other _, path, depth, nodes, n => by simp [visit, except_bind_ok, Fits, typeError]
  | .backReference, path, depth, nodes, n => by simp [visit, except_bind_ok, Fits, valueError]
  | .list items, path, depth, nodes, n => by
    have hlen := length_le_nodesOfItems items
    simp only [visit, except_bind_ok, countNode_ok, enterContainer_ok, roomFor_ok, Fits, nodesOf]
    constructor
    · rintro ⟨_, ⟨rfl, hn⟩, _, hdepth, _, hroom, h⟩
      obtain ⟨hfits, rfl, hmax⟩ := (visitItems_ok items path 0 (depth + 1) (nodes + 1) n hn).mp h
      exact ⟨⟨hdepth, hfits⟩, by omega, hmax⟩
    · rintro ⟨⟨hdepth, hfits⟩, rfl, hmax⟩
      refine ⟨_, ⟨rfl, by omega⟩, (), hdepth, (), by omega, ?_⟩
      exact (visitItems_ok items path 0 (depth + 1) (nodes + 1) _ (by omega)).mpr
        ⟨hfits, by omega, hmax⟩
  | .dict pairs, path, depth, nodes, n => by
    have hlen := length_le_nodesOfPairs pairs
    simp only [visit, except_bind_ok, countNode_ok, enterContainer_ok, roomFor_ok, Fits, nodesOf]
    constructor
    · rintro ⟨_, ⟨rfl, hn⟩, _, hdepth, _, hroom, h⟩
      split at h
      · simp [tooLarge] at h
      next hkeys =>
        obtain ⟨hfits, rfl, hmax⟩ := (visitPairs_ok pairs path (depth + 1) (nodes + 1) n
          (by simpa using hkeys) hn).mp h
        exact ⟨⟨hdepth, hfits⟩, by omega, hmax⟩
    · rintro ⟨⟨hdepth, hfits⟩, rfl, hmax⟩
      refine ⟨_, ⟨rfl, by omega⟩, (), hdepth, (), by omega, ?_⟩
      have hkeys := fitsPairs_keys hfits
      rw [hkeys, if_neg (by simp)]
      exact (visitPairs_ok pairs path (depth + 1) (nodes + 1) _ hkeys (by omega)).mpr
        ⟨hfits, by omega, hmax⟩

theorem visitItems_ok : ∀ (items : List Value) (path : String) (index depth nodes n : Nat),
    nodes ≤ maxMetadataNodes →
    (visitItems path index depth nodes items = .ok n ↔
      FitsItems depth items ∧ n = nodes + nodesOfItems items ∧ n ≤ maxMetadataNodes)
  | [], path, index, depth, nodes, n, hn => by
    simp only [visitItems, Except.ok.injEq, FitsItems, nodesOfItems, true_and, Nat.add_zero]
    constructor
    · rintro rfl
      exact ⟨rfl, hn⟩
    · exact fun h => h.1.symm
  | v :: rest, path, index, depth, nodes, n, _ => by
    simp only [visitItems, except_bind_ok, visit_ok v, FitsItems, nodesOfItems]
    constructor
    · rintro ⟨m, ⟨hv, rfl, hm⟩, h⟩
      obtain ⟨hrest, rfl, hmax⟩ := (visitItems_ok rest path (index + 1) depth _ n hm).mp h
      exact ⟨⟨hv, hrest⟩, by omega, hmax⟩
    · rintro ⟨⟨hv, hrest⟩, rfl, hmax⟩
      exact ⟨_, ⟨hv, rfl, by omega⟩, (visitItems_ok rest path (index + 1) depth _ _ (by omega)).mpr
        ⟨hrest, by omega, hmax⟩⟩

theorem visitPairs_ok : ∀ (pairs : List (String × Value)) (path : String) (depth nodes n : Nat),
    pairs.any (fun p => maxMetadataKeyLength < p.1.length) = false → nodes ≤ maxMetadataNodes →
    (visitPairs path depth nodes pairs = .ok n ↔
      FitsPairs depth pairs ∧ n = nodes + nodesOfPairs pairs ∧ n ≤ maxMetadataNodes)
  | [], path, depth, nodes, n, _, hn => by
    simp only [visitPairs, Except.ok.injEq, FitsPairs, nodesOfPairs, true_and, Nat.add_zero]
    constructor
    · rintro rfl
      exact ⟨rfl, hn⟩
    · exact fun h => h.1.symm
  | (k, v) :: rest, path, depth, nodes, n, hkeys, _ => by
    simp only [List.any_cons, Bool.or_eq_false_iff, decide_eq_false_iff_not, Nat.not_lt] at hkeys
    simp only [visitPairs, except_bind_ok, visit_ok v, FitsPairs, nodesOfPairs, hkeys.1, true_and]
    constructor
    · rintro ⟨m, ⟨hv, rfl, hm⟩, h⟩
      obtain ⟨hrest, rfl, hmax⟩ := (visitPairs_ok rest path depth _ n hkeys.2 hm).mp h
      exact ⟨⟨hv, hrest⟩, by omega, hmax⟩
    · rintro ⟨⟨hv, hrest⟩, rfl, hmax⟩
      exact ⟨_, ⟨hv, rfl, by omega⟩, (visitPairs_ok rest path depth _ _ hkeys.2 (by omega)).mpr
        ⟨hrest, by omega, hmax⟩⟩

end

/-! ## A trip through the text -/

mutual

theorem fits_plain : ∀ (v : Value) (depth : Nat), Fits depth v → Plain v
  | .null, _, _ => trivial
  | .bool _, _, _ => trivial
  | .float _, _, _ => trivial
  | .str _, _, _ => trivial
  | .int _, _, _ => trivial
  | .list items, depth, h => fitsItems_plain items (depth + 1) h.2
  | .dict pairs, depth, h => fitsPairs_plain pairs (depth + 1) h.2
  | .nonFinite, _, h => h.elim
  | .tuple _, _, h => h.elim
  | .other _, _, h => h.elim
  | .backReference, _, h => h.elim

theorem fitsItems_plain : ∀ (items : List Value) (depth : Nat), FitsItems depth items →
    PlainItems items
  | [], _, _ => trivial
  | v :: rest, depth, h => ⟨fits_plain v depth h.1, fitsItems_plain rest depth h.2⟩

theorem fitsPairs_plain : ∀ (pairs : List (String × Value)) (depth : Nat), FitsPairs depth pairs →
    PlainPairs pairs
  | [], _, _ => trivial
  | (_, v) :: rest, depth, h => ⟨fits_plain v depth h.2.1, fitsPairs_plain rest depth h.2.2⟩

end

/-- An assignment keeps the bounds, and adds the value's nodes at most. -/
theorem insertKey_fits {k : String} {v : Value} {depth : Nat} (hk : k.length ≤ maxMetadataKeyLength)
    (hv : Fits depth v) {acc : List (String × Value)} (hacc : FitsPairs depth acc) :
    FitsPairs depth (insertKey k v acc) ∧
      nodesOfPairs (insertKey k v acc) ≤ nodesOf v + nodesOfPairs acc := by
  induction acc with
  | nil => exact ⟨⟨hk, hv, trivial⟩, by simp [insertKey, nodesOfPairs]⟩
  | cons p rest ih =>
    obtain ⟨k', v'⟩ := p
    obtain ⟨hk', hv', hrest⟩ := hacc
    obtain ⟨hfits, hnodes⟩ := ih hrest
    unfold insertKey
    split
    · refine ⟨⟨hk, hv, hrest⟩, ?_⟩
      simp only [nodesOfPairs]
      omega
    · split
      · exact ⟨⟨hk, hv, hk', hv', hrest⟩, by simp only [nodesOfPairs]; omega⟩
      · refine ⟨⟨hk', hv', hfits⟩, ?_⟩
        simp only [nodesOfPairs]
        omega

mutual

/-- **A value that fits still fits in normal form**, with no more nodes. -/
theorem fits_normalize : ∀ (v : Value) (depth : Nat), Fits depth v →
    Fits depth (PyJson.normalize v) ∧ nodesOf (PyJson.normalize v) ≤ nodesOf v
  | .null, _, _ => ⟨trivial, by simp [PyJson.normalize]⟩
  | .bool _, _, _ => ⟨trivial, by simp [PyJson.normalize, nodesOf]⟩
  | .float _, _, _ => ⟨trivial, by simp [PyJson.normalize, nodesOf]⟩
  | .str _, _, h => ⟨h, by simp [PyJson.normalize, nodesOf]⟩
  | .int _, _, h => ⟨h, by simp [PyJson.normalize, nodesOf]⟩
  | .list items, depth, h => by
    obtain ⟨hfits, hnodes⟩ := fits_normalizeItems items (depth + 1) h.2
    simp only [PyJson.normalize, nodesOf]
    exact ⟨⟨h.1, hfits⟩, by omega⟩
  | .dict pairs, depth, h => by
    obtain ⟨hfits, hnodes⟩ := fits_normalizePairs pairs [] (depth + 1) h.2 trivial
    simp only [PyJson.normalize, nodesOf]
    simp only [nodesOfPairs] at hnodes
    exact ⟨⟨h.1, hfits⟩, by omega⟩
  | .nonFinite, _, h => h.elim
  | .tuple _, _, h => h.elim
  | .other _, _, h => h.elim
  | .backReference, _, h => h.elim

theorem fits_normalizeItems : ∀ (items : List Value) (depth : Nat), FitsItems depth items →
    FitsItems depth (normalizeItems items) ∧
      nodesOfItems (normalizeItems items) ≤ nodesOfItems items
  | [], _, _ => ⟨trivial, by simp [normalizeItems]⟩
  | v :: rest, depth, h => by
    obtain ⟨hv, hvn⟩ := fits_normalize v depth h.1
    obtain ⟨hrest, hrn⟩ := fits_normalizeItems rest depth h.2
    simp only [normalizeItems, nodesOfItems]
    exact ⟨⟨hv, hrest⟩, by omega⟩

theorem fits_normalizePairs : ∀ (pairs acc : List (String × Value)) (depth : Nat),
    FitsPairs depth pairs → FitsPairs depth acc →
    FitsPairs depth (normalizePairs acc pairs) ∧
      nodesOfPairs (normalizePairs acc pairs) ≤ nodesOfPairs acc + nodesOfPairs pairs
  | [], acc, _, _, hacc => ⟨hacc, by simp [normalizePairs]⟩
  | (k, v) :: rest, acc, depth, h, hacc => by
    obtain ⟨hv, hvn⟩ := fits_normalize v depth h.2.1
    obtain ⟨hins, hin⟩ := insertKey_fits h.1 hv hacc
    obtain ⟨hrest, hrn⟩ := fits_normalizePairs rest _ depth h.2.2 hins
    simp only [normalizePairs, nodesOfPairs]
    exact ⟨hrest, by omega⟩

end

/-- `_canonical_metadata`: the text, and what it decodes to. -/
def canonicalMetadata (metadata : Value) : Except StoreError (String × Value) :=
  if isObject metadata = false then typeError "metadata must be a plain dictionary"
  else do
    let _ ← visit "metadata" 0 0 metadata
    let encoded := dumps metadata
    match loads encoded with
    | some decoded =>
      if isObject decoded then .ok (encoded, decoded)
      else typeError "metadata must encode a JSON object"
    | none => valueError "metadata does not decode"

/-- Metadata as it is stored: an object within the bounds, in normal form. -/
structure MetadataOk (text : String) (metadata : Value) : Prop where
  reads : loads text = some metadata
  writes : dumps metadata = text
  object : isObject metadata = true
  walk : ∃ n, visit "metadata" 0 0 metadata = .ok n

/-- **Accepted metadata is read back from its text**, and passes the walk again. -/
theorem canonicalMetadata_ok {metadata m : Value} {text : String}
    (h : canonicalMetadata metadata = .ok (text, m)) : MetadataOk text m := by
  simp only [canonicalMetadata] at h
  split at h
  · simp [typeError] at h
  · simp only [except_bind_ok] at h
    obtain ⟨n, hvisit, h⟩ := h
    obtain ⟨hfits, rfl, hmax⟩ := (visit_ok metadata "metadata" 0 0 n).mp hvisit
    have hnormal := normal_normalize metadata (fits_plain metadata 0 hfits)
    have hsame : dumps (PyJson.normalize metadata) = dumps metadata := by
      rw [dumps, normalize_of_normal _ hnormal, dumps]
    have hloads : loads (dumps metadata) = some (PyJson.normalize metadata) := by
      rw [← hsame]
      exact loads_dumps hnormal
    obtain ⟨hfits', hnodes⟩ := fits_normalize metadata 0 hfits
    rw [hloads] at h
    simp only at h
    split at h
    next hobject =>
      obtain ⟨rfl, rfl⟩ := Prod.mk.inj (Except.ok.inj h)
      exact ⟨hloads, hsame, hobject, _, (visit_ok _ "metadata" 0 0 _).mpr ⟨hfits', rfl, by omega⟩⟩
    next => simp [typeError] at h

end QuantumEntanglement.ArtifactStore
