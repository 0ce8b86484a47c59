import QuantumEntanglement.Lib.PyJsonRoundTrip
import QuantumEntanglement.Store.Errors

/-
  Store JSON — the bounded copy of a caller's value and its stored text

  A caller's mapping is copied under limits on depth, nodes, key and string
  length and integer size, then encoded, then bounded again by its encoded
  size. A stored text is decoded, copied under the same limits and must be an
  object again.

  What is proved:
    1. `copyValue_ok` — the copy succeeds exactly on values within the limits
       (`Fits`), and is the value's normal form.
    2. `decode_encode` — **a text the encoder accepted decodes, under the same
       byte limit, to the normal form of the value it was made from.** The
       read side repeats the limits of the write side and none is tighter.
    3. `json_codec` — what is accepted is read back, what is rejected breaks a
       limit or is no JSON object, and equal texts are equal values.
-/

namespace QuantumEntanglement

open PyJson

def maxJsonDepth : Nat := 64
def maxJsonNodes : Nat := 10000
def maxJsonKeyLength : Nat := 512
def maxJsonStringLength : Nat := 65536
def maxJsonIntegerBits : Nat := 4096

/-- `int.bit_length`. -/
def bitLength (n : Int) : Nat := if n = 0 then 0 else n.natAbs.log2 + 1

/-- The depth check and the node count, made on every value. -/
def enterValue (path : String) (depth nodes : Nat) : Except StoreError Nat :=
  if maxJsonDepth < depth then
    .error ⟨.jsonTooLarge, path ++ " exceeds " ++ toString maxJsonDepth ++ " levels"⟩
  else if maxJsonNodes < nodes + 1 then
    .error ⟨.jsonTooLarge, "JSON field exceeds " ++ toString maxJsonNodes ++ " value nodes"⟩
  else .ok (nodes + 1)

mutual

/-- `_copy_json_value`: the copy of a value met at `path`, and the nodes counted so far. -/
def copyValue (path : String) (depth nodes : Nat) : Value → Except StoreError (Value × Nat)
  | .null => do
    let n ← enterValue path depth nodes
    .ok (.null, n)
  | .bool b => do
    let n ← enterValue path depth nodes
    .ok (.bool b, n)
  | .str s => do
    let n ← enterValue path depth nodes
    if maxJsonStringLength < s.length then
      .error ⟨.jsonTooLarge, path ++ " exceeds " ++ toString maxJsonStringLength ++ " characters"⟩
    else .ok (.str s, n)
  | .int k => do
    let n ← enterValue path depth nodes
    if maxJsonIntegerBits < bitLength k then
      .error ⟨.jsonTooLarge, path ++ " exceeds " ++ toString maxJsonIntegerBits ++ " integer bits"⟩
    else .ok (.int k, n)
  | .float x => do
    let n ← enterValue path depth nodes
    .ok (.float x, n)
  | .nonFinite => do
    let _ ← enterValue path depth nodes
    .error ⟨.jsonValueError, path ++ " contains a non-finite number"⟩
  | .dict pairs => do
    let n ← enterValue path depth nodes
    let (copied, n) ← copyPairs path (depth + 1) n [] pairs
    .ok (.dict copied, n)
  | .list items => do
    let n ← enterValue path depth nodes
    let (copied, n) ← copyItems path 0 (depth + 1) n items
    .ok (.list copied, n)
  | .tuple items => do
    let n ← enterValue path depth nodes
    let (copied, n) ← copyItems path 0 (depth + 1) n items
    .ok (.list copied, n)
  | .backReference => do
    let _ ← enterValue path depth nodes
    .error ⟨.jsonValueError, path ++ " contains a reference cycle"⟩
  | .other t => do
    let _ ← enterValue path depth nodes
    .error ⟨.jsonTypeError, path ++ " contains unsupported type " ++ t⟩

def copyItems (path : String) (index depth nodes : Nat) :
    List Value → Except StoreError (List Value × Nat)
  | [] => .ok ([], nodes)
  | v :: rest => do
    let (w, n) ← copyValue (path ++ "[" ++ toString index ++ "]") depth nodes v
    let (ws, n) ← copyItems path (index + 1) depth n rest
    .ok (w :: ws, n)

/-- The pairs of a mapping, assigned to `acc` in order. -/
def copyPairs (path : String) (depth nodes : Nat) (acc : List (String × Value)) :
    List (String × Value) → Except StoreError (List (String × Value) × Nat)
  | [] => .ok (acc, nodes)
  | (k, v) :: rest =>
    if maxJsonKeyLength < k.length then
      .error ⟨.jsonTooLarge, path ++ " key exceeds " ++ toString maxJsonKeyLength ++ " characters"⟩
    else do
      let (w, n) ← copyValue (path ++ "." ++ k) depth nodes v
      copyPairs path depth n (insertKey k w acc) rest

end

/-- A mapping, as `type(copied) is dict` asks. -/
def isObject : Value → Bool
  | .dict _ => true
  | _ => false

/-- The text stored for a mapping. -/
def encodeJsonObject (maxBytes : Nat) (value : Value) (field : String) :
    Except StoreError String := do
  let (copied, _) ← copyValue field 0 0 value
  if !isObject copied then
    .error ⟨.jsonTypeError, field ++ " must be a plain JSON object"⟩
  else
    let encoded := dumps copied
    if maxBytes < encoded.utf8ByteSize then
      .error ⟨.jsonTooLarge, field ++ " exceeds " ++ toString maxBytes ++ " encoded bytes"⟩
    else .ok encoded

/-- A mapping as it will be read back, and its text. -/
structure JsonObjectSnapshot where
  value : Value
  encoded : String
  deriving DecidableEq

def snapshotJsonObject (maxBytes : Nat) (value : Value) (field : String) :
    Except StoreError JsonObjectSnapshot := do
  let encoded ← encodeJsonObject maxBytes value field
  match loads encoded with
  | none => .error ⟨.valueError, "invalid JSON document"⟩
  | some decoded =>
    if isObject decoded then .ok ⟨decoded, encoded⟩
    else .error ⟨.jsonTypeError, field ++ " must be a plain JSON object"⟩

/-- The mapping a stored text holds; every defect is one integrity error. -/
def decodeJsonObject (maxBytes : Nat) (encoded field : String) : Except StoreError Value :=
  let broken : StoreError :=
    ⟨.integrity, "persisted " ++ field ++ " violates its JSON contract"⟩
  if maxBytes < encoded.utf8ByteSize then .error broken
  else
    match loads encoded with
    | none => .error broken
    | some decoded =>
      match copyValue ("persisted " ++ field) 0 0 decoded with
      | .error _ => .error broken
      | .ok (copied, _) => if isObject copied then .ok copied else .error broken

/-! ## The limits -/

mutual

/-- A value within every limit but the node count, met at `depth`. -/
def Fits (depth : Nat) : Value → Prop
  | .null => depth ≤ maxJsonDepth
  | .bool _ => depth ≤ maxJsonDepth
  | .float _ => depth ≤ maxJsonDepth
  | .str s => depth ≤ maxJsonDepth ∧ s.length ≤ maxJsonStringLength
  | .int k => depth ≤ maxJsonDepth ∧ bitLength k ≤ maxJsonIntegerBits
  | .list items => depth ≤ maxJsonDepth ∧ FitsItems (depth + 1) items
  | .tuple items => depth ≤ maxJsonDepth ∧ FitsItems (depth + 1) items
  | .dict pairs => depth ≤ maxJsonDepth ∧ FitsPairs (depth + 1) pairs
  | .nonFinite => False
  | .backReference => False
  | .other _ => False

def FitsItems (depth : Nat) : List Value → Prop
  | [] => True
  | v :: rest => Fits depth v ∧ FitsItems depth rest

def FitsPairs (depth : Nat) : List (String × Value) → Prop
  | [] => True
  | (k, v) :: rest => (k.length ≤ maxJsonKeyLength ∧ Fits depth v) ∧ FitsPairs depth rest

end

mutual

/-- The value nodes of a value. -/
def countNodes : Value → Nat
  | .list items => 1 + countItems items
  | .tuple items => 1 + countItems items
  | .dict pairs => 1 + countPairs pairs
  | .null | .bool _ | .int _ | .float _ | .str _ => 1
  | .nonFinite | .backReference | .other _ => 1

def countItems : List Value → Nat
  | [] => 0
  | v :: rest => countNodes v + countItems rest

def countPairs : List (String × Value) → Nat
  | [] => 0
  | (_, v) :: rest => countNodes v + countPairs rest

end

theorem enterValue_ok {path : String} {depth nodes n : Nat} :
    enterValue path depth nodes = .ok n ↔
      (depth ≤ maxJsonDepth ∧ nodes + 1 ≤ maxJsonNodes) ∧ n = nodes + 1 := by
  unfold enterValue
  split
  · simp; omega
  · split
    · simp; omega
    · simp only [Except.ok.injEq]
      omega

theorem enterValue_of {path : String} {depth nodes : Nat} (hd : depth ≤ maxJsonDepth)
    (hn : nodes + 1 ≤ maxJsonNodes) : enterValue path depth nodes = .ok (nodes + 1) :=
  enterValue_ok.mpr ⟨⟨hd, hn⟩, rfl⟩

theorem except_bind_ok {ε α β : Type} {x : Except ε α} {f : α → Except ε β} {b : β} :
    (x >>= f) = .ok b ↔ ∃ a, x = .ok a ∧ f a = .ok b := by
  cases x <;> simp [bind, Except.bind]

theorem except_bind_error {ε α β : Type} {x : Except ε α} {f : α → Except ε β} {e : ε} :
    (x >>= f) = .error e ↔ x = .error e ∨ ∃ a, x = .ok a ∧ f a = .error e := by
  cases x <;> simp [bind, Except.bind]

mutual

/-- **The copy succeeds on the values within the limits and is their normal
form.** -/
theorem copyValue_ok : ∀ (v : Value) (path : String) (depth nodes n : Nat) (w : Value),
    copyValue path depth nodes v = .ok (w, n) →
      (Fits depth v ∧ n ≤ maxJsonNodes) ∧ w = PyJson.normalize v ∧ n = nodes + countNodes v
  | .null, path, depth, nodes, n, w, h => by
    simp only [copyValue, except_bind_ok, enterValue_ok, Except.ok.injEq, Prod.mk.injEq] at h
    obtain ⟨_, ⟨hd, rfl⟩, rfl, rfl⟩ := h
    exact ⟨⟨hd.1, hd.2⟩, rfl, rfl⟩
  | .bool b, path, depth, nodes, n, w, h => by
    simp only [copyValue, except_bind_ok, enterValue_ok, Except.ok.injEq, Prod.mk.injEq] at h
    obtain ⟨_, ⟨hd, rfl⟩, rfl, rfl⟩ := h
    exact ⟨⟨hd.1, hd.2⟩, rfl, rfl⟩
  | .float x, path, depth, nodes, n, w, h => by
    simp only [copyValue, except_bind_ok, enterValue_ok, Except.ok.injEq, Prod.mk.injEq] at h
    obtain ⟨_, ⟨hd, rfl⟩, rfl, rfl⟩ := h
    exact ⟨⟨hd.1, hd.2⟩, rfl, rfl⟩
  | .str s, path, depth, nodes, n, w, h => by
    simp only [copyValue, except_bind_ok, enterValue_ok] at h
    obtain ⟨_, ⟨hd, rfl⟩, h⟩ := h
    split at h
    · simp at h
    next hs =>
      simp only [Except.ok.injEq, Prod.mk.injEq] at h
      obtain ⟨rfl, rfl⟩ := h
      exact ⟨⟨⟨hd.1, by omega⟩, hd.2⟩, rfl, rfl⟩
  | .int k, path, depth, nodes, n, w, h => by
    simp only [copyValue, except_bind_ok, enterValue_ok] at h
    obtain ⟨_, ⟨hd, rfl⟩, h⟩ := h
    split at h
    · simp at h
    next hs =>
      simp only [Except.ok.injEq, Prod.mk.injEq] at h
      obtain ⟨rfl, rfl⟩ := h
      exact ⟨⟨⟨hd.1, by omega⟩, hd.2⟩, rfl, rfl⟩
  | .nonFinite, path, depth, nodes, n, w, h => by
    simp [copyValue, except_bind_ok] at h
  | .backReference, path, depth, nodes, n, w, h => by
    simp [copyValue, except_bind_ok] at h
  | .other t, path, depth, nodes, n, w, h => by
    simp [copyValue, except_bind_ok] at h
  | .list items, path, depth, nodes, n, w, h => by
    simp only [copyValue, except_bind_ok, enterValue_ok, Except.ok.injEq, Prod.mk.injEq,
      Prod.exists] at h
    obtain ⟨_, ⟨hd, rfl⟩, ws, k, hitems, rfl, rfl⟩ := h
    obtain ⟨⟨hf, hk⟩, rfl, rfl⟩ := copyItems_ok items path 0 (depth + 1) (nodes + 1) k ws hitems hd.2
    exact ⟨⟨⟨hd.1, hf⟩, hk⟩, rfl, by simp only [countNodes]; omega⟩
  | .tuple items, path, depth, nodes, n, w, h => by
    simp only [copyValue, except_bind_ok, enterValue_ok, Except.ok.injEq, Prod.mk.injEq,
      Prod.exists] at h
    obtain ⟨_, ⟨hd, rfl⟩, ws, k, hitems, rfl, rfl⟩ := h
    obtain ⟨⟨hf, hk⟩, rfl, rfl⟩ := copyItems_ok items path 0 (depth + 1) (nodes + 1) k ws hitems hd.2
    exact ⟨⟨⟨hd.1, hf⟩, hk⟩, rfl, by simp only [countNodes]; omega⟩
  | .dict pairs, path, depth, nodes, n, w, h => by
    simp only [copyValue, except_bind_ok, enterValue_ok, Except.ok.injEq, Prod.mk.injEq,
      Prod.exists] at h
    obtain ⟨_, ⟨hd, rfl⟩, ws, k, hpairs, rfl, rfl⟩ := h
    obtain ⟨⟨hf, hk⟩, rfl, rfl⟩ :=
      copyPairs_ok pairs path (depth + 1) (nodes + 1) k [] ws hpairs hd.2
    exact ⟨⟨⟨hd.1, hf⟩, hk⟩, rfl, by simp only [countNodes]; omega⟩

theorem copyItems_ok : ∀ (items : List Value) (path : String) (index depth nodes n : Nat)
    (ws : List Value), copyItems path index depth nodes items = .ok (ws, n) →
      nodes ≤ maxJsonNodes →
      (FitsItems depth items ∧ n ≤ maxJsonNodes) ∧ ws = normalizeItems items ∧
        n = nodes + countItems items
  | [], path, index, depth, nodes, n, ws, h, hn => by
    simp only [copyItems, Except.ok.injEq, Prod.mk.injEq] at h
    obtain ⟨rfl, rfl⟩ := h
    exact ⟨⟨trivial, hn⟩, rfl, rfl⟩
  | v :: rest, path, index, depth, nodes, n, ws, h, hn => by
    simp only [copyItems, except_bind_ok, Except.ok.injEq, Prod.mk.injEq, Prod.exists] at h
    obtain ⟨w, k, hv, ws', k', hrest, rfl, rfl⟩ := h
    obtain ⟨⟨hf, hk⟩, rfl, rfl⟩ := copyValue_ok v _ depth nodes k w hv
    obtain ⟨⟨hfr, hkr⟩, rfl, rfl⟩ := copyItems_ok rest path (index + 1) depth _ k' ws' hrest hk
    exact ⟨⟨⟨hf, hfr⟩, hkr⟩, rfl, by simp only [countItems]; omega⟩

theorem copyPairs_ok : ∀ (pairs : List (String × Value)) (path : String) (depth nodes n : Nat)
    (acc ws : List (String × Value)), copyPairs path depth nodes acc pairs = .ok (ws, n) →
      nodes ≤ maxJsonNodes →
      (FitsPairs depth pairs ∧ n ≤ maxJsonNodes) ∧ ws = normalizePairs acc pairs ∧
        n = nodes + countPairs pairs
  | [], path, depth, nodes, n, acc, ws, h, hn => by
    simp only [copyPairs, Except.ok.injEq, Prod.mk.injEq] at h
    obtain ⟨rfl, rfl⟩ := h
    exact ⟨⟨trivial, hn⟩, rfl, rfl⟩
  | (k, v) :: rest, path, depth, nodes, n, acc, ws, h, hn => by
    simp only [copyPairs] at h
    split at h
    · simp at h
    next hk =>
      simp only [except_bind_ok, Prod.exists] at h
      obtain ⟨w, m, hv, hrest⟩ := h
      obtain ⟨⟨hf, hm⟩, rfl, rfl⟩ := copyValue_ok v _ depth nodes m w hv
      obtain ⟨⟨hfr, hkr⟩, rfl, rfl⟩ := copyPairs_ok rest path depth _ n _ ws hrest hm
      exact ⟨⟨⟨⟨by omega, hf⟩, hfr⟩, hkr⟩, rfl, by simp only [countPairs]; omega⟩

end

mutual

/-- A value within the limits is copied. -/
theorem copyValue_of_fits : ∀ (v : Value) (path : String) (depth nodes : Nat), Fits depth v →
    nodes + countNodes v ≤ maxJsonNodes →
      copyValue path depth nodes v = .ok (PyJson.normalize v, nodes + countNodes v)
  | .null, path, depth, nodes, h, hn => by
    simp only [copyValue, enterValue_of h hn]
    rfl
  | .bool b, path, depth, nodes, h, hn => by
    simp only [copyValue, enterValue_of h hn]
    rfl
  | .float x, path, depth, nodes, h, hn => by
    simp only [copyValue, enterValue_of h hn]
    rfl
  | .str s, path, depth, nodes, h, hn => by
    simp only [copyValue, enterValue_of h.1 hn, bind, Except.bind]
    rw [if_neg (by have := h.2; omega)]
    rfl
  | .int k, path, depth, nodes, h, hn => by
    simp only [copyValue, enterValue_of h.1 hn, bind, Except.bind]
    rw [if_neg (by have := h.2; omega)]
    rfl
  | .nonFinite, _, _, _, h, _ => h.elim
  | .backReference, _, _, _, h, _ => h.elim
  | .other _, _, _, _, h, _ => h.elim
  | .list items, path, depth, nodes, h, hn => by
    simp only [countNodes] at hn ⊢
    have henter : enterValue path depth nodes = .ok (nodes + 1) := enterValue_of h.1 (by omega)
    simp only [copyValue, henter, bind, Except.bind,
      copyItems_of_fits items path 0 (depth + 1) (nodes + 1) h.2 (by omega), PyJson.normalize,
      Nat.add_assoc]
  | .tuple items, path, depth, nodes, h, hn => by
    simp only [countNodes] at hn ⊢
    have henter : enterValue path depth nodes = .ok (nodes + 1) := enterValue_of h.1 (by omega)
    simp only [copyValue, henter, bind, Except.bind,
      copyItems_of_fits items path 0 (depth + 1) (nodes + 1) h.2 (by omega), PyJson.normalize,
      Nat.add_assoc]
  | .dict pairs, path, depth, nodes, h, hn => by
    simp only [countNodes] at hn ⊢
    have henter : enterValue path depth nodes = .ok (nodes + 1) := enterValue_of h.1 (by omega)
    simp only [copyValue, henter, bind, Except.bind,
      copyPairs_of_fits pairs path (depth + 1) (nodes + 1) [] h.2 (by omega), PyJson.normalize,
      Nat.add_assoc]

theorem copyItems_of_fits : ∀ (items : List Value) (path : String) (index depth nodes : Nat),
    FitsItems depth items → nodes + countItems items ≤ maxJsonNodes →
      copyItems path index depth nodes items = .ok (normalizeItems items, nodes + countItems items)
  | [], _, _, _, _, _, _ => rfl
  | v :: rest, path, index, depth, nodes, h, hn => by
    simp only [countItems] at hn ⊢
    simp only [copyItems, copyValue_of_fits v _ depth nodes h.1 (by omega), bind, Except.bind,
      copyItems_of_fits rest path (index + 1) depth (nodes + countNodes v) h.2 (by omega), normalizeItems,
      Nat.add_assoc]

theorem copyPairs_of_fits : ∀ (pairs : List (String × Value)) (path : String) (depth nodes : Nat)
    (acc : List (String × Value)), FitsPairs depth pairs →
      nodes + countPairs pairs ≤ maxJsonNodes →
      copyPairs path depth nodes acc pairs =
        .ok (normalizePairs acc pairs, nodes + countPairs pairs)
  | [], _, _, _, _, _, _ => rfl
  | (k, v) :: rest, path, depth, nodes, acc, h, hn => by
    simp only [countPairs] at hn ⊢
    rw [copyPairs, if_neg (by have := h.1.1; omega)]
    simp only [copyValue_of_fits v _ depth nodes h.1.2 (by omega), bind, Except.bind,
      copyPairs_of_fits rest path depth (nodes + countNodes v) _ h.2 (by omega), normalizePairs,
      Nat.add_assoc]

end

/-! ## The normal form is within the same limits -/

theorem fitsPairs_iff {depth : Nat} {pairs : List (String × Value)} :
    FitsPairs depth pairs ↔ ∀ p ∈ pairs, p.1.length ≤ maxJsonKeyLength ∧ Fits depth p.2 := by
  induction pairs with
  | nil => simp [FitsPairs]
  | cons q rest ih =>
    obtain ⟨k, v⟩ := q
    simp [FitsPairs, ih]

theorem fitsPairs_insertKey {depth : Nat} {k : String} {v : Value} {acc : List (String × Value)}
    (hk : k.length ≤ maxJsonKeyLength) (hv : Fits depth v) (h : FitsPairs depth acc) :
    FitsPairs depth (insertKey k v acc) := by
  rw [fitsPairs_iff] at h ⊢
  intro p hp
  rcases insertKey_keys hp with rfl | hp
  · exact ⟨hk, hv⟩
  · exact h p hp

theorem countPairs_insertKey (k : String) (v : Value) (acc : List (String × Value)) :
    countPairs (insertKey k v acc) ≤ countPairs acc + countNodes v := by
  induction acc with
  | nil => simp [insertKey, countPairs]
  | cons q acc ih =>
    obtain ⟨k', v'⟩ := q
    simp only [insertKey]
    split
    · simp only [countPairs]; omega
    · split
      · simp only [countPairs]; omega
      · simp only [countPairs]; omega

mutual

theorem fits_normalize : ∀ (v : Value) (depth : Nat), Fits depth v →
    Fits depth (PyJson.normalize v) ∧ countNodes (PyJson.normalize v) ≤ countNodes v
  | .null, _, h => ⟨h, Nat.le_refl _⟩
  | .bool _, _, h => ⟨h, Nat.le_refl _⟩
  | .float _, _, h => ⟨h, Nat.le_refl _⟩
  | .str _, _, h => ⟨h, Nat.le_refl _⟩
  | .int _, _, h => ⟨h, Nat.le_refl _⟩
  | .nonFinite, _, h => h.elim
  | .backReference, _, h => h.elim
  | .other _, _, h => h.elim
  | .list items, depth, h => by
    obtain ⟨hf, hn⟩ := fits_normalizeItems items (depth + 1) h.2
    exact ⟨⟨h.1, hf⟩, by simp only [PyJson.normalize, countNodes]; omega⟩
  | .tuple items, depth, h => by
    obtain ⟨hf, hn⟩ := fits_normalizeItems items (depth + 1) h.2
    exact ⟨⟨h.1, hf⟩, by simp only [PyJson.normalize, countNodes]; omega⟩
  | .dict pairs, depth, h => by
    obtain ⟨hf, hn⟩ := fits_normalizePairs pairs (depth + 1) [] h.2 trivial
    simp only [countPairs, Nat.zero_add] at hn
    exact ⟨⟨h.1, hf⟩, by simp only [PyJson.normalize, countNodes]; omega⟩

theorem fits_normalizeItems : ∀ (items : List Value) (depth : Nat), FitsItems depth items →
    FitsItems depth (normalizeItems items) ∧ countItems (normalizeItems items) ≤ countItems items
  | [], _, _ => ⟨trivial, Nat.le_refl _⟩
  | v :: rest, depth, h => by
    obtain ⟨hf, hn⟩ := fits_normalize v depth h.1
    obtain ⟨hfr, hnr⟩ := fits_normalizeItems rest depth h.2
    exact ⟨⟨hf, hfr⟩, by simp only [normalizeItems, countItems]; omega⟩

theorem fits_normalizePairs : ∀ (pairs : List (String × Value)) (depth : Nat)
    (acc : List (String × Value)), FitsPairs depth pairs → FitsPairs depth acc →
    FitsPairs depth (normalizePairs acc pairs) ∧
      countPairs (normalizePairs acc pairs) ≤ countPairs acc + countPairs pairs
  | [], _, _, _, hacc => ⟨hacc, by simp only [normalizePairs, countPairs]; omega⟩
  | (k, v) :: rest, depth, acc, h, hacc => by
    obtain ⟨hf, hn⟩ := fits_normalize v depth h.1.2
    obtain ⟨hfr, hnr⟩ := fits_normalizePairs rest depth (insertKey k (PyJson.normalize v) acc) h.2
      (fitsPairs_insertKey h.1.1 hf hacc)
    have hins := countPairs_insertKey k (PyJson.normalize v) acc
    exact ⟨hfr, by simp only [normalizePairs, countPairs]; omega⟩

end

mutual

theorem plain_of_fits : ∀ (v : Value) (depth : Nat), Fits depth v → Plain v
  | .null, _, _ => trivial
  | .bool _, _, _ => trivial
  | .float _, _, _ => trivial
  | .str _, _, _ => trivial
  | .int _, _, _ => trivial
  | .nonFinite, _, h => h
  | .backReference, _, h => h
  | .other _, _, h => h
  | .list items, depth, h => plainItems_of_fits items (depth + 1) h.2
  | .tuple items, depth, h => plainItems_of_fits items (depth + 1) h.2
  | .dict pairs, depth, h => plainPairs_of_fits pairs (depth + 1) h.2

theorem plainItems_of_fits : ∀ (items : List Value) (depth : Nat), FitsItems depth items →
    PlainItems items
  | [], _, _ => trivial
  | v :: rest, depth, h => ⟨plain_of_fits v depth h.1, plainItems_of_fits rest depth h.2⟩

theorem plainPairs_of_fits : ∀ (pairs : List (String × Value)) (depth : Nat),
    FitsPairs depth pairs → PlainPairs pairs
  | [], _, _ => trivial
  | (_, v) :: rest, depth, h => ⟨plain_of_fits v depth h.1.2, plainPairs_of_fits rest depth h.2⟩

end

/-! ## Errors of the copy -/

/-- One of the three JSON errors. -/
def IsJsonError (e : StoreError) : Prop :=
  e.kind = .jsonTooLarge ∨ e.kind = .jsonValueError ∨ e.kind = .jsonTypeError

theorem enterValue_error {path : String} {depth nodes : Nat} {e : StoreError}
    (h : enterValue path depth nodes = .error e) : IsJsonError e := by
  unfold enterValue at h
  split at h
  · rw [← Except.error.inj h]
    exact .inl rfl
  · split at h
    · rw [← Except.error.inj h]
      exact .inl rfl
    · simp at h

mutual

/-- A copy that fails raises a JSON error. -/
theorem copyValue_error : ∀ (v : Value) (path : String) (depth nodes : Nat) (e : StoreError),
    copyValue path depth nodes v = .error e → IsJsonError e
  | .null, path, depth, nodes, e, h => by
    simp only [copyValue, except_bind_error, reduceCtorEq, and_false, exists_false, or_false] at h
    exact enterValue_error h
  | .bool _, path, depth, nodes, e, h => by
    simp only [copyValue, except_bind_error, reduceCtorEq, and_false, exists_false, or_false] at h
    exact enterValue_error h
  | .float _, path, depth, nodes, e, h => by
    simp only [copyValue, except_bind_error, reduceCtorEq, and_false, exists_false, or_false] at h
    exact enterValue_error h
  | .str s, path, depth, nodes, e, h => by
    simp only [copyValue, except_bind_error] at h
    rcases h with h | ⟨n, -, h⟩
    · exact enterValue_error h
    · split at h
      · rw [← Except.error.inj h]
        exact .inl rfl
      · simp at h
  | .int k, path, depth, nodes, e, h => by
    simp only [copyValue, except_bind_error] at h
    rcases h with h | ⟨n, -, h⟩
    · exact enterValue_error h
    · split at h
      · rw [← Except.error.inj h]
        exact .inl rfl
      · simp at h
  | .nonFinite, path, depth, nodes, e, h => by
    simp only [copyValue, except_bind_error] at h
    rcases h with h | ⟨n, -, h⟩
    · exact enterValue_error h
    · rw [← Except.error.inj h]
      exact .inr (.inl rfl)
  | .backReference, path, depth, nodes, e, h => by
    simp only [copyValue, except_bind_error] at h
    rcases h with h | ⟨n, -, h⟩
    · exact enterValue_error h
    · rw [← Except.error.inj h]
      exact .inr (.inl rfl)
  | .other _, path, depth, nodes, e, h => by
    simp only [copyValue, except_bind_error] at h
    rcases h with h | ⟨n, -, h⟩
    · exact enterValue_error h
    · rw [← Except.error.inj h]
      exact .inr (.inr rfl)
  | .dict pairs, path, depth, nodes, e, h => by
    simp only [copyValue, except_bind_error, reduceCtorEq, and_false, exists_false, or_false] at h
    rcases h with h | ⟨n, -, h⟩
    · exact enterValue_error h
    · exact copyPairs_error pairs path (depth + 1) n [] e h
  | .list items, path, depth, nodes, e, h => by
    simp only [copyValue, except_bind_error, reduceCtorEq, and_false, exists_false, or_false] at h
    rcases h with h | ⟨n, -, h⟩
    · exact enterValue_error h
    · exact copyItems_error items path 0 (depth + 1) n e h
  | .tuple items, path, depth, nodes, e, h => by
    simp only [copyValue, except_bind_error, reduceCtorEq, and_false, exists_false, or_false] at h
    rcases h with h | ⟨n, -, h⟩
    · exact enterValue_error h
    · exact copyItems_error items path 0 (depth + 1) n e h

theorem copyItems_error : ∀ (items : List Value) (path : String) (index depth nodes : Nat)
    (e : StoreError), copyItems path index depth nodes items = .error e → IsJsonError e
  | [], path, index, depth, nodes, e, h => by simp [copyItems] at h
  | v :: rest, path, index, depth, nodes, e, h => by
    simp only [copyItems, except_bind_error, Prod.exists, reduceCtorEq, and_false, exists_false,
      or_false] at h
    rcases h with h | ⟨w, n, -, h⟩
    · exact copyValue_error v _ depth nodes e h
    · exact copyItems_error rest path (index + 1) depth n e h

theorem copyPairs_error : ∀ (pairs : List (String × Value)) (path : String) (depth nodes : Nat)
    (acc : List (String × Value)) (e : StoreError),
    copyPairs path depth nodes acc pairs = .error e → IsJsonError e
  | [], path, depth, nodes, acc, e, h => by simp [copyPairs] at h
  | (k, v) :: rest, path, depth, nodes, acc, e, h => by
    simp only [copyPairs] at h
    split at h
    · rw [← Except.error.inj h]
      exact .inl rfl
    · simp only [except_bind_error, Prod.exists] at h
      rcases h with h | ⟨w, n, -, h⟩
      · exact copyValue_error v _ depth nodes e h
      · exact copyPairs_error rest path depth n _ e h

end

theorem encodeJsonObject_error {maxBytes : Nat} {value : Value} {field : String} {e : StoreError}
    (h : encodeJsonObject maxBytes value field = .error e) : IsJsonError e := by
  simp only [encodeJsonObject, except_bind_error, Prod.exists] at h
  rcases h with h | ⟨copied, n, -, h⟩
  · exact copyValue_error value _ _ _ e h
  · split at h
    · rw [← Except.error.inj h]
      exact .inr (.inr rfl)
    · split at h
      · rw [← Except.error.inj h]
        exact .inl rfl
      · simp at h

/-! ## The codec -/

/-- What the encoder accepts, and the text it gives. -/
theorem encodeJsonObject_ok {maxBytes : Nat} {value : Value} {field text : String}
    (h : encodeJsonObject maxBytes value field = .ok text) :
    Fits 0 value ∧ countNodes value ≤ maxJsonNodes ∧ isObject (PyJson.normalize value) = true ∧
      text = dumps (PyJson.normalize value) ∧ text.utf8ByteSize ≤ maxBytes := by
  simp only [encodeJsonObject, except_bind_ok, Prod.exists] at h
  obtain ⟨w, n, hcopy, h⟩ := h
  obtain ⟨⟨hf, hn⟩, rfl, rfl⟩ := copyValue_ok value field 0 0 n w hcopy
  split at h
  · simp at h
  next hobj =>
    split at h
    · simp at h
    next hbytes =>
      simp only [Except.ok.injEq] at h
      subst h
      exact ⟨hf, by omega, by simpa using hobj, rfl, by omega⟩

/-- **A text the encoder accepted decodes to the normal form of its value.** -/
theorem decode_encode {maxBytes : Nat} {value : Value} {field text : String}
    (h : encodeJsonObject maxBytes value field = .ok text) (field' : String) :
    decodeJsonObject maxBytes text field' = .ok (PyJson.normalize value) := by
  obtain ⟨hf, hn, hobj, rfl, hbytes⟩ := encodeJsonObject_ok h
  have hnormal := normal_normalize value (plain_of_fits value 0 hf)
  obtain ⟨hf', hn'⟩ := fits_normalize value 0 hf
  have hcopy := copyValue_of_fits (PyJson.normalize value) ("persisted " ++ field') 0 0 hf' (by omega)
  rw [normalize_of_normal _ hnormal] at hcopy
  simp only [decodeJsonObject, if_neg (Nat.not_lt.mpr hbytes), loads_dumps hnormal, hcopy, hobj,
    if_true]

/-- The snapshot is the text and the value that will be read back from it. -/
theorem snapshotJsonObject_ok {maxBytes : Nat} {value : Value} {field : String}
    {snapshot : JsonObjectSnapshot} (h : snapshotJsonObject maxBytes value field = .ok snapshot) :
    encodeJsonObject maxBytes value field = .ok snapshot.encoded ∧
      snapshot.value = PyJson.normalize value := by
  simp only [snapshotJsonObject, except_bind_ok] at h
  obtain ⟨text, henc, h⟩ := h
  obtain ⟨hf, -, hobj, rfl, -⟩ := encodeJsonObject_ok henc
  have hnormal := normal_normalize value (plain_of_fits value 0 hf)
  simp only [loads_dumps hnormal, hobj, if_true, Except.ok.injEq] at h
  subst h
  exact ⟨henc, rfl⟩

/-- What the encoder accepts, the snapshot accepts. -/
theorem snapshotJsonObject_of {maxBytes : Nat} {value : Value} {field text : String}
    (h : encodeJsonObject maxBytes value field = .ok text) :
    snapshotJsonObject maxBytes value field = .ok ⟨PyJson.normalize value, text⟩ := by
  obtain ⟨hf, -, hobj, rfl, -⟩ := encodeJsonObject_ok h
  have hnormal := normal_normalize value (plain_of_fits value 0 hf)
  simp only [snapshotJsonObject, h, bind, Except.bind, loads_dumps hnormal, hobj, if_true]

theorem snapshotJsonObject_error {maxBytes : Nat} {value : Value} {field : String}
    {e : StoreError} (h : snapshotJsonObject maxBytes value field = .error e) : IsJsonError e := by
  cases henc : encodeJsonObject maxBytes value field with
  | ok text => rw [snapshotJsonObject_of henc] at h; simp at h
  | error e' =>
    simp only [snapshotJsonObject, henc, bind, Except.bind, Except.error.injEq] at h
    rw [← h]
    exact encodeJsonObject_error henc

/-- The encoder accepts the objects within the limits whose text is not too
long. -/
theorem encodeJsonObject_of_fits {maxBytes : Nat} {value : Value} {field : String}
    (hf : Fits 0 value) (hn : countNodes value ≤ maxJsonNodes)
    (hobj : isObject (PyJson.normalize value) = true)
    (hbytes : (dumps (PyJson.normalize value)).utf8ByteSize ≤ maxBytes) :
    encodeJsonObject maxBytes value field = .ok (dumps (PyJson.normalize value)) := by
  have hcopy := copyValue_of_fits value field 0 0 hf (by omega)
  simp only [encodeJsonObject, hcopy, bind, Except.bind, hobj, Bool.not_true, Bool.false_eq_true,
    if_false, if_neg (Nat.not_lt.mpr hbytes)]

theorem decode_snapshot {maxBytes : Nat} {value : Value} {field : String}
    {snapshot : JsonObjectSnapshot} (h : snapshotJsonObject maxBytes value field = .ok snapshot)
    (field' : String) :
    decodeJsonObject maxBytes snapshot.encoded field' = .ok snapshot.value := by
  obtain ⟨henc, hval⟩ := snapshotJsonObject_ok h
  rw [hval]
  exact decode_encode henc field'

/-- An object within every limit: the depth, the size of every key, text and
integer and the kind of every leaf (`Fits`), the nodes, and the bytes of the
text. -/
structure Storable (maxBytes : Nat) (value : Value) : Prop where
  object : isObject (PyJson.normalize value) = true
  fits : Fits 0 value
  nodes : countNodes value ≤ maxJsonNodes
  bytes : (dumps (PyJson.normalize value)).utf8ByteSize ≤ maxBytes

/-- **The encoder accepts exactly the storable values.** -/
theorem encodeJsonObject_iff {maxBytes : Nat} {value : Value} {field text : String} :
    encodeJsonObject maxBytes value field = .ok text ↔
      Storable maxBytes value ∧ text = dumps (PyJson.normalize value) := by
  constructor
  · intro h
    obtain ⟨hf, hn, hobj, htext, hbytes⟩ := encodeJsonObject_ok h
    exact ⟨⟨hobj, hf, hn, htext ▸ hbytes⟩, htext⟩
  · intro ⟨h, htext⟩
    rw [htext]
    exact encodeJsonObject_of_fits h.fits h.nodes h.object h.bytes

/-- **The codec.** An accepted value is read back in its normal form (tuples as
lists) under the same byte limit; a value is rejected exactly if it is not an
object within the limits; and two accepted values have one text exactly if
they have one normal form. -/
theorem json_codec (maxBytes : Nat) :
    (∀ value field text field', encodeJsonObject maxBytes value field = .ok text →
      decodeJsonObject maxBytes text field' = .ok (PyJson.normalize value)) ∧
    (∀ value field, (∃ e, encodeJsonObject maxBytes value field = .error e) ↔
      ¬Storable maxBytes value) ∧
    (∀ v w field field' text text', encodeJsonObject maxBytes v field = .ok text →
      encodeJsonObject maxBytes w field' = .ok text' →
        (text = text' ↔ PyJson.normalize v = PyJson.normalize w)) := by
  refine ⟨fun value field text field' h => decode_encode h field', fun value field => ?_,
    fun v w field field' text text' hv hw => ?_⟩
  · constructor
    · intro ⟨e, he⟩ h
      rw [encodeJsonObject_iff.mpr ⟨h, rfl⟩] at he
      cases he
    · intro h
      cases henc : encodeJsonObject maxBytes value field with
      | error e => exact ⟨e, rfl⟩
      | ok text => exact (h (encodeJsonObject_iff.mp henc).1).elim
  · obtain ⟨hsv, rfl⟩ := encodeJsonObject_iff.mp hv
    obtain ⟨hsw, rfl⟩ := encodeJsonObject_iff.mp hw
    have hnv := normal_normalize v (plain_of_fits v 0 hsv.fits)
    have hnw := normal_normalize w (plain_of_fits w 0 hsw.fits)
    exact ⟨dumps_injective hnv hnw, fun h => by rw [h]⟩

end QuantumEntanglement
