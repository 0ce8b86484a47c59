import QuantumEntanglement.Lib.PyText

/-
  SHA-256 — the digest of a text, as 64 lowercase hexadecimal digits

  `hexDigest` is `hashlib.sha256(value.encode("utf-8")).hexdigest()`. Words
  are natural numbers below 2 ^ 32; a text is padded to whole blocks of
  sixteen words, each block extends to a schedule of 64 words and is folded
  into the eight words of the state.

  What is proved:
    1. `hexDigest_canonical` — a digest has 64 characters, each of them one of
       `0123456789abcdef`.
    2. `utf8_injective` — two texts with the same bytes are the same text.
    3. `hmac_length`, `hmac_byte` — a MAC is 32 bytes.
  Nothing here says that two texts have two digests: where a theorem needs
  that, it says so (`NoCollision`).
-/

namespace Sha256

/-- A word of 32 bits. -/
def word (n : Nat) : Nat := n % 4294967296

/-- Rotate a word right. -/
def rotr (k x : Nat) : Nat := x >>> k ||| word (x <<< (32 - k))

def smallSigma0 (x : Nat) : Nat := rotr 7 x ^^^ rotr 18 x ^^^ x >>> 3

def smallSigma1 (x : Nat) : Nat := rotr 17 x ^^^ rotr 19 x ^^^ x >>> 10

def bigSigma0 (x : Nat) : Nat := rotr 2 x ^^^ rotr 13 x ^^^ rotr 22 x

def bigSigma1 (x : Nat) : Nat := rotr 6 x ^^^ rotr 11 x ^^^ rotr 25 x

def choose (e f g : Nat) : Nat := (e &&& f) ^^^ ((4294967295 ^^^ e) &&& g)

def majority (a b c : Nat) : Nat := (a &&& b) ^^^ (a &&& c) ^^^ (b &&& c)

/-- The round constants. -/
def roundConstants : List Nat :=
  [0x428a2f98, 0x71374491, 0xb5c0fbcf, 0xe9b5dba5, 0x3956c25b, 0x59f111f1, 0x923f82a4, 0xab1c5ed5,
    0xd807aa98, 0x12835b01, 0x243185be, 0x550c7dc3, 0x72be5d74, 0x80deb1fe, 0x9bdc06a7, 0xc19bf174,
    0xe49b69c1, 0xefbe4786, 0x0fc19dc6, 0x240ca1cc, 0x2de92c6f, 0x4a7484aa, 0x5cb0a9dc, 0x76f988da,
    0x983e5152, 0xa831c66d, 0xb00327c8, 0xbf597fc7, 0xc6e00bf3, 0xd5a79147, 0x06ca6351, 0x14292967,
    0x27b70a85, 0x2e1b2138, 0x4d2c6dfc, 0x53380d13, 0x650a7354, 0x766a0abb, 0x81c2c92e, 0x92722c85,
    0xa2bfe8a1, 0xa81a664b, 0xc24b8b70, 0xc76c51a3, 0xd192e819, 0xd6990624, 0xf40e3585, 0x106aa070,
    0x19a4c116, 0x1e376c08, 0x2748774c, 0x34b0bcb5, 0x391c0cb3, 0x4ed8aa4a, 0x5b9cca4f, 0x682e6ff3,
    0x748f82ee, 0x78a5636f, 0x84c87814, 0x8cc70208, 0x90befffa, 0xa4506ceb, 0xbef9a3f7, 0xc67178f2]

/-- The eight words of the state. -/
structure State where
  a : Nat
  b : Nat
  c : Nat
  d : Nat
  e : Nat
  f : Nat
  g : Nat
  h : Nat
  deriving DecidableEq

def initialState : State :=
  ⟨0x6a09e667, 0xbb67ae85, 0x3c6ef372, 0xa54ff53a, 0x510e527f, 0x9b05688c, 0x1f83d9ab, 0x5be0cd19⟩

/-- Continue with a number once it is computed. -/
def force {α : Type} (n : Nat) (k : Nat → α) : α :=
  match n with
  | 0 => k 0
  | m + 1 => k (m + 1)

/-- Extend a schedule, held newest word first, by `n` more words. -/
def extend : Nat → List Nat → List Nat
  | 0, ws => ws
  | n + 1, ws =>
    force (word (smallSigma1 (ws.getD 1 0) + ws.getD 6 0 + smallSigma0 (ws.getD 14 0) +
      ws.getD 15 0)) (fun w => extend n (w :: ws))

/-- One round: a constant and a schedule word. -/
def roundStep (s : State) (k w : Nat) : (State → State) → State := fun next =>
  force (s.h + bigSigma1 s.e + choose s.e s.f s.g + k + w) (fun t₁ =>
    force (word (s.d + t₁)) (fun e =>
      force (word (t₁ + bigSigma0 s.a + majority s.a s.b s.c)) (fun a =>
        next ⟨a, s.a, s.b, s.c, e, s.e, s.f, s.g⟩)))

def rounds : List Nat → List Nat → State → State
  | k :: ks, w :: ws, s => roundStep s k w (rounds ks ws)
  | _, _, s => s

/-- Fold one block of sixteen words into the state. -/
def compress (s : State) (block : List Nat) : State :=
  let t := rounds roundConstants (extend 48 block.reverse).reverse s
  ⟨word (s.a + t.a), word (s.b + t.b), word (s.c + t.c), word (s.d + t.d), word (s.e + t.e),
    word (s.f + t.f), word (s.g + t.g), word (s.h + t.h)⟩

/-- The `n` big-endian bytes of a number. -/
def bigEndian : Nat → Nat → List Nat
  | 0, _ => []
  | n + 1, x => x / 256 ^ n % 256 :: bigEndian n x

/-- The bytes with the closing bit, the zeros and the length in bits. -/
def pad (bytes : List Nat) : List Nat :=
  bytes ++ 128 :: List.replicate ((119 - bytes.length % 64) % 64) 0 ++ bigEndian 8 (8 * bytes.length)

def toWords : List Nat → List Nat
  | a :: b :: c :: d :: rest => (((a * 256 + b) * 256 + c) * 256 + d) :: toWords rest
  | _ => []

/-- Fold `n` blocks of sixteen words. -/
def digestBlocks : Nat → State → List Nat → State
  | 0, s, _ => s
  | n + 1, s, ws => digestBlocks n (compress s (ws.take 16)) (ws.drop 16)

def digestState (bytes : List Nat) : State :=
  let ws := toWords (pad bytes)
  digestBlocks (ws.length / 16) initialState ws

/-- `value.encode("utf-8")`. -/
def utf8 (value : String) : List Nat :=
  value.toList.flatMap (fun c => (String.utf8EncodeChar c).map UInt8.toNat)

/-- The eight hexadecimal digits of a word. -/
def hexWord (x : Nat) : List Char :=
  (bigEndian 4 x).flatMap (fun b => [Nat.digitChar (b / 16), Nat.digitChar (b % 16)])

/-- `hashlib.sha256(content).hexdigest()`. -/
def hexDigestBytes (bytes : List Nat) : String :=
  let s := digestState bytes
  String.ofList (hexWord s.a ++ hexWord s.b ++ hexWord s.c ++ hexWord s.d ++ hexWord s.e ++
    hexWord s.f ++ hexWord s.g ++ hexWord s.h)

/-- `hashlib.sha256(value.encode("utf-8")).hexdigest()`. -/
def hexDigest (value : String) : String :=
  let s := digestState (utf8 value)
  String.ofList (hexWord s.a ++ hexWord s.b ++ hexWord s.c ++ hexWord s.d ++ hexWord s.e ++
    hexWord s.f ++ hexWord s.g ++ hexWord s.h)

/-- `hashlib.sha256(content).digest()`. -/
def digestBytes (bytes : List Nat) : List Nat :=
  let s := digestState bytes
  [s.a, s.b, s.c, s.d, s.e, s.f, s.g, s.h].flatMap (bigEndian 4)

/-- A key longer than a block is hashed; then it is filled up to a block. -/
def hmacBlock (key : List Nat) : List Nat :=
  let key := if 64 < key.length then digestBytes key else key
  key ++ List.replicate (64 - key.length) 0

/-- `hmac.new(key, message, hashlib.sha256).digest()`. -/
def hmac (key message : List Nat) : List Nat :=
  digestBytes ((hmacBlock key).map (· ^^^ 0x5c) ++
    digestBytes ((hmacBlock key).map (· ^^^ 0x36) ++ message))

/-- No two of these messages have one digest. -/
def NoCollision (messages : List (List Nat)) : Prop :=
  ∀ a ∈ messages, ∀ b ∈ messages, hexDigestBytes a = hexDigestBytes b → a = b

/-- A character of `0123456789abcdef`. -/
def isLowerHex (c : Char) : Bool := c.isDigit || ('a' ≤ c && c ≤ 'f')

/-- 64 lowercase hexadecimal digits. -/
def IsHexDigest (text : String) : Prop :=
  text.length = 64 ∧ ∀ c ∈ text.toList, isLowerHex c = true

instance (text : String) : Decidable (IsHexDigest text) := inferInstanceAs (Decidable (_ ∧ _))

theorem digitChar_isLowerHex {n : Nat} (h : n < 16) : isLowerHex (Nat.digitChar n) = true := by
  have hall : ∀ k < 16, isLowerHex (Nat.digitChar k) = true := by decide
  exact hall n h

theorem hexWord_length (x : Nat) : (hexWord x).length = 8 := by
  simp [hexWord, bigEndian]

theorem hexWord_isLowerHex (x : Nat) : ∀ c ∈ hexWord x, isLowerHex c = true := by
  have hbyte : ∀ b ∈ bigEndian 4 x, b < 256 := by
    intro b hb
    simp only [bigEndian, List.mem_cons, List.not_mem_nil, or_false] at hb
    rcases hb with rfl | rfl | rfl | rfl <;> exact Nat.mod_lt _ (by decide)
  intro c hc
  obtain ⟨b, hb, hc⟩ := List.mem_flatMap.mp hc
  have hlt := hbyte b hb
  simp only [List.mem_cons, List.not_mem_nil, or_false] at hc
  rcases hc with rfl | rfl
  · exact digitChar_isLowerHex (by omega)
  · exact digitChar_isLowerHex (by omega)

/-- **A digest is 64 lowercase hexadecimal digits.** -/
theorem hexDigestBytes_canonical (bytes : List Nat) : IsHexDigest (hexDigestBytes bytes) := by
  constructor
  · simp [hexDigestBytes, hexWord_length]
  · intro c hc
    simp only [hexDigestBytes, String.toList_ofList, List.mem_append] at hc
    rcases hc with ((((((h | h) | h) | h) | h) | h) | h) | h <;> exact hexWord_isLowerHex _ c h

theorem hexDigest_canonical (value : String) : IsHexDigest (hexDigest value) :=
  hexDigestBytes_canonical (utf8 value)

theorem bigEndian_length (n x : Nat) : (bigEndian n x).length = n := by
  induction n with
  | zero => rfl
  | succ n ih => simp [bigEndian, ih]

theorem bigEndian_byte {n x : Nat} : ∀ b ∈ bigEndian n x, b < 256 := by
  induction n with
  | zero => simp [bigEndian]
  | succ n ih =>
    intro b hb
    rcases List.mem_cons.mp hb with rfl | hb
    · exact Nat.mod_lt _ (by decide)
    · exact ih b hb

theorem hmac_length (key message : List Nat) : (hmac key message).length = 32 := by
  simp [hmac, digestBytes, bigEndian_length]

theorem hmac_byte {key message : List Nat} : ∀ b ∈ hmac key message, b < 256 := by
  intro b hb
  obtain ⟨word, -, hb⟩ := List.mem_flatMap.mp hb
  exact bigEndian_byte b hb

/-- **Two texts with the same bytes are the same text.** -/
theorem utf8_injective {a b : String} (h : utf8 a = utf8 b) : a = b := by
  have hbytes : a.toList.flatMap String.utf8EncodeChar = b.toList.flatMap String.utf8EncodeChar := by
    have hmap : (a.toList.flatMap String.utf8EncodeChar).map UInt8.toNat =
        (b.toList.flatMap String.utf8EncodeChar).map UInt8.toNat := by
      simpa only [utf8, List.map_flatMap] using h
    exact List.map_injective_iff.mpr (fun x y hxy => UInt8.toNat_inj.mp hxy) hmap
  rw [← String.toByteArray_inj, ← String.utf8Encode_toList, ← String.utf8Encode_toList,
    List.utf8Encode, List.utf8Encode, hbytes]

example : hexDigest "abc" = "ba7816bf8f01cfea414140de5dae2223b00361a396177a9cb410ff61f20015ad" := by
  decide +kernel

end Sha256
