import Mathlib

/-
  Base64 in the URL alphabet, without padding

  Three bytes are four characters of six bits; what remains of one or two
  bytes is two or three characters, the last filled up with zero bits. A text
  is canonical when those filled bits are zero, that is when encoding its
  bytes gives it back.

  What is proved:
    1. `decode_encode` — decoding an encoding gives the bytes back.
    2. `encode_length`, `encode_alphabet` — how long an encoding is, and what
       it is written in.

  Correspondence (Python ↔ Lean):
    `urlsafe_b64encode(value).rstrip("=")`        ↔ `encode`
    `urlsafe_b64decode(value + padding)`          ↔ `decode`
-/

namespace Base64Url

/-- The alphabet, by value. -/
def alphabet : List Char :=
  "ABCDEFGHIJKLMNOPQRSTUVWXYZabcdefghijklmnopqrstuvwxyz0123456789-_".toList

def digit (n : Nat) : Char := alphabet.getD n 'A'

/-- The value of a character of the alphabet. -/
def digitValue (c : Char) : Option Nat := alphabet.idxOf? c

def encode : List Nat → List Char
  | [] => []
  | [a] => [digit (a / 4), digit (a % 4 * 16)]
  | [a, b] => [digit (a / 4), digit (a % 4 * 16 + b / 16), digit (b % 16 * 4)]
  | a :: b :: c :: rest =>
    digit (a / 4) :: digit (a % 4 * 16 + b / 16) :: digit (b % 16 * 4 + c / 64) :: digit (c % 64) ::
      encode rest

/-- The bytes of a sequence of six-bit values; one value alone is no byte. -/
def decodeValues : List Nat → Option (List Nat)
  | [] => some []
  | [_] => none
  | [p, q] => some [p * 4 + q / 16]
  | [p, q, r] => some [p * 4 + q / 16, q % 16 * 16 + r / 4]
  | p :: q :: r :: s :: rest =>
    (decodeValues rest).map
      (fun bytes => (p * 4 + q / 16) :: (q % 16 * 16 + r / 4) :: (r % 4 * 64 + s) :: bytes)

def decode (text : List Char) : Option (List Nat) := (text.mapM digitValue).bind decodeValues

/-! ## The round trip -/

theorem digitValue_digit : ∀ n < 64, digitValue (digit n) = some n := by decide +kernel

theorem digit_mem : ∀ n < 64, digit n ∈ alphabet := by decide +kernel

/-- Three bytes are four values below 64, from which they can be read off. -/
theorem group_values {a b c : Nat} (ha : a < 256) (hb : b < 256) (hc : c < 256) :
    a / 4 < 64 ∧ a % 4 * 16 + b / 16 < 64 ∧ b % 16 * 4 + c / 64 < 64 ∧ c % 64 < 64 ∧
      a / 4 * 4 + (a % 4 * 16 + b / 16) / 16 = a ∧
      (a % 4 * 16 + b / 16) % 16 * 16 + (b % 16 * 4 + c / 64) / 4 = b ∧
      (b % 16 * 4 + c / 64) % 4 * 64 + c % 64 = c := by omega

/-- The values an encoding stands for. -/
def sixBits : List Nat → List Nat
  | [] => []
  | [a] => [a / 4, a % 4 * 16]
  | [a, b] => [a / 4, a % 4 * 16 + b / 16, b % 16 * 4]
  | a :: b :: c :: rest =>
    a / 4 :: (a % 4 * 16 + b / 16) :: (b % 16 * 4 + c / 64) :: c % 64 :: sixBits rest

theorem encode_eq : ∀ bytes : List Nat, encode bytes = (sixBits bytes).map digit
  | [] => rfl
  | [_] => rfl
  | [_, _] => rfl
  | _ :: _ :: _ :: rest => by simp [encode, sixBits, encode_eq rest]

theorem sixBits_lt : ∀ {bytes : List Nat}, (∀ b ∈ bytes, b < 256) → ∀ n ∈ sixBits bytes, n < 64
  | [], _ => by simp [sixBits]
  | [a], h => by
    have ha := h a (by simp)
    simp only [sixBits, List.mem_cons, List.not_mem_nil, or_false]
    omega
  | [a, b], h => by
    have ha := h a (by simp)
    have hb := h b (by simp)
    simp only [sixBits, List.mem_cons, List.not_mem_nil, or_false]
    omega
  | a :: b :: c :: rest, h => by
    have hvalues := group_values (h a (by simp)) (h b (by simp)) (h c (by simp))
    have hrest := @sixBits_lt rest (fun x hx => h x (by simp [hx]))
    intro n hn
    simp only [sixBits, List.mem_cons] at hn
    rcases hn with rfl | rfl | rfl | rfl | hn
    · exact hvalues.1
    · exact hvalues.2.1
    · exact hvalues.2.2.1
    · exact hvalues.2.2.2.1
    · exact hrest n hn

theorem decodeValues_sixBits : ∀ {bytes : List Nat}, (∀ b ∈ bytes, b < 256) →
    decodeValues (sixBits bytes) = some bytes
  | [], _ => rfl
  | [a], h => by
    have ha := h a (by simp)
    simp only [sixBits, decodeValues, Option.some.injEq, List.cons.injEq, and_true]
    omega
  | [a, b], h => by
    have ha := h a (by simp)
    have hb := h b (by simp)
    simp only [sixBits, decodeValues, Option.some.injEq, List.cons.injEq, and_true]
    omega
  | a :: b :: c :: rest, h => by
    obtain ⟨-, -, -, -, ha, hb, hc⟩ := group_values (h a (by simp)) (h b (by simp)) (h c (by simp))
    have hrest := @decodeValues_sixBits rest (fun x hx => h x (by simp [hx]))
    rw [sixBits, decodeValues, hrest, Option.map_some, ha, hb, hc]

theorem mapM_digitValue : ∀ {values : List Nat}, (∀ n ∈ values, n < 64) →
    (values.map digit).mapM digitValue = some values
  | [], _ => rfl
  | n :: rest, h => by
    have hrest := @mapM_digitValue rest (fun x hx => h x (by simp [hx]))
    simp only [List.map_cons, List.mapM_cons, digitValue_digit n (h n (by simp)), hrest]
    rfl

/-- **Decoding an encoding gives the bytes back.** -/
theorem decode_encode {bytes : List Nat} (h : ∀ b ∈ bytes, b < 256) :
    decode (encode bytes) = some bytes := by
  rw [decode, encode_eq, mapM_digitValue (sixBits_lt h)]
  exact decodeValues_sixBits h

theorem encode_alphabet {bytes : List Nat} (h : ∀ b ∈ bytes, b < 256) :
    ∀ c ∈ encode bytes, c ∈ alphabet := by
  intro c hc
  rw [encode_eq] at hc
  obtain ⟨n, hn, rfl⟩ := List.mem_map.mp hc
  exact digit_mem n (sixBits_lt h n hn)

theorem encode_length : ∀ bytes : List Nat, (encode bytes).length = (bytes.length * 4 + 2) / 3
  | [] => rfl
  | [_] => by simp [encode]
  | [_, _] => by simp [encode]
  | _ :: _ :: _ :: rest => by
    simp only [encode, List.length_cons, encode_length rest]
    omega

end Base64Url
