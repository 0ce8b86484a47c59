import Mathlib

/-
  Percent encoding — a text as characters kept and bytes escaped

  A character is kept, or its UTF-8 bytes are escaped as `%` and two
  hexadecimal digits. Where only ASCII is kept, and `%` is not, the text can be
  read back; so two texts are escaped alike only if they are the same.

  What is proved:
    1. `unescape_escapeText` — what is escaped is read back, as bytes.
    2. `escapeText_inj` — escaping tells texts apart.
    3. `mem_escapeText` — the characters of an escaped text.
    4. `split_first`, `split_last` — texts joined by a separator that one side
       does not hold are told apart.
-/

namespace PercentEncoding

/-! ## Digits -/

/-- An upper-case hexadecimal digit. -/
def hexChar (n : Nat) : Char := (Nat.digitChar n).toUpper

/-- The value of such a digit. -/
def hexValue (c : Char) : Nat := if c.toNat ≤ 57 then c.toNat - 48 else c.toNat - 55

theorem hexValue_hexChar {n : Nat} (h : n < 16) : hexValue (hexChar n) = n := by
  have hall : ∀ i : Fin 16, hexValue (hexChar i) = i := by decide
  exact hall ⟨n, h⟩

theorem hexChar_mem {n : Nat} (h : n < 16) : hexChar n ∈ "0123456789ABCDEF".toList := by
  have hall : ∀ i : Fin 16, hexChar i ∈ "0123456789ABCDEF".toList := by decide
  exact hall ⟨n, h⟩

/-! ## Escaping -/

/-- A byte, escaped. -/
def escape (b : UInt8) : List Char := ['%', hexChar (b.toNat / 16), hexChar (b.toNat % 16)]

/-- A character, kept or escaped. -/
def escapeChar (keep : Char → Bool) (c : Char) : List Char :=
  if keep c then [c] else (String.utf8EncodeChar c).flatMap escape

def escapeText (keep : Char → Bool) (text : List Char) : List Char := text.flatMap (escapeChar keep)

/-- The bytes an escaped text stands for. -/
def unescape : List Char → List UInt8
  | [] => []
  | '%' :: high :: low :: rest => UInt8.ofNat (16 * hexValue high + hexValue low) :: unescape rest
  | c :: rest => UInt8.ofNat c.toNat :: unescape rest

theorem unescape_escape (b : UInt8) (rest : List Char) :
    unescape (escape b ++ rest) = b :: unescape rest := by
  have hb := b.toNat_lt
  rw [escape, List.cons_append, List.cons_append, List.cons_append, List.nil_append, unescape,
    hexValue_hexChar (by omega), hexValue_hexChar (by omega)]
  have hsplit : 16 * (b.toNat / 16) + b.toNat % 16 = b.toNat := by omega
  rw [hsplit, UInt8.ofNat_toNat]

theorem unescape_bytes (bytes : List UInt8) (rest : List Char) :
    unescape (bytes.flatMap escape ++ rest) = bytes ++ unescape rest := by
  induction bytes with
  | nil => rfl
  | cons b bytes ih =>
    rw [List.flatMap_cons, List.append_assoc, unescape_escape, ih]
    rfl

/-- Characters that stand for themselves: ASCII, and not the escape. -/
def Plain (keep : Char → Bool) : Prop := ∀ c, keep c = true → c.toNat < 128 ∧ c ≠ '%'

variable {keep : Char → Bool}

theorem unescape_kept {c : Char} (hascii : c.toNat < 128) (hne : c ≠ '%') (rest : List Char) :
    unescape (c :: rest) = String.utf8EncodeChar c ++ unescape rest := by
  have hsize : c.utf8Size = 1 := by
    rw [Char.utf8Size_eq_one_iff, UInt32.le_iff_toNat_le]
    exact Nat.le_of_lt_succ hascii
  rw [String.utf8EncodeChar_eq_singleton hsize, unescape]
  · rfl
  · intro high low tail heq
    exact absurd heq hne

theorem unescape_escapeChar (h : Plain keep) (c : Char) (rest : List Char) :
    unescape (escapeChar keep c ++ rest) = String.utf8EncodeChar c ++ unescape rest := by
  unfold escapeChar
  split
  next hkept =>
    obtain ⟨hascii, hne⟩ := h c hkept
    exact unescape_kept hascii hne rest
  next => exact unescape_bytes _ rest

/-- **What is escaped is read back.** -/
theorem unescape_escapeText (h : Plain keep) (text : List Char) :
    unescape (escapeText keep text) = text.flatMap String.utf8EncodeChar := by
  induction text with
  | nil => rfl
  | cons c text ih =>
    unfold escapeText at ih ⊢
    rw [List.flatMap_cons, unescape_escapeChar h, ih, List.flatMap_cons]

/-- **Escaping tells texts apart.** -/
theorem escapeText_inj (h : Plain keep) {a b : List Char} (heq : escapeText keep a = escapeText keep b) :
    a = b := by
  have hbytes := congrArg unescape heq
  rw [unescape_escapeText h, unescape_escapeText h] at hbytes
  have hutf8 : (String.ofList a).toByteArray = (String.ofList b).toByteArray := by
    rw [String.toByteArray_ofList, String.toByteArray_ofList, List.utf8Encode, List.utf8Encode, hbytes]
  exact String.ofList_injective (String.toByteArray_inj.mp hutf8)

/-- The characters of an escaped text. -/
theorem mem_escapeText {text : List Char} {c : Char} (h : c ∈ escapeText keep text) :
    keep c = true ∨ c = '%' ∨ c ∈ "0123456789ABCDEF".toList := by
  obtain ⟨x, -, hx⟩ := List.mem_flatMap.mp h
  unfold escapeChar at hx
  split at hx
  next hkept =>
    rw [List.mem_singleton] at hx
    exact .inl (hx ▸ hkept)
  next =>
    obtain ⟨b, -, hb⟩ := List.mem_flatMap.mp hx
    have hlt := b.toNat_lt
    simp only [escape, List.mem_cons, List.not_mem_nil, or_false] at hb
    rcases hb with rfl | rfl | rfl
    · exact .inr (.inl rfl)
    · exact .inr (.inr (hexChar_mem (by omega)))
    · exact .inr (.inr (hexChar_mem (by omega)))

/-! ## Separators -/

/-- Split at the first separator. -/
theorem split_first {α : Type} {a : α} : ∀ {x₁ x₂ z₁ z₂ : List α}, a ∉ x₁ → a ∉ x₂ →
    x₁ ++ a :: z₁ = x₂ ++ a :: z₂ → x₁ = x₂ ∧ z₁ = z₂
  | [], [], _, _, _, _, h => ⟨rfl, (List.cons.inj h).2⟩
  | [], y :: ys, _, _, _, h₂, h => absurd (List.cons.inj h).1 (by rintro rfl; simp at h₂)
  | x :: xs, [], _, _, h₁, _, h => absurd (List.cons.inj h).1 (by rintro rfl; simp at h₁)
  | x :: xs, y :: ys, _, _, h₁, h₂, h => by
    obtain ⟨rfl, hrest⟩ := List.cons.inj h
    obtain ⟨rfl, rfl⟩ := split_first (fun hmem => h₁ (List.mem_cons_of_mem _ hmem))
      (fun hmem => h₂ (List.mem_cons_of_mem _ hmem)) hrest
    exact ⟨rfl, rfl⟩

/-- Split at the last separator. -/
theorem split_last {α : Type} {a : α} {x₁ x₂ z₁ z₂ : List α} (h₁ : a ∉ z₁) (h₂ : a ∉ z₂)
    (h : x₁ ++ a :: z₁ = x₂ ++ a :: z₂) : x₁ = x₂ ∧ z₁ = z₂ := by
  have hreverse := congrArg List.reverse h
  simp only [List.reverse_append, List.reverse_cons, List.append_assoc, List.singleton_append]
    at hreverse
  obtain ⟨hz, hx⟩ := split_first (by simpa using h₁) (by simpa using h₂) hreverse
  exact ⟨List.reverse_injective hx, List.reverse_injective hz⟩

end PercentEncoding
