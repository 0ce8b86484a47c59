import Mathlib

/-
  Lines of bytes — reading with a limit, and texts among the bytes

  A stream is read line by line, each read bounded in length, as a binary
  file's `readline(n)` does: a line is returned with its line feed, the last
  one perhaps without, and a longer one in pieces. No letter but the line
  feed itself has the byte of a line feed in UTF-8, so the lines of the bytes
  of a text are the bytes of its lines.

  What is proved:
    1. `readline_line`, `readline_last` — what a read of a line returns.
    2. `readline_enough` — a limit the stream does not reach has no effect.
    3. `decode_encode` — bytes of a text are read back as the text.
-/

namespace ByteLines

/-! ## Reading -/

/-- `readline(n)`: at most `n` bytes, up to and with the first line feed. -/
def readline : Nat → List UInt8 → List UInt8 × List UInt8
  | 0, s => ([], s)
  | _ + 1, [] => ([], [])
  | n + 1, b :: s => if b = 10 then ([b], s) else (b :: (readline n s).1, (readline n s).2)

theorem readline_append (n : Nat) (s : List UInt8) : (readline n s).1 ++ (readline n s).2 = s := by
  induction n generalizing s with
  | zero => rfl
  | succ n ih =>
    cases s with
    | nil => rfl
    | cons b s =>
      rw [readline]
      split
      · rfl
      · exact congrArg (b :: ·) (ih s)

theorem readline_length_le (n : Nat) (s : List UInt8) : (readline n s).1.length ≤ n := by
  induction n generalizing s with
  | zero => exact Nat.le_refl 0
  | succ n ih =>
    cases s with
    | nil => exact Nat.zero_le _
    | cons b s =>
      rw [readline]
      split
      · exact Nat.succ_le_succ (Nat.zero_le n)
      · exact Nat.succ_le_succ (ih s)

/-- Nothing is read at the end only. -/
theorem readline_nil {n : Nat} {s : List UInt8} (h : (readline (n + 1) s).1 = []) : s = [] := by
  cases s with
  | nil => rfl
  | cons b s =>
    rw [readline] at h
    split at h <;> cases h

/-- **A limit that the stream does not reach has no effect.** -/
theorem readline_enough {m n : Nat} {s : List UInt8} (hm : s.length ≤ m) (hn : s.length ≤ n) :
    readline m s = readline n s := by
  induction s generalizing m n with
  | nil => cases m <;> cases n <;> rfl
  | cons b s ih =>
    cases m with
    | zero => cases hm
    | succ m =>
      cases n with
      | zero => cases hn
      | succ n => rw [readline, readline, ih (Nat.le_of_succ_le_succ hm) (Nat.le_of_succ_le_succ hn)]

/-- **A read returns a whole line**, where the limit leaves room for it. -/
theorem readline_line {line : List UInt8} (h : 10 ∉ line) {n : Nat} (hn : line.length < n) (rest : List UInt8) :
    readline n (line ++ 10 :: rest) = (line ++ [10], rest) := by
  induction line generalizing n with
  | nil =>
    cases n with
    | zero => cases hn
    | succ n => rfl
  | cons b line ih =>
    cases n with
    | zero => cases hn
    | succ n =>
      have hb : b ≠ 10 := fun heq => h (heq ▸ List.mem_cons_self)
      have hrest := ih (fun hmem => h (List.mem_cons_of_mem _ hmem)) (Nat.lt_of_succ_lt_succ hn)
      rw [List.cons_append, readline, if_neg hb, hrest]
      rfl

/-- A last line without a line feed. -/
theorem readline_last {line : List UInt8} (h : 10 ∉ line) {n : Nat} (hn : line.length ≤ n) :
    readline n line = (line, []) := by
  induction line generalizing n with
  | nil => cases n <;> rfl
  | cons b line ih =>
    cases n with
    | zero => cases hn
    | succ n =>
      have hb : b ≠ 10 := fun heq => h (heq ▸ List.mem_cons_self)
      rw [readline, if_neg hb, ih (fun hmem => h (List.mem_cons_of_mem _ hmem)) (Nat.le_of_succ_le_succ hn)]

/-! ## Texts -/

/-- `text.encode("utf-8")`. -/
def encode (text : List Char) : List UInt8 := text.flatMap String.utf8EncodeChar

/-- `raw.decode("utf-8")`. -/
def decode (bytes : List UInt8) : Option String := String.fromUTF8? bytes.toByteArray

theorem encode_append (a b : List Char) : encode (a ++ b) = encode a ++ encode b := List.flatMap_append

theorem decode_encode (text : List Char) : decode (encode text) = some (String.ofList text) := by
  have hbytes : (encode text).toByteArray = (String.ofList text).toByteArray := rfl
  have hvalid : (String.ofList text).toByteArray.IsValidUTF8 := (String.ofList text).isValidUTF8
  rw [decode, hbytes, String.fromUTF8?, dif_pos hvalid]
  rfl

/-- No letter but the line feed has its byte. -/
theorem lineFeed_not_mem {c : Char} (h : c ≠ '\n') : 10 ∉ String.utf8EncodeChar c := by
  intro hmem
  have hbyte : ∀ n : Nat, n < 256 → 10 < n → (10 : UInt8) ≠ UInt8.ofNat n := by
    intro n hn hlt heq
    have hnat := congrArg UInt8.toNat heq
    rw [UInt8.toNat_ofNat'] at hnat
    have hten : (10 : UInt8).toNat = 10 := rfl
    omega
  dsimp only [String.utf8EncodeChar] at hmem
  split at hmem
  next hsmall =>
    rw [List.mem_singleton] at hmem
    have hnat := congrArg UInt8.toNat hmem
    rw [UInt8.toNat_ofNat'] at hnat
    have hten : (10 : UInt8).toNat = 10 := rfl
    apply h
    apply Char.ext
    apply UInt32.toNat_inj.mp
    show c.val.toNat = 10
    omega
  next =>
    split at hmem
    · rcases List.mem_cons.mp hmem with hmem | hmem
      · exact hbyte _ (by omega) (by omega) hmem
      · exact hbyte _ (by omega) (by omega) (List.mem_singleton.mp hmem)
    · split at hmem
      · rcases List.mem_cons.mp hmem with hmem | hmem
        · exact hbyte _ (by omega) (by omega) hmem
        · rcases List.mem_cons.mp hmem with hmem | hmem
          · exact hbyte _ (by omega) (by omega) hmem
          · exact hbyte _ (by omega) (by omega) (List.mem_singleton.mp hmem)
      · rcases List.mem_cons.mp hmem with hmem | hmem
        · exact hbyte _ (by omega) (by omega) hmem
        · rcases List.mem_cons.mp hmem with hmem | hmem
          · exact hbyte _ (by omega) (by omega) hmem
          · rcases List.mem_cons.mp hmem with hmem | hmem
            · exact hbyte _ (by omega) (by omega) hmem
            · exact hbyte _ (by omega) (by omega) (List.mem_singleton.mp hmem)

theorem lineFeed_not_mem_encode {text : List Char} (h : '\n' ∉ text) : 10 ∉ encode text := by
  intro hmem
  obtain ⟨c, hc, hbyte⟩ := List.mem_flatMap.mp hmem
  exact lineFeed_not_mem (fun heq => h (heq ▸ hc)) hbyte

end ByteLines
