import QuantumEntanglement.Lib.IsoTimeText

/-
  Strict RFC 3339 texts — one spelling for a moment

  `isRfc3339` is the pattern
  `^\d{4}-\d{2}-\d{2}T\d{2}:\d{2}:\d{2}(?:\.\d{1,6})?(?:Z|[+-]\d{2}:\d{2})$`
  over ASCII digits. `isoformatMicros` writes a UTC moment with all six
  fraction digits, so the texts it writes have one length.

  What is proved:
    1. `isRfc3339_isoformatMicros`, `fromisoformat_isoformatMicros` — the text
       of a moment matches the pattern and is read back as the moment.
    2. `isCanonicalUtc_isoformatMicros` — it is canonical, too.
-/

namespace IsoTime

open Calendar PyJson

/-- `n` digits. -/
def scanDigits : Nat → List Char → Option (List Char)
  | 0, s => some s
  | n + 1, c :: s => if c.isDigit then scanDigits n s else none
  | _ + 1, [] => none

/-- `(?:Z|[+-]\d{2}:\d{2})$`. -/
def isRfc3339Zone : List Char → Bool
  | ['Z'] => true
  | c :: rest =>
    (c == '+' || c == '-') && (do
      let s ← scanDigits 2 rest
      let s ← dropChar (· == ':') s
      scanDigits 2 s) == some []
  | [] => false

/-- `(?:\.\d{1,6})?` and the zone. -/
def isRfc3339Tail : List Char → Bool
  | '.' :: more =>
    let digits := more.takeWhile Char.isDigit
    1 ≤ digits.length && digits.length ≤ 6 && isRfc3339Zone (more.dropWhile Char.isDigit)
  | s => isRfc3339Zone s

/-- `YYYY-MM-DDTHH:MM:SS`, and what follows it. -/
def scanRfc3339 (text : List Char) : Option (List Char) := do
  let s ← scanDigits 4 text
  let s ← dropChar (· == '-') s
  let s ← scanDigits 2 s
  let s ← dropChar (· == '-') s
  let s ← scanDigits 2 s
  let s ← dropChar (· == 'T') s
  let s ← scanDigits 2 s
  let s ← dropChar (· == ':') s
  let s ← scanDigits 2 s
  let s ← dropChar (· == ':') s
  scanDigits 2 s

def isRfc3339 (text : List Char) : Bool :=
  match scanRfc3339 text with
  | some rest => isRfc3339Tail rest
  | none => false

/-- The pattern `^\d{4}-\d{2}-\d{2}T\d{2}:\d{2}:\d{2}\.\d{6}Z$`. -/
def isCanonicalUtc (text : List Char) : Bool :=
  match scanRfc3339 text with
  | some ('.' :: fraction) => scanDigits 6 fraction == some ['Z']
  | _ => false

/-- `value.isoformat(timespec="microseconds").replace("+00:00", "Z")`. -/
def isoformatMicros (m : Int) : List Char :=
  let date := dateOfDay (m / dayMicros).toNat
  let micros := (m % dayMicros).toNat
  let seconds := micros / 1000000
  pad4 date.year ++ '-' :: pad2 date.month ++ '-' :: pad2 date.day ++ 'T' ::
    pad2 (seconds / 3600) ++ ':' :: pad2 (seconds / 60 % 60) ++ ':' :: pad2 (seconds % 60) ++
    '.' :: pad6 (micros % 1000000) ++ ['Z']

/-- The reading of a UTC moment written with six fraction digits. -/
def microReading (m : Int) : Reading :=
  { momentReading m with fraction := pad6 ((m % dayMicros).toNat % 1000000) }

theorem isoformatMicros_shape {m : Int} (h : InRange m) :
    ∃ body, isoformatMicros m = body ++ ['Z'] ∧ Shape body (microReading m) := by
  obtain ⟨_, -, hshape⟩ := isoformat_shape h
  have hvalid := hshape.valid
  obtain ⟨hd, hd', -⟩ := day_of_moment h
  obtain ⟨⟨-, hm₁, hm₂, he₁, he₂⟩, -⟩ := dayNumber_dateOfDay hd
  have hyear := dateOfDay_year hd hd'
  have hday : daysInMonth (dateOfDay (m / dayMicros).toNat).year
      (dateOfDay (m / dayMicros).toNat).month ≤ 31 := daysInMonth_le _ hm₂
  have hdate := isDate_pad (d := dateOfDay (m / dayMicros).toNat) (by omega) (by omega) (by omega)
  have hhour : (microReading m).hour < 24 := hvalid.2.2.1
  have hminute : (microReading m).minute < 60 := hvalid.2.2.2.1
  have hsecond : (microReading m).second < 60 := hvalid.2.2.2.2
  refine ⟨_, rfl, hvalid, _, 'T', pad2 (microReading m).hour, pad2 (microReading m).minute,
    ':' :: (pad2 (microReading m).second ++ '.' :: (microReading m).fraction), ?_, hdate, .inl rfl,
    isPair_pad2 (Nat.lt_of_lt_of_le hhour (by omega)),
    isPair_pad2 (Nat.lt_of_lt_of_le hminute (by omega)),
    .inr ⟨_, isPair_pad2 (n := (microReading m).second) (Nat.lt_of_lt_of_le hsecond (by omega)),
      .inr ⟨rfl, by simp [microReading, pad6, pad2], fun c hc => pad6_isDigit hc⟩⟩⟩
  simp [microReading, momentReading]

theorem microReading_moment {m : Int} (h : InRange m) : (microReading m).moment 0 = m := by
  have hw := momentReading_wholeMicros h
  have hlen : (pad6 ((m % dayMicros).toNat % 1000000)).length = 6 := by simp [pad6, pad2]
  have hf : fractionMicros (microReading m).fraction = (m % dayMicros).toNat % 1000000 := by
    simp only [microReading, fractionMicros, hlen, Nat.sub_self, List.replicate_zero,
      List.append_nil]
    rw [List.take_of_length_le (by omega), ofDigits_pad6 (Nat.mod_lt _ (by omega))]
  have hwhole : (microReading m).wholeMicros = (momentReading m).wholeMicros := rfl
  simp only [Reading.moment, hf, hwhole]
  omega

/-- **Python reads a moment's text as the moment.** -/
theorem fromisoformat_isoformatMicros {v : PyVersion} {m : Int} (h : InRange m) :
    fromisoformat v (replaceZ (isoformatMicros m)) = some (microReading m) := by
  obtain ⟨body, htext, hshape⟩ := isoformatMicros_shape h
  rw [htext, replace_shape hshape,
    fromisoformat_shape hshape (replace_zone (.inl ⟨rfl, rfl⟩)) rfl, if_pos]
  intro _
  exact .inr (.inr (by simp [microReading, pad6, pad2]))

theorem scanDigits_pad2 (n : Nat) (r : List Char) : scanDigits 2 (pad2 n ++ r) = some r := by
  simp [scanDigits, pad2, digitOf_isDigit]

theorem scanDigits_pad4 (n : Nat) (r : List Char) : scanDigits 4 (pad4 n ++ r) = some r := by
  simp [scanDigits, pad4, pad2, digitOf_isDigit]

theorem dropChar_self (c : Char) (r : List Char) : dropChar (· == c) (c :: r) = some r := by
  simp [dropChar]

/-- **The text of a moment matches the strict pattern.** -/
theorem isRfc3339_isoformatMicros (m : Int) : isRfc3339 (isoformatMicros m) = true := by
  have hdigits : ∀ n, (pad6 n ++ ['Z']).takeWhile Char.isDigit = pad6 n ∧
      (pad6 n ++ ['Z']).dropWhile Char.isDigit = ['Z'] := by
    intro n
    have hall : ∀ c ∈ pad6 n, c.isDigit = true := fun c hc => pad6_isDigit hc
    exact ⟨by rw [List.takeWhile_append_of_pos hall]; simp [List.takeWhile],
      by rw [List.dropWhile_append_of_pos hall]; simp [List.dropWhile]⟩
  have hlen : ∀ n, (pad6 n).length = 6 := fun n => by simp [pad6, pad2]
  simp only [isRfc3339, scanRfc3339, isoformatMicros, List.append_assoc, List.cons_append,
    scanDigits_pad4, scanDigits_pad2, dropChar_self, Option.bind_eq_bind, Option.bind_some,
    isRfc3339Tail, hdigits, hlen]
  decide

theorem scanDigits_pad6 (n : Nat) (r : List Char) : scanDigits 6 (pad6 n ++ r) = some r := by
  simp [scanDigits, pad6, pad2, digitOf_isDigit]

/-- **The text of a moment is canonical.** -/
theorem isCanonicalUtc_isoformatMicros (m : Int) : isCanonicalUtc (isoformatMicros m) = true := by
  simp only [isCanonicalUtc, scanRfc3339, isoformatMicros, List.append_assoc, List.cons_append,
    scanDigits_pad4, scanDigits_pad2, dropChar_self, Option.bind_eq_bind, Option.bind_some,
    scanDigits_pad6]
  rfl

end IsoTime
