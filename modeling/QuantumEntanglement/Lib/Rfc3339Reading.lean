import QuantumEntanglement.Lib.FixedWidth

/-
  RFC 3339 readings — how a matched text is read, and the instant it denotes

  A text of the pattern is a date, a time and a zone, with at most six digits
  of a fraction between the last two. What `fromisoformat` makes of it keeps
  every digit of the fraction, so that its moment, in whole microseconds, is
  the instant the text denotes.

  What is proved:
    1. `isRfc3339_parts` — what a matched text is made of.
    2. `fromisoformat_fraction` — how many fraction digits its reading has.
    3. `moment_eq_instant` — such a reading loses nothing.
-/

namespace Rfc3339

open IsoTime Calendar

/-! ## Scanning -/

theorem scanDigits_two {s r : List Char} (h : scanDigits 2 s = some r) :
    ∃ p n, IsPair p n ∧ s = p ++ r := by
  match s with
  | [] => simp [scanDigits] at h
  | [a] =>
    simp only [scanDigits] at h
    split at h <;> simp at h
  | a :: b :: rest =>
    simp only [scanDigits] at h
    split at h
    next ha =>
      split at h
      next hb =>
        obtain rfl := Option.some.inj h
        exact ⟨[a, b], _, ⟨a, b, rfl, ha, hb, rfl⟩, rfl⟩
      · cases h
    · cases h

theorem scanDigits_four {s r : List Char} (h : scanDigits 4 s = some r) :
    ∃ p q m n, IsPair p m ∧ IsPair q n ∧ s = p ++ (q ++ r) := by
  rcases s with _ | ⟨a, _ | ⟨b, rest⟩⟩
  · simp [scanDigits] at h
  · simp only [scanDigits] at h
    split at h <;> simp at h
  · simp only [scanDigits] at h
    split at h
    next ha =>
      split at h
      next hb =>
        have htwo : scanDigits 2 rest = some r := by
          rcases rest with _ | ⟨c, _ | ⟨d, more⟩⟩
          · simp [scanDigits] at h
          · simp only [scanDigits] at h
            split at h <;> simp at h
          · simpa [scanDigits] using h
        obtain ⟨q, n, hq, rfl⟩ := scanDigits_two htwo
        exact ⟨[a, b], q, _, n, ⟨a, b, rfl, ha, hb, rfl⟩, hq, rfl⟩
      · cases h
    · cases h

/-- The zone as Python sees it begins with a sign. -/
def SignHead (z : List Char) : Prop := ∃ c rest, z = c :: rest ∧ (c = '+' ∨ c = '-')

/-- What a matched text is made of. -/
structure Parts (text : List Char) (f : List Char) : Prop where
  short : f.length ≤ 6
  parts : ∃ pd d ph hh pm mm S ss z, text = pd ++ 'T' :: (ph ++ ':' :: (pm ++ S)) ++ z ∧ IsDate pd d ∧
    IsPair ph hh ∧ IsPair pm mm ∧ IsSeconds S ss f ∧ SignHead (replaceZ z)

theorem isRfc3339Zone_head {z : List Char} (h : isRfc3339Zone z = true) : SignHead (replaceZ z) := by
  unfold isRfc3339Zone at h
  split at h
  · exact ⟨'+', _, rfl, .inl rfl⟩
  next c rest _ =>
    simp only [Bool.and_eq_true, Bool.or_eq_true, beq_iff_eq] at h
    have hkeep : replaceZ (c :: rest) = c :: replaceZ rest := by
      rcases h.1 with rfl | rfl <;> rfl
    exact ⟨c, _, hkeep, h.1⟩
  · cases h

theorem isRfc3339_parts {text : List Char} (h : isRfc3339 text = true) : ∃ f, Parts text f := by
  unfold isRfc3339 at h
  split at h
  next rest hscan =>
    simp only [scanRfc3339, Option.bind_eq_bind, Option.bind_eq_some_iff] at hscan
    obtain ⟨s₁, h₁, s₂, h₂, s₃, h₃, s₄, h₄, s₅, h₅, s₆, h₆, s₇, h₇, s₈, h₈, s₉, h₉, s₁₀, h₁₀, h₁₁⟩ := hscan
    obtain ⟨y₁, y₂, hi, lo, hy₁, hy₂, rfl⟩ := scanDigits_four h₁
    obtain ⟨c₁, hc₁, rfl⟩ := dropChar_some h₂
    obtain ⟨pmo, mo, hpmo, rfl⟩ := scanDigits_two h₃
    obtain ⟨c₂, hc₂, rfl⟩ := dropChar_some h₄
    obtain ⟨pday, day, hpday, rfl⟩ := scanDigits_two h₅
    obtain ⟨c₃, hc₃, rfl⟩ := dropChar_some h₆
    obtain ⟨ph, hh, hph, rfl⟩ := scanDigits_two h₇
    obtain ⟨c₄, hc₄, rfl⟩ := dropChar_some h₈
    obtain ⟨pm, mm, hpm, rfl⟩ := scanDigits_two h₉
    obtain ⟨c₅, hc₅, rfl⟩ := dropChar_some h₁₀
    obtain ⟨ps, ss, hps, rfl⟩ := scanDigits_two h₁₁
    rw [beq_iff_eq] at hc₁ hc₂ hc₃ hc₄ hc₅
    subst hc₁ hc₂ hc₃ hc₄ hc₅
    have hdate : IsDate (y₁ ++ (y₂ ++ '-' :: (pmo ++ '-' :: pday))) ⟨100 * hi + lo, mo, day⟩ :=
      ⟨y₁, y₂, pmo, pday, hi, lo, rfl, hy₁, hy₂, rfl, hpmo, hpday⟩
    unfold isRfc3339Tail at h
    split at h
    next more =>
      simp only [Bool.and_eq_true, decide_eq_true_eq] at h
      have hdigits : ∀ c ∈ more.takeWhile Char.isDigit, c.isDigit = true :=
        fun c hc => takeWhile_isDigit hc
      have hne : more.takeWhile Char.isDigit ≠ [] := List.ne_nil_of_length_pos h.1.1
      refine ⟨more.takeWhile Char.isDigit, h.1.2, _, _, ph, hh, pm, mm,
        ':' :: (ps ++ '.' :: more.takeWhile Char.isDigit), ss, more.dropWhile Char.isDigit, ?_, hdate, hph,
        hpm, .inr ⟨ps, hps, .inr ⟨rfl, hne, hdigits⟩⟩, isRfc3339Zone_head h.2⟩
      simp [List.takeWhile_append_dropWhile]
    next =>
      refine ⟨[], by simp, _, _, ph, hh, pm, mm, ':' :: ps, ss, rest, ?_, hdate, hph, hpm,
        .inr ⟨ps, hps, .inl ⟨rfl, rfl⟩⟩, isRfc3339Zone_head h⟩
      simp
  · cases h

/-! ## Reading -/

theorem takeWhile_signHead {v : PyVersion} {b z : List Char} (hb : ∀ c ∈ b, TimeChar c) (hz : SignHead z) :
    (b ++ z).takeWhile (fun c => !isZoneStart v c) = b ∧
      (b ++ z).dropWhile (fun c => !isZoneStart v c) = z := by
  obtain ⟨c, rest, rfl, hc⟩ := hz
  have hb' : ∀ a ∈ b, (!isZoneStart v a) = true := fun a ha => by
    rw [(hb a ha).notZone]
    rfl
  have hc' : isZoneStart v c = true := by
    rcases hc with rfl | rfl <;> simp [isZoneStart]
  rw [List.takeWhile_append_of_pos hb', List.dropWhile_append_of_pos hb']
  simp [hc']

theorem replaceZ_append (a b : List Char) : replaceZ (a ++ b) = replaceZ a ++ replaceZ b := by
  simp [replaceZ, PyText.replaceChar, List.flatMap_append]

/-- **A matched text is read with the digits of its fraction, and no others.** -/
theorem fromisoformat_fraction {v : PyVersion} {text f : List Char} {r : Reading} (h : Parts text f)
    (hr : fromisoformat v (replaceZ text) = some r) : r.fraction = f := by
  obtain ⟨-, pd, d, ph, hh, pm, mm, S, ss, z, rfl, hdate, hph, hpm, hS, hz⟩ := h
  have hbody : ∀ c ∈ ph ++ ':' :: (pm ++ S), TimeChar c := by
    intro c hc
    rcases List.mem_append.mp hc with hc | hc
    · exact hph.timeChar c hc
    · rcases List.mem_cons.mp hc with rfl | hc
      · exact .inr (.inl rfl)
      · rcases List.mem_append.mp hc with hc | hc
        · exact hpm.timeChar c hc
        · exact hS.timeChar c hc
  have hkeep : replaceZ (pd ++ 'T' :: (ph ++ ':' :: (pm ++ S))) = pd ++ 'T' :: (ph ++ ':' :: (pm ++ S)) := by
    apply PyText.replaceChar_of_notMem
    intro hZ
    rcases List.mem_append.mp hZ with hZ | hZ
    · obtain ⟨y₁, y₂, m, e, hi, lo, rfl, h₁, h₂, -, hm, he⟩ := hdate
      simp only [List.mem_append, List.mem_cons] at hZ
      rcases hZ with h | h | h | h | h | h
      · exact (h₁.timeChar _ h).ne_Z rfl
      · exact (h₂.timeChar _ h).ne_Z rfl
      · simp at h
      · exact (hm.timeChar _ h).ne_Z rfl
      · simp at h
      · exact (he.timeChar _ h).ne_Z rfl
    · rcases List.mem_cons.mp hZ with h | h
      · simp at h
      · exact (hbody _ h).ne_Z rfl
  obtain ⟨htake, hdrop⟩ := takeWhile_signHead (v := v) hbody hz
  have htext : replaceZ (pd ++ 'T' :: (ph ++ ':' :: (pm ++ S)) ++ z) =
      pd ++ 'T' :: ((ph ++ ':' :: (pm ++ S)) ++ replaceZ z) := by
    rw [replaceZ_append, hkeep]
    simp
  have hne : ph ++ ':' :: (pm ++ S) ++ replaceZ z ≠ [] := by simp [hph.ne_nil]
  have hzne : replaceZ z ≠ [] := by
    obtain ⟨c, rest, h, -⟩ := hz
    rw [h]
    simp
  rw [htext] at hr
  simp only [fromisoformat, splitDate_date hdate, Option.bind_eq_bind, Option.bind_some, if_neg hne,
    scanTimeAndZone, htake, hdrop, scanTime_seconds hph hpm hS] at hr
  by_cases hf : FractionOk v f
  · simp only [if_pos hf, if_neg hzne, Option.bind_eq_some_iff, Option.map_eq_some_iff, Prod.exists] at hr
    obtain ⟨t, o, ⟨o', -, heq⟩, hr⟩ := hr
    obtain ⟨rfl, -⟩ := Prod.mk.inj heq
    split at hr
    · rw [← Option.some.inj hr]
    · cases hr
  · simp only [if_neg hf, Option.bind_none] at hr
    cases hr

/-- **With at most six digits the moment is the instant.** -/
theorem moment_eq_instant {r : Reading} (h : r.fraction.length ≤ 6) (offset : Int) :
    r.instant offset = (r.moment offset : Rat) := by
  have hmicros : fractionMicros r.fraction = 10 ^ (6 - r.fraction.length) * PyJson.ofDigits r.fraction := by
    rw [fractionMicros, List.take_of_length_le h, PyJson.ofDigits, PyJson.ofDigits,
      Nat.ofDigitChars_append, Nat.ofDigitChars_replicate_zero]
  have hpow : (1000000 : Rat) = 10 ^ (6 - r.fraction.length) * 10 ^ r.fraction.length := by
    rw [← pow_add, Nat.sub_add_cancel h]
    norm_num
  have hne : (10 : Rat) ^ r.fraction.length ≠ 0 := by positivity
  have hfraction : (PyJson.ofDigits r.fraction : Rat) * 1000000 / (10 ^ r.fraction.length : Nat) =
      (fractionMicros r.fraction : Rat) := by
    rw [hmicros, hpow]
    push_cast
    rw [← mul_assoc, mul_div_assoc, div_self hne, mul_one, mul_comm]
  rw [Reading.instant, hfraction, Reading.moment]
  push_cast
  ring

end Rfc3339
