import QuantumEntanglement.Lib.Rfc3339

/-
  Fixed-width texts — numbers whose texts compare as they do

  A text of one width for every number below a bound, such that a smaller
  number has a smaller text: two of these, one for a number divided by the
  second's bound and one for the remainder, make another, with a separator
  between them. The texts of moments are built in this way.

  What is proved:
    1. `Ascending.pair` — quotient, separator and remainder.
    2. `Ascending.of_text` — texts compare exactly as their numbers.
    3. `dateText_ascending` — the texts of dates, in the order of days.
    4. `isoformatMicros_lt` — moments compare as their texts do.
-/

namespace FixedWidth

open IsoTime Calendar

/-! ## Lists of one length -/

theorem append_lt_of_lt {a a' b b' : List Char} (hlen : a.length = a'.length) (h : a < a') :
    a ++ b < a' ++ b' := by
  induction a generalizing a' with
  | nil =>
    cases a' with
    | nil => exact absurd h (List.lt_irrefl [])
    | cons c rest => cases hlen
  | cons c rest ih =>
    cases a' with
    | nil => cases hlen
    | cons c' rest' =>
      rw [List.cons_append, List.cons_append, List.cons_lt_cons_iff]
      rcases List.cons_lt_cons_iff.mp h with hlt | ⟨heq, hrest⟩
      · exact .inl hlt
      · exact .inr ⟨heq, ih (Nat.succ.inj hlen) hrest⟩

theorem append_lt_append {b b' : List Char} (a : List Char) (h : b < b') : a ++ b < a ++ b' := by
  induction a with
  | nil => exact h
  | cons c rest ih => exact List.cons_lt_cons_iff.mpr (.inr ⟨rfl, ih⟩)

/-! ## Fields -/

/-- Numbers below `bound` have texts of one width, in their order. -/
structure Ascending (text : Nat → List Char) (bound : Nat) (width : Nat) : Prop where
  width : ∀ n < bound, (text n).length = width
  lt : ∀ m n, m < n → n < bound → text m < text n

/-- **Texts compare exactly as their numbers.** -/
theorem Ascending.of_text {text : Nat → List Char} {bound width m n : Nat}
    (h : Ascending text bound width) (hm : m < bound) (hn : n < bound) :
    text m < text n ↔ m < n := by
  constructor
  · intro hlt
    by_contra hle
    rcases Nat.eq_or_lt_of_le (Nat.not_lt.mp hle) with rfl | hgt
    · exact List.lt_irrefl _ hlt
    · exact List.lt_irrefl _ (List.lt_trans hlt (h.lt n m hgt hm))
  · exact fun hlt => h.lt m n hlt hn

/-- **A quotient and a remainder**, with a separator. -/
theorem Ascending.pair {f g : Nat → List Char} {a b w w' : Nat} (sep : List Char)
    (hf : Ascending f a w) (hg : Ascending g b w') (hb : 0 < b) :
    Ascending (fun n => f (n / b) ++ (sep ++ g (n % b))) (a * b) (w + (sep.length + w')) where
  width := by
    intro n hn
    have hquotient : n / b < a := Nat.div_lt_of_lt_mul (Nat.mul_comm a b ▸ hn)
    rw [List.length_append, List.length_append, hf.width _ hquotient,
      hg.width _ (Nat.mod_lt _ hb)]
  lt := by
    intro m n hmn hn
    have hn' : n / b < a := Nat.div_lt_of_lt_mul (Nat.mul_comm a b ▸ hn)
    have hm' : m / b < a := Nat.lt_of_le_of_lt (Nat.div_le_div_right hmn.le) hn'
    rcases Nat.eq_or_lt_of_le (Nat.div_le_div_right hmn.le : m / b ≤ n / b) with heq | hlt
    · have hmod : m % b < n % b := by
        have hm := Nat.div_add_mod m b
        have hn := Nat.div_add_mod n b
        rw [heq] at hm
        omega
      rw [heq]
      exact append_lt_append _ (append_lt_append _ (hg.lt _ _ hmod (Nat.mod_lt _ hb)))
    · apply append_lt_of_lt
      · rw [hf.width _ hm', hf.width _ hn']
      · exact hf.lt _ _ hlt hn'

/-! ## Digits -/

theorem digit_ascending : Ascending (fun n => [digitOf n]) 10 1 where
  width := fun _ _ => rfl
  lt := by
    have hall : ∀ n < 10, ∀ m < n, [digitOf m] < [digitOf n] := by decide
    exact fun m n hmn hn => hall n hn m hmn

theorem pad2_ascending : Ascending pad2 100 2 := by
  have h := digit_ascending.pair [] digit_ascending (by decide)
  have heq : (fun n => [digitOf (n / 10)] ++ ([] ++ [digitOf (n % 10)])) = pad2 := by
    funext n
    simp [pad2, digitOf]
  rw [heq] at h
  exact h

theorem pad4_ascending : Ascending pad4 10000 4 :=
  pad2_ascending.pair [] pad2_ascending (by decide)

theorem pad6_ascending : Ascending pad6 1000000 6 := by
  have h := pad4_ascending.pair [] pad2_ascending (by decide : 0 < 100)
  have heq : (fun n => pad4 (n / 100) ++ ([] ++ pad2 (n % 100))) = pad6 := by
    funext n
    simp only [pad4, pad6, List.nil_append, Nat.div_div_eq_div_mul]
  rw [heq] at h
  exact h

/-- The text of a time of day. -/
def timeText (micros : Nat) : List Char :=
  pad2 (micros / 1000000 / 3600) ++ ':' :: pad2 (micros / 1000000 / 60 % 60) ++
    ':' :: pad2 (micros / 1000000 % 60) ++ '.' :: pad6 (micros % 1000000)

theorem timeText_ascending : Ascending timeText 360000000000 15 := by
  have h := ((pad2_ascending.pair [':'] (⟨fun n hn => pad2_ascending.width n (by omega),
    fun m n hmn hn => pad2_ascending.lt m n hmn (by omega)⟩ : Ascending pad2 60 2)
    (by decide)).pair [':'] (⟨fun n hn => pad2_ascending.width n (by omega),
    fun m n hmn hn => pad2_ascending.lt m n hmn (by omega)⟩ : Ascending pad2 60 2)
    (by decide)).pair ['.'] pad6_ascending (by decide)
  have heq : (fun n => ((pad2 (n / 1000000 / 60 / 60) ++ ([':'] ++ pad2 (n / 1000000 / 60 % 60))) ++
      ([':'] ++ pad2 (n / 1000000 % 60))) ++ (['.'] ++ pad6 (n % 1000000))) = timeText := by
    funext n
    simp [timeText, Nat.div_div_eq_div_mul]
  rw [heq] at h
  exact h

/-! ## Dates -/

/-- The text of a date. -/
def dateText (d : Date) : List Char := pad4 d.year ++ '-' :: pad2 d.month ++ '-' :: pad2 d.day

/-- A date ends no later than the year, and than the month. -/
theorem dayNumber_le {d : Date} (h : d.Valid) :
    daysBeforeYear d.year < dayNumber d ∧ dayNumber d ≤ daysBeforeYear (d.year + 1) ∧
      dayNumber d ≤ daysBeforeYear d.year + daysBeforeMonth d.year (d.month + 1) := by
  obtain ⟨hy, -, hm, hd, hd'⟩ := h
  have hmonth := @daysBeforeMonth_le d.year _ hm
  have hyear := daysBeforeYear_succ hy
  simp only [dayNumber]
  simp only [daysInMonth] at hd'
  omega

theorem daysBeforeMonth_mono {year a b : Nat} (h : a ≤ b) (hb : b ≤ 13) :
    daysBeforeMonth year a ≤ daysBeforeMonth year b := by
  induction h with
  | refl => exact Nat.le_refl _
  | @step m _ ih => exact Nat.le_trans (ih (by omega)) (daysBeforeMonth_le (by omega)).1

/-- An earlier day is an earlier date. -/
theorem date_lt {d d' : Date} (h : d.Valid) (h' : d'.Valid) (hlt : dayNumber d < dayNumber d') :
    d.year < d'.year ∨ d.year = d'.year ∧
      (d.month < d'.month ∨ d.month = d'.month ∧ d.day < d'.day) := by
  have hb := dayNumber_le h
  have hb' := dayNumber_le h'
  rcases Nat.lt_trichotomy d.year d'.year with hy | hy | hy
  · exact .inl hy
  · refine .inr ⟨hy, ?_⟩
    rcases Nat.lt_trichotomy d.month d'.month with hm | hm | hm
    · exact .inl hm
    · simp only [dayNumber, hy, hm] at hlt
      exact .inr ⟨hm, by omega⟩
    · have hmono := @daysBeforeMonth_mono d.year _ _ (Nat.succ_le_of_lt hm) (by
        have hmax := h.2.2.1
        omega)
      have hday := h.2.2.2.1
      simp only [dayNumber, hy] at *
      simp only [Nat.succ_eq_add_one] at hmono
      omega
  · have hmono := daysBeforeYear_mono (Nat.succ_le_of_lt hy)
    simp only [Nat.succ_eq_add_one] at hmono
    omega

/-- **The texts of dates are in the order of days.** -/
theorem dateText_ascending : Ascending (fun n => dateText (dateOfDay (n + 1))) maxDay 10 where
  width := fun _ _ => rfl
  lt := by
    intro m n hmn hn
    obtain ⟨hm, hm'⟩ := dayNumber_dateOfDay (n := m + 1) (by omega)
    obtain ⟨hn₁, hn'⟩ := dayNumber_dateOfDay (n := n + 1) (by omega)
    have hyear := dateOfDay_year (n := n + 1) (by omega) (by omega)
    have hday := Nat.le_trans hn₁.2.2.2.2 (daysInMonth_le _ hn₁.2.2.1)
    have hmonth := hn₁.2.2.1
    have hwidth : ∀ {a b : Nat}, (pad4 a).length = (pad4 b).length := rfl
    have hwidth' : ∀ {a b : Nat}, (pad2 a).length = (pad2 b).length := rfl
    simp only [dateText, List.append_assoc, List.cons_append]
    rcases date_lt hm hn₁ (by omega) with hy | ⟨hy, hmm | ⟨hmm, hd⟩⟩
    · exact append_lt_of_lt hwidth (pad4_ascending.lt _ _ hy (by omega))
    · rw [hy]
      refine append_lt_append _ (List.cons_lt_cons_iff.mpr (.inr ⟨rfl, ?_⟩))
      exact append_lt_of_lt hwidth' (pad2_ascending.lt _ _ hmm (by omega))
    · rw [hy, hmm]
      refine append_lt_append _ (List.cons_lt_cons_iff.mpr (.inr ⟨rfl, ?_⟩))
      refine append_lt_append _ (List.cons_lt_cons_iff.mpr (.inr ⟨rfl, ?_⟩))
      exact pad2_ascending.lt _ _ hd (by omega)

/-! ## Moments -/

/-- The text of a moment: its date, its time of day and `Z`. -/
theorem isoformatMicros_eq (m : Int) : isoformatMicros m =
    dateText (dateOfDay (m / dayMicros).toNat) ++ ('T' :: timeText (m % dayMicros).toNat) ++ ['Z'] := by
  simp [isoformatMicros, dateText, timeText]

/-- The text of a moment, counted from the first. -/
def momentField (n : Nat) : List Char :=
  dateText (dateOfDay (n / 86400000000 + 1)) ++ (['T'] ++ timeText (n % 86400000000))

theorem momentField_ascending : Ascending momentField (maxDay * 86400000000) 26 :=
  dateText_ascending.pair ['T'] ⟨fun n hn => timeText_ascending.width n (by omega),
    fun m n hmn hn => timeText_ascending.lt m n hmn (by omega)⟩ (by decide)

theorem isoformatMicros_field {m : Int} (h : InRange m) :
    (m - dayMicros).toNat < maxDay * 86400000000 ∧
      isoformatMicros m = momentField (m - dayMicros).toNat ++ ['Z'] := by
  obtain ⟨hlo, hhi⟩ := h
  simp only [dayMicros, maxDay] at hlo hhi
  have hday : (m / dayMicros).toNat = (m - dayMicros).toNat / 86400000000 + 1 := by
    simp only [dayMicros]
    omega
  have htime : (m % dayMicros).toNat = (m - dayMicros).toNat % 86400000000 := by
    simp only [dayMicros]
    omega
  refine ⟨by simp only [dayMicros, maxDay]; omega, ?_⟩
  rw [isoformatMicros_eq, hday, htime, momentField]
  rfl

/-- **Moments compare as their texts do.** -/
theorem isoformatMicros_lt {m m' : Int} (h : InRange m) (h' : InRange m') :
    isoformatMicros m < isoformatMicros m' ↔ m < m' := by
  obtain ⟨hb, htext⟩ := isoformatMicros_field h
  obtain ⟨hb', htext'⟩ := isoformatMicros_field h'
  have hnumbers : (m - dayMicros).toNat < (m' - dayMicros).toNat ↔ m < m' := by
    have hlo := h.1
    have hlo' := h'.1
    omega
  rw [htext, htext', ← hnumbers, ← momentField_ascending.of_text hb hb']
  have hwidth : (momentField (m - dayMicros).toNat).length =
      (momentField (m' - dayMicros).toNat).length := by
    rw [momentField_ascending.width _ hb, momentField_ascending.width _ hb']
  constructor
  · intro hlt
    by_contra hle
    rcases Nat.lt_trichotomy (m - dayMicros).toNat (m' - dayMicros).toNat with hn | hn | hn
    · exact hle (momentField_ascending.lt _ _ hn hb')
    · rw [hn] at hlt
      exact List.lt_irrefl _ hlt
    · have hgt := @append_lt_of_lt _ _ ['Z'] ['Z'] hwidth.symm
        (momentField_ascending.lt _ _ hn hb)
      exact List.lt_irrefl _ (List.lt_trans hlt hgt)
  · exact fun hlt => append_lt_of_lt hwidth hlt

end FixedWidth
