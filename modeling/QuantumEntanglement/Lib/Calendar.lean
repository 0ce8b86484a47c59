import Mathlib

/-
  The proleptic Gregorian calendar — dates and day numbers

  Day 1 is 0001-01-01, as in Python's `date.toordinal`. `dateOfDay` is its
  inverse: the year is estimated from the mean length of a year and corrected
  upwards by at most one, the month is found in the twelve of that year.

  What is proved:
    1. `dayNumber_dateOfDay` — every day number is the number of the date
       `dateOfDay` gives, and that date is valid.
    2. `dateOfDay_year` — the day numbers 1 to 3652059 are of dates of the
       years 1 to 9999.
-/

namespace Calendar

/-- A calendar date; nothing says yet that the day is in the month. -/
structure Date where
  year : Nat
  month : Nat
  day : Nat
  deriving DecidableEq

def isLeap (year : Nat) : Bool := year % 4 = 0 && (year % 100 ≠ 0 || year % 400 = 0)

/-- Days before January 1st of `year`. -/
def daysBeforeYear (year : Nat) : Nat :=
  (year - 1) * 365 + (year - 1) / 4 - (year - 1) / 100 + (year - 1) / 400

/-- Days of the year before the first of `month`, the 13th month included. -/
def daysBeforeMonth (year month : Nat) : Nat :=
  let leap := if isLeap year then 1 else 0
  match month with
  | 0 => 0
  | 1 => 0
  | 2 => 31
  | 3 => 59 + leap
  | 4 => 90 + leap
  | 5 => 120 + leap
  | 6 => 151 + leap
  | 7 => 181 + leap
  | 8 => 212 + leap
  | 9 => 243 + leap
  | 10 => 273 + leap
  | 11 => 304 + leap
  | 12 => 334 + leap
  | _ => 365 + leap

def daysInMonth (year month : Nat) : Nat :=
  daysBeforeMonth year (month + 1) - daysBeforeMonth year month

/-- A date a `date` object can hold, but for the bound on the year. -/
def Date.Valid (d : Date) : Prop :=
  1 ≤ d.year ∧ 1 ≤ d.month ∧ d.month ≤ 12 ∧ 1 ≤ d.day ∧ d.day ≤ daysInMonth d.year d.month

instance (d : Date) : Decidable d.Valid := inferInstanceAs (Decidable (_ ∧ _ ∧ _ ∧ _ ∧ _))

/-- `date.toordinal`. -/
def dayNumber (d : Date) : Nat := daysBeforeYear d.year + daysBeforeMonth d.year d.month + d.day

/-- The largest day number of a `date`, that of 9999-12-31. -/
def maxDay : Nat := 3652059

/-- The year day `n` falls in. -/
def yearOfDay (n : Nat) : Nat :=
  let guess := 400 * (n - 1) / 146097 + 1
  if daysBeforeYear (guess + 1) < n then guess + 1 else guess

/-- The month of a year its day `r` falls in, counting from 1. -/
def monthOfDay (year r : Nat) : Nat :=
  if daysBeforeMonth year 12 < r then 12
  else if daysBeforeMonth year 11 < r then 11
  else if daysBeforeMonth year 10 < r then 10
  else if daysBeforeMonth year 9 < r then 9
  else if daysBeforeMonth year 8 < r then 8
  else if daysBeforeMonth year 7 < r then 7
  else if daysBeforeMonth year 6 < r then 6
  else if daysBeforeMonth year 5 < r then 5
  else if daysBeforeMonth year 4 < r then 4
  else if daysBeforeMonth year 3 < r then 3
  else if daysBeforeMonth year 2 < r then 2
  else 1

/-- `date.fromordinal`. -/
def dateOfDay (n : Nat) : Date :=
  let year := yearOfDay n
  let r := n - daysBeforeYear year
  let month := monthOfDay year r
  ⟨year, month, r - daysBeforeMonth year month⟩

/-- Python's `weekday`, Monday 0. -/
def weekday (n : Nat) : Nat := (n + 6) % 7

/-! ## Years -/

theorem isLeap_eq (year : Nat) :
    isLeap year = true ↔ year % 4 = 0 ∧ (year % 100 ≠ 0 ∨ year % 400 = 0) := by
  simp [isLeap]

theorem daysBeforeMonth_thirteen (year : Nat) :
    daysBeforeMonth year 13 = 365 + if isLeap year then 1 else 0 := by
  simp [daysBeforeMonth]

theorem daysBeforeYear_step (y : Nat) :
    daysBeforeYear (y + 1) = y * 365 + y / 4 - y / 100 + y / 400 := by
  simp [daysBeforeYear]

theorem div_succ (y k : Nat) :
    (y + 1) / k = y / k + if (y + 1) % k = 0 then 1 else 0 := by
  rw [Nat.succ_div]
  simp [Nat.dvd_iff_mod_eq_zero]

/-- A year is as long as its twelve months. -/
theorem daysBeforeYear_succ {year : Nat} (h : 1 ≤ year) :
    daysBeforeYear (year + 1) = daysBeforeYear year + daysBeforeMonth year 13 := by
  obtain ⟨y, rfl⟩ : ∃ y, year = y + 1 := ⟨year - 1, by omega⟩
  rw [daysBeforeYear_step, daysBeforeYear_step, daysBeforeMonth_thirteen, div_succ y 4,
    div_succ y 100, div_succ y 400]
  have h100 : (y + 1) % 400 = 0 → (y + 1) % 100 = 0 := by omega
  have h4 : (y + 1) % 100 = 0 → (y + 1) % 4 = 0 := by omega
  have hcentury : y / 100 ≤ y / 4 := by omega
  have hleap := isLeap_eq (y + 1)
  by_cases hy4 : (y + 1) % 4 = 0 <;> by_cases hy100 : (y + 1) % 100 = 0 <;>
    by_cases hy400 : (y + 1) % 400 = 0 <;> simp_all <;> omega

theorem daysBeforeYear_mono {a b : Nat} (h : a ≤ b) : daysBeforeYear a ≤ daysBeforeYear b := by
  have hstep : Monotone daysBeforeYear := by
    refine monotone_nat_of_le_succ (fun n => ?_)
    cases n with
    | zero => decide
    | succ y =>
      rw [daysBeforeYear_step, daysBeforeYear_step]
      omega
  exact hstep h

/-- The days before a year are those of as many mean years, but for two days. -/
theorem daysBeforeYear_mean (y : Nat) :
    400 * daysBeforeYear (y + 1) ≤ 146097 * y + 396 ∧
      146097 * y ≤ 400 * daysBeforeYear (y + 1) + 699 := by
  rw [daysBeforeYear_step]
  omega

/-- The estimate of the year is right or one too small. -/
theorem yearOfDay_spec {n : Nat} (h : 1 ≤ n) :
    1 ≤ yearOfDay n ∧ daysBeforeYear (yearOfDay n) < n ∧ n ≤ daysBeforeYear (yearOfDay n + 1) := by
  unfold yearOfDay
  simp only
  generalize hg : 400 * (n - 1) / 146097 = q
  have h₀ := daysBeforeYear_mean q
  have h₂ := daysBeforeYear_mean (q + 1 + 1)
  split <;> omega

/-! ## Months -/

theorem monthOfDay_spec {year r : Nat} (h : 1 ≤ r) (hr : r ≤ daysBeforeMonth year 13) :
    1 ≤ monthOfDay year r ∧ monthOfDay year r ≤ 12 ∧
      daysBeforeMonth year (monthOfDay year r) < r ∧
      r ≤ daysBeforeMonth year (monthOfDay year r + 1) := by
  unfold monthOfDay
  repeat' split
  all_goals
    refine ⟨by omega, by omega, ?_, ?_⟩
    all_goals first | assumption | omega | (simp [daysBeforeMonth] at *; omega)

theorem daysBeforeMonth_le {year month : Nat} (h : month ≤ 12) :
    daysBeforeMonth year month ≤ daysBeforeMonth year (month + 1) ∧
      daysBeforeMonth year (month + 1) ≤ daysBeforeMonth year 13 := by
  unfold daysBeforeMonth
  generalize (if isLeap year then 1 else 0) = leap
  rcases month with _ | _ | _ | _ | _ | _ | _ | _ | _ | _ | _ | _ | _ | m <;> simp at h ⊢ <;> omega

theorem daysInMonth_le (year : Nat) {month : Nat} (h : month ≤ 12) :
    daysInMonth year month ≤ 31 := by
  unfold daysInMonth daysBeforeMonth
  cases isLeap year <;>
    rcases month with _ | _ | _ | _ | _ | _ | _ | _ | _ | _ | _ | _ | _ | m <;> simp at h ⊢

/-! ## The two directions -/

/-- **Every day number is the number of its date.** -/
theorem dayNumber_dateOfDay {n : Nat} (h : 1 ≤ n) :
    (dateOfDay n).Valid ∧ dayNumber (dateOfDay n) = n := by
  obtain ⟨hy, hlo, hhi⟩ := yearOfDay_spec h
  rw [daysBeforeYear_succ hy] at hhi
  obtain ⟨hm, hm', hmlo, hmhi⟩ := @monthOfDay_spec (yearOfDay n)
    (n - daysBeforeYear (yearOfDay n)) (by omega) (by omega)
  refine ⟨⟨hy, hm, hm', ?_, ?_⟩, ?_⟩
  · simp only [dateOfDay]; omega
  · simp only [dateOfDay, daysInMonth]; omega
  · simp only [dateOfDay, dayNumber]; omega

theorem dateOfDay_year {n : Nat} (h : 1 ≤ n) (hn : n ≤ maxDay) : (dateOfDay n).year ≤ 9999 := by
  obtain ⟨-, hlo, -⟩ := yearOfDay_spec h
  have hval : daysBeforeYear 10000 = maxDay := by decide
  rcases Nat.lt_or_ge 9999 (dateOfDay n).year with hc | hc
  · have hmono := daysBeforeYear_mono (show 10000 ≤ yearOfDay n from hc)
    omega
  · exact hc

end Calendar
