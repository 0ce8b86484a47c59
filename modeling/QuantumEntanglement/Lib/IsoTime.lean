import QuantumEntanglement.Lib.Calendar
import QuantumEntanglement.Lib.PyJsonRoundTrip

/-
  ISO 8601 texts — two grammars and what a text denotes

  `fromisoformat` is Python's `datetime.fromisoformat`, character by character
  as the C scanner reads: two-digit components, a fraction, a zone that starts
  at the first sign. Python 3.9 and 3.10 read one form only; from 3.11 on the
  colons may be left out, the date may be basic or a week date and a fraction
  may have any length. Both let one stray character stand between the time and
  the zone.

  `sqliteForm` is the form of the texts SQLite's `julianday` is given an
  instant for; `julianday` is NULL (`none`) for every other text. How finely
  SQLite keeps an instant is a parameter, `SqliteTime`.

  An instant is a number of microseconds from the day before 0001-01-01, a
  rational because a text may have any number of fraction digits. `denotes` keeps
  them all; `moment` is the `datetime` object, which keeps six.

  What is proved:
    1. `sqliteForm_isoformat`, `fromisoformat_isoformat` — the text of a UTC
       moment is read by both as that moment.
-/

namespace IsoTime

open Calendar PyJson

/-- The two grammars of `datetime.fromisoformat`. -/
inductive PyVersion where
  /-- Python 3.9 and 3.10. -/
  | py39
  /-- Python 3.11 and later. -/
  | py311
  deriving DecidableEq

/-- What a text says: a local date and time, every digit of its fraction, and
the offset from UTC in microseconds when there is one. -/
structure Reading where
  date : Date
  hour : Nat
  minute : Nat
  second : Nat
  fraction : List Char
  offset : Option Int
  deriving DecidableEq

/-- The fields a `datetime` object can hold. -/
def Reading.Valid (r : Reading) : Prop :=
  r.date.Valid ∧ r.date.year ≤ 9999 ∧ r.hour < 24 ∧ r.minute < 60 ∧ r.second < 60

instance (r : Reading) : Decidable r.Valid := inferInstanceAs (Decidable (_ ∧ _ ∧ _ ∧ _ ∧ _))

/-- Microseconds in a day. -/
def dayMicros : Int := 86400000000

/-- The whole seconds of a local reading, in microseconds. -/
def Reading.wholeMicros (r : Reading) : Int :=
  dayMicros * dayNumber r.date + 1000000 * (3600 * r.hour + 60 * r.minute + r.second)

/-- The microsecond field: the first six fraction digits. -/
def fractionMicros (ds : List Char) : Nat :=
  ofDigits (ds.take 6 ++ List.replicate (6 - ds.length) '0')

/-- The instant a reading with an offset denotes, to the last fraction digit. -/
def Reading.instant (r : Reading) (offset : Int) : Rat :=
  ((r.wholeMicros - offset : Int) : Rat) +
    (ofDigits r.fraction : Rat) * 1000000 / (10 ^ r.fraction.length : Nat)

/-- The UTC moment of the `datetime` object, in whole microseconds. -/
def Reading.moment (r : Reading) (offset : Int) : Int :=
  r.wholeMicros + fractionMicros r.fraction - offset

/-- A moment `astimezone` can put into the years 1 to 9999. -/
def InRange (m : Int) : Prop := dayMicros ≤ m ∧ m < dayMicros * (maxDay + 1)

instance (m : Int) : Decidable (InRange m) := inferInstanceAs (Decidable (_ ∧ _))

/-! ## Scanning -/

/-- The value of a decimal digit. -/
def digitVal (c : Char) : Nat := c.toNat - '0'.toNat

def twoDigits : List Char → Option (Nat × List Char)
  | a :: b :: rest =>
    if a.isDigit && b.isDigit then some (10 * digitVal a + digitVal b, rest) else none
  | _ => none

def fourDigits (s : List Char) : Option (Nat × List Char) := do
  let (a, s) ← twoDigits s
  let (b, s) ← twoDigits s
  some (100 * a + b, s)

/-- One character of a given kind. -/
def dropChar (ok : Char → Bool) : List Char → Option (List Char)
  | c :: rest => if ok c then some rest else none
  | [] => none

/-- The scanner after a component of the time: at the end (with or without one
stray character), before another component, or before a fraction. -/
inductive After where
  | stop (stray : Bool)
  | next (rest : List Char)
  | fraction (rest : List Char)

/-- `colons` says whether the first component was followed by a colon. -/
def afterComponent (v : PyVersion) (colons : Bool) : List Char → Option After
  | [] => some (.stop false)
  | [_] => some (.stop true)
  | c :: rest =>
    match v with
    | .py39 =>
      if c = ':' then some (.next rest)
      else if c = '.' then some (.fraction rest)
      else none
    | .py311 =>
      if colons && c = ':' then some (.next rest)
      else if c = '.' ∨ c = ',' then some (.fraction rest)
      else if colons then none
      else some (.next (c :: rest))

/-- A time of day, and whether something was left after it. -/
structure Scanned where
  hour : Nat
  minute : Nat
  second : Nat
  fraction : List Char
  stray : Bool
  deriving DecidableEq

/-- The fraction: three or six digits in Python 3.9; from 3.11 on any number,
of which the first six must be digits. -/
def scanFraction (v : PyVersion) (h m s : Nat) (text : List Char) : Option Scanned :=
  match v with
  | .py39 =>
    if (text.length = 3 ∨ text.length = 6) ∧ text.all Char.isDigit then
      some ⟨h, m, s, text, false⟩
    else none
  | .py311 =>
    if (text.take 6).all Char.isDigit then
      some ⟨h, m, s, text.takeWhile Char.isDigit, !(text.dropWhile Char.isDigit).isEmpty⟩
    else none

/-- `parse_hh_mm_ss_ff`. -/
def scanTime (v : PyVersion) (text : List Char) : Option Scanned := do
  let (h, s₁) ← twoDigits text
  let colons := s₁.head? = some ':'
  match ← afterComponent v colons s₁ with
  | .stop stray => some ⟨h, 0, 0, [], stray⟩
  | .fraction r => scanFraction v h 0 0 r
  | .next r =>
    let (m, s₂) ← twoDigits r
    match ← afterComponent v colons s₂ with
    | .stop stray => some ⟨h, m, 0, [], stray⟩
    | .fraction r => scanFraction v h m 0 r
    | .next r =>
      let (s, s₃) ← twoDigits r
      match ← afterComponent v colons s₃ with
      | .stop stray => some ⟨h, m, s, [], stray⟩
      | .fraction r => scanFraction v h m s r
      | .next r => scanFraction v h m s r

/-- The characters a zone can start with. -/
def isZoneStart (v : PyVersion) (c : Char) : Bool :=
  c = '+' || c = '-' || (c = 'Z' && v = .py311)

/-- The offset of a zone. One of less than a second is UTC, and one of a day or
more is refused. -/
def zoneOffset (v : PyVersion) : List Char → Option Int
  | [] => none
  | c :: tz =>
    if c = 'Z' then (if tz = [] then some 0 else none)
    else if v = .py39 ∧ ¬(tz.length = 5 ∨ tz.length = 8 ∨ tz.length = 15) then none
    else
      match scanTime v tz with
      | none => none
      | some t =>
        let seconds : Int := 3600 * t.hour + 60 * t.minute + t.second
        let micros := 1000000 * seconds + fractionMicros t.fraction
        if t.stray then none
        else if seconds = 0 then some 0
        else if dayMicros ≤ micros then none
        else some (if c = '-' then -micros else micros)

/-- The time half of a text: a time and an optional zone. -/
def scanTimeAndZone (v : PyVersion) (text : List Char) : Option (Scanned × Option Int) :=
  let time := text.takeWhile (fun c => !isZoneStart v c)
  let zone := text.dropWhile (fun c => !isZoneStart v c)
  match scanTime v time with
  | none => none
  | some t =>
    if zone = [] then (if t.stray then none else some (t, none))
    else (zoneOffset v zone).map (fun o => (t, some o))

/-- `YYYY-MM-DD`, and what follows. -/
def scanDate (s : List Char) : Option (Date × List Char) := do
  let (y, s) ← fourDigits s
  let s ← dropChar (· == '-') s
  let (m, s) ← twoDigits s
  let s ← dropChar (· == '-') s
  let (d, s) ← twoDigits s
  some (⟨y, m, d⟩, s)

/-- `iso_to_ymd`: the date of an ISO year, week and weekday. -/
def isoWeekDate (year week day : Nat) : Option Date :=
  let first := dayNumber ⟨year, 1, 1⟩
  let firstWeekday := weekday first
  let monday := first - firstWeekday + (if 3 < firstWeekday then 7 else 0)
  let longYear := firstWeekday = 3 ∨ (firstWeekday = 2 ∧ isLeap year)
  if 1 ≤ year ∧ year ≤ 9999 ∧ 1 ≤ week ∧ (week < 53 ∨ (week = 53 ∧ longYear)) ∧
      1 ≤ day ∧ day ≤ 7 then
    some (dateOfDay (monday + 7 * (week - 1) + (day - 1)))
  else none

/-- `parse_isoformat_date` from Python 3.11 on: an extended or basic date, by
month or by week. -/
def scanWideDate (s : List Char) : Option Date := do
  let (y, s) ← fourDigits s
  let dashes := s.head? = some '-'
  let s := if dashes then s.tail else s
  if s.head? = some 'W' then
    let (w, s) ← twoDigits s.tail
    match s with
    | [] => isoWeekDate y w 1
    | _ =>
      let s ← if dashes then dropChar (· == '-') s else some s
      match s with
      | [c] => if c.isDigit then isoWeekDate y w (digitVal c) else none
      | _ => none
  else
    let (m, s) ← twoDigits s
    let s ← if dashes then dropChar (· == '-') s else some s
    let (d, s) ← twoDigits s
    if s = [] then some ⟨y, m, d⟩ else none

/-- `find_isoformat_datetime_separator`: where the date ends. -/
def separatorIndex (s : List Char) : Option Nat :=
  let at? := fun i => s.getD i '\x00'
  if s.length = 7 then some 7
  else if at? 4 = '-' then
    if at? 5 = 'W' then
      if s.length < 8 then none
      else if 8 < s.length ∧ at? 8 = '-' then
        if s.length = 9 then none
        else if 10 < s.length ∧ (at? 10).isDigit then some 8
        else some 10
      else some 8
    else some 10
  else if at? 4 = 'W' then
    let stop := 7 + ((s.drop 7).takeWhile Char.isDigit).length
    if stop < 9 then some stop else if stop % 2 = 0 then some 7 else some 8
  else some 8

/-- The date and the time half of a text. -/
def splitDate (v : PyVersion) (s : List Char) : Option (Date × List Char) :=
  match v with
  | .py39 => (scanDate s).map (fun p => (p.1, p.2.drop 1))
  | .py311 => do
    if s.length < 7 then none
    else
      let i ← separatorIndex s
      let d ← scanWideDate (s.take i)
      some (d, s.drop (i + 1))

/-- `datetime.fromisoformat`. -/
def fromisoformat (v : PyVersion) (text : List Char) : Option Reading := do
  let (date, time) ← splitDate v text
  let r ←
    if time = [] then some ⟨date, 0, 0, 0, [], none⟩
    else do
      let (t, offset) ← scanTimeAndZone v time
      some ⟨date, t.hour, t.minute, t.second, t.fraction, offset⟩
  if r.Valid then some r else none

/-! ## SQLite -/

/-- `Z`, `+HH:MM` or `-HH:MM`. -/
def sqliteZone : List Char → Option Int
  | ['Z'] => some 0
  | c :: rest => do
    let (h, s) ← twoDigits rest
    let s ← dropChar (· == ':') s
    let (m, s) ← twoDigits s
    let micros : Int := 1000000 * (3600 * h + 60 * m)
    if s = [] ∧ h < 24 ∧ m < 60 ∧ (c = '+' ∨ c = '-') then
      some (if c = '-' then -micros else micros)
    else none
  | [] => none

/-- `[:SS[.f...]]`: the seconds, the fraction digits and what follows. -/
def sqliteSeconds : List Char → Option (Nat × List Char × List Char)
  | ':' :: rest => do
    let (s, tail) ← twoDigits rest
    match tail with
    | '.' :: more =>
      if more.takeWhile Char.isDigit = [] then none
      else some (s, more.takeWhile Char.isDigit, more.dropWhile Char.isDigit)
    | _ => some (s, [], tail)
  | s => some (0, [], s)

/-- `YYYY-MM-DD[T or space]HH:MM[:SS[.f...]][Z or +HH:MM or -HH:MM]`. -/
def sqliteForm (text : List Char) : Option Reading := do
  let (date, s) ← scanDate text
  let s ← dropChar (fun c => c == 'T' || c == ' ') s
  let (h, s) ← twoDigits s
  let s ← dropChar (· == ':') s
  let (m, s) ← twoDigits s
  let (sec, frac, s) ← sqliteSeconds s
  let offset ← sqliteZone s
  let r : Reading := ⟨date, h, m, sec, frac, some offset⟩
  if r.Valid then some r else none

/-- How SQLite keeps an instant. -/
class SqliteTime where
  keep : Rat → Rat
  monotone : ∀ {x y : Rat}, x ≤ y → keep x ≤ keep y

/-- The whole instant. -/
def SqliteTime.exact : SqliteTime := ⟨id, id⟩

/-- The first three digits of the seconds, as SQLite documents its dates. -/
def SqliteTime.milliseconds : SqliteTime where
  keep := fun x => 1000 * (x / 1000).floor
  monotone := by
    intro x y h
    have hdiv : x / 1000 ≤ y / 1000 := by
      rw [Rat.div_def, Rat.div_def]
      exact Rat.mul_le_mul_of_nonneg_right h (by decide +kernel)
    have hfloor : ((x / 1000).floor : Rat) ≤ ((y / 1000).floor : Rat) :=
      Rat.intCast_le_intCast.mpr (Rat.floor_monotone hdiv)
    exact Rat.mul_le_mul_of_nonneg_left hfloor (by decide)

/-- Instants kept apart are apart. -/
theorem SqliteTime.lt_of_keep [SqliteTime] {x y : Rat} (h : keep x < keep y) : x < y := by
  by_contra hle
  exact absurd h (not_lt.mpr (monotone (not_lt.mp hle)))

/-- `julianday(text)` as an instant, with none for NULL. -/
def julianday [SqliteTime] (text : String) : Option Rat :=
  match sqliteForm text.toList with
  | some r => r.offset.map fun offset => SqliteTime.keep (r.instant offset)
  | none => none

/-! ## Writing a moment -/

def digitOf (n : Nat) : Char := Nat.digitChar (n % 10)

def pad2 (n : Nat) : List Char := [digitOf (n / 10), digitOf n]

def pad4 (n : Nat) : List Char := pad2 (n / 100) ++ pad2 (n % 100)

def pad6 (n : Nat) : List Char := pad2 (n / 10000) ++ pad2 (n / 100 % 100) ++ pad2 (n % 100)

/-- `value.isoformat().replace("+00:00", "Z")` of a UTC moment. -/
def isoformat (m : Int) : List Char :=
  let date := dateOfDay (m / dayMicros).toNat
  let micros := (m % dayMicros).toNat
  let seconds := micros / 1000000
  let fraction := micros % 1000000
  pad4 date.year ++ '-' :: pad2 date.month ++ '-' :: pad2 date.day ++ 'T' ::
    pad2 (seconds / 3600) ++ ':' :: pad2 (seconds / 60 % 60) ++ ':' :: pad2 (seconds % 60) ++
    (if fraction = 0 then [] else '.' :: pad6 fraction) ++ ['Z']

end IsoTime
