import QuantumEntanglement.Lib.Rfc3339Reading
import QuantumEntanglement.Attempts.Records

/-
  The order of timestamps — texts compared as the instants they denote

  The store compares timestamps as texts, in Python and in SQL. What
  `_normalize_timestamp` returns is the text of a moment, 27 characters with
  six fraction digits and `Z`; two of these compare as their moments do, and
  the moment is the instant the caller's text denotes, since no accepted text
  has more than six fraction digits.

  What is proved:
    1. `normalize_instant` — normalizing keeps the instant.
    2. `microText_lt` — texts of moments compare as the moments.
    3. `timestamps_canonical` — the laws of all accepted texts, and of lease
       deadlines.
-/

namespace QuantumEntanglement.Attempts

open PyText IsoTime

variable {py : PyVersion}

/-! ## Instants -/

/-- The instant a timestamp text denotes, in microseconds, to its last digit. -/
def instantOf (py : PyVersion) (value : String) : Option Rat :=
  (readTimestamp py value).bind (fun r => r.offset.map r.instant)

theorem instantOf_microText {m : Int} (h : InRange m) : instantOf py (microText m) = some (m : Rat) := by
  have hshort : (microReading m).fraction.length ≤ 6 := by simp [microReading, pad6, pad2]
  have hmoment := Rfc3339.moment_eq_instant hshort 0
  rw [microReading_moment h] at hmoment
  rw [instantOf, readTimestamp_microText h]
  exact congrArg some hmoment

/-- **Normalizing keeps the instant.** -/
theorem normalize_instant {value name text : String} (h : normalizeTimestamp py value name = .ok text) :
    ∃ m, InRange m ∧ text = microText m ∧ instantOf py value = some (m : Rat) := by
  obtain ⟨m, hm, hmoment, htext⟩ := normalizeTimestamp_ok h
  obtain ⟨r, o, hr, ho, -, rfl⟩ := timestampMoment_ok.mp hmoment
  have hrfc : isRfc3339 value.toList = true := by
    by_contra hnot
    simp [normalizeTimestamp, Bool.not_eq_true _ ▸ hnot] at h
  obtain ⟨f, hparts⟩ := Rfc3339.isRfc3339_parts hrfc
  have hfraction := Rfc3339.fromisoformat_fraction hparts hr
  have hshort : r.fraction.length ≤ 6 := hfraction ▸ hparts.short
  refine ⟨_, hm, htext, ?_⟩
  rw [instantOf, hr, Option.bind_some, ho, Option.map_some, Rfc3339.moment_eq_instant hshort]

/-- **Texts of moments compare as the moments.** -/
theorem microText_lt {m m' : Int} (h : InRange m) (h' : InRange m') :
    microText m < microText m' ↔ m < m' := by
  rw [String.lt_iff, microText, microText, String.toList_ofList, String.toList_ofList]
  exact FixedWidth.isoformatMicros_lt h h'

theorem microText_inj {m m' : Int} (h : InRange m) (h' : InRange m') (heq : microText m = microText m') :
    m = m' := by
  have hle : ¬m < m' := by
    rw [← microText_lt h h', heq]
    exact String.lt_irrefl _
  have hge : ¬m' < m := by
    rw [← microText_lt h' h, heq]
    exact String.lt_irrefl _
  omega

/-! ## Lease deadlines -/

/-- What `lease_seconds` can be: no number, an integer no float holds, an
infinity or not a number, or the float it is. -/
inductive LeaseSeconds where
  | notNumber
  | tooLarge
  | notFinite
  | seconds (value : Rat)

/-- `_lease_deadline`, with `timedelta`'s rounding to microseconds. -/
def leaseDeadlineOf (toMicros : Rat → Nat) (py : PyVersion) (now : String) :
    LeaseSeconds → Except StoreError String
  | .notNumber => .error ⟨.typeError, "lease_seconds must be a number"⟩
  | .tooLarge => .error ⟨.valueError, "lease_seconds exceeds the supported datetime range"⟩
  | .notFinite => .error ⟨.valueError, "lease_seconds must be finite and greater than zero"⟩
  | .seconds value =>
    if value ≤ 0 then .error ⟨.valueError, "lease_seconds must be finite and greater than zero"⟩
    else leaseDeadline py now (toMicros value)

theorem leaseDeadlineOf_ok {toMicros : Rat → Nat} {now text : String} {d : LeaseSeconds}
    (h : leaseDeadlineOf toMicros py now d = .ok text) :
    ∃ micros, leaseDeadline py now micros = .ok text := by
  unfold leaseDeadlineOf at h
  split at h
  · cases h
  · cases h
  · cases h
  next value =>
    split at h
    · cases h
    · exact ⟨_, h⟩

/-! ## The laws -/

/-- **Accepted timestamps have one text an instant, and these texts compare as
the instants.** Normalizing twice changes nothing more and keeps the instant;
a lease deadline is later than the time it is counted from, as a text and as
an instant, whatever `timedelta` makes of the seconds. -/
theorem timestamps_canonical (py : PyVersion) :
    (∀ value name text, normalizeTimestamp py value name = .ok text →
      (∀ name', normalizeTimestamp py text name' = .ok text) ∧
        ∃ x, instantOf py value = some x ∧ instantOf py text = some x) ∧
    (∀ a b name name' ta tb x y, normalizeTimestamp py a name = .ok ta →
      normalizeTimestamp py b name' = .ok tb → instantOf py a = some x → instantOf py b = some y →
        (ta < tb ↔ x < y) ∧ (ta = tb ↔ x = y)) ∧
    ∀ toMicros value name now d deadline, normalizeTimestamp py value name = .ok now →
      leaseDeadlineOf toMicros py now d = .ok deadline →
        now < deadline ∧ ∃ x y, instantOf py now = some x ∧ instantOf py deadline = some y ∧ x < y := by
  refine ⟨fun value name text h => ⟨fun name' => normalizeTimestamp_idem h name', ?_⟩, ?_, ?_⟩
  · obtain ⟨m, hm, rfl, hx⟩ := normalize_instant h
    exact ⟨m, hx, instantOf_microText hm⟩
  · intro a b name name' ta tb x y ha hb hx hy
    obtain ⟨m, hm, rfl, hx'⟩ := normalize_instant ha
    obtain ⟨m', hm', rfl, hy'⟩ := normalize_instant hb
    rw [hx] at hx'
    rw [hy] at hy'
    obtain rfl := Option.some.inj hx'
    obtain rfl := Option.some.inj hy'
    constructor
    · rw [microText_lt hm hm', Int.cast_lt]
    · rw [Int.cast_inj]
      exact ⟨microText_inj hm hm', congrArg microText⟩
  · intro toMicros value name now d deadline hnow h
    obtain ⟨m, hm, rfl, -⟩ := normalize_instant hnow
    obtain ⟨micros, hdeadline⟩ := leaseDeadlineOf_ok h
    obtain ⟨hlt, hpersisted⟩ := leaseDeadline_ok hdeadline
    obtain ⟨m', hm', rfl⟩ := persistedTimestamp_iff.mp hpersisted
    refine ⟨hlt, m, m', instantOf_microText hm, instantOf_microText hm', ?_⟩
    exact Int.cast_lt.mpr ((microText_lt hm hm').mp hlt)

/-- Two texts of one day, one with an offset and a short fraction, and a lease
of half a second. -/
theorem timestamps_canonical_offset :
    normalizeTimestamp .py311 "2024-01-01T05:30:00.5+05:30" "timestamp" = .ok "2024-01-01T00:00:00.500000Z" ∧
      normalizeTimestamp .py311 "2024-01-01T00:00:00.500000Z" "timestamp" =
        .ok "2024-01-01T00:00:00.500000Z" ∧
      leaseDeadlineOf (fun s => (s * 1000000).floor.toNat) .py311 "2024-01-01T00:00:00.500000Z"
        (.seconds (1 / 2)) = .ok "2024-01-01T00:00:01.000000Z" ∧
      "2024-01-01T00:00:00.500000Z" < "2024-01-01T00:00:01.000000Z" := by
  have hfirst : normalizeTimestamp .py311 "2024-01-01T05:30:00.5+05:30" "timestamp" =
      .ok "2024-01-01T00:00:00.500000Z" := by decide +kernel
  have hlease : leaseDeadlineOf (fun s => (s * 1000000).floor.toNat) .py311 "2024-01-01T00:00:00.500000Z"
      (.seconds (1 / 2)) = .ok "2024-01-01T00:00:01.000000Z" := by decide +kernel
  obtain ⟨hidem, -, hlater⟩ := timestamps_canonical .py311
  have hsecond := (hidem _ _ _ hfirst).1 "timestamp"
  exact ⟨hfirst, hsecond, hlease, (hlater _ _ _ _ _ _ hsecond hlease).1⟩

end QuantumEntanglement.Attempts
