import QuantumEntanglement.Lib.IsoTimeText
import QuantumEntanglement.Store.Tables

/-
  Store timestamps — what a timestamp text is checked against

  `normalizeTimestamp` reads a text with `datetime.fromisoformat` and writes
  its UTC moment back in one form. It raises `OverflowError`, which no reader
  catches, when the moment falls outside the years 1 to 9999.
-/

namespace QuantumEntanglement

open IsoTime

/-- The reading of a timestamp text after `value.replace("Z", "+00:00")`. -/
def readTimestamp (py : PyVersion) (value : String) : Option Reading :=
  fromisoformat py (replaceZ value.toList)

/-- The moment of a timestamp text: its UTC microseconds. -/
def timestampMoment (py : PyVersion) (value field : String) : Except StoreError Int :=
  match readTimestamp py value with
  | none => .error ⟨.valueError, field ++ " must be an RFC 3339 timestamp"⟩
  | some r =>
    match r.offset with
    | none => .error ⟨.valueError, field ++ " must include a timezone"⟩
    | some o =>
      if InRange (r.moment o) then .ok (r.moment o)
      else .error ⟨.overflowError, "date value out of range"⟩

/-- A UTC moment as the store writes it. -/
def momentText (m : Int) : String := String.ofList (isoformat m)

/-- `SQLiteEventStore._now`, at a clock text. -/
def normalizeTimestamp (py : PyVersion) (value field : String) : Except StoreError String :=
  match timestampMoment py value field with
  | .ok m => .ok (momentText m)
  | .error e => .error e

/-- `_require_rfc3339`: a text with a zone; nothing is said about the range. -/
def requireRfc3339 (py : PyVersion) (value field : String) : Except StoreError Unit :=
  match readTimestamp py value with
  | none => .error ⟨.valueError, field ++ " must be an RFC 3339 timestamp"⟩
  | some r =>
    if r.offset.isSome then .ok ()
    else .error ⟨.valueError, field ++ " must include a timezone"⟩

/-- A clock reading: a UTC moment a `datetime` object can hold. -/
structure UtcMoment where
  micros : Int
  inRange : InRange micros
  deriving DecidableEq

/-- `utc_now`. -/
def utcNow (t : UtcMoment) : String := momentText t.micros

/-- A text with a zone, whatever its range. -/
def HasZone (py : PyVersion) (value : String) : Prop :=
  ∃ r o, readTimestamp py value = some r ∧ r.offset = some o

/-- A text `normalizeTimestamp` accepts. -/
def TimestampOk (py : PyVersion) (value : String) : Prop :=
  ∃ r o, readTimestamp py value = some r ∧ r.offset = some o ∧ InRange (r.moment o)

instance (py : PyVersion) (value : String) : Decidable (TimestampOk py value) :=
  match h : readTimestamp py value with
  | none => isFalse (by rintro ⟨r, o, hr, -⟩; rw [h] at hr; simp at hr)
  | some r =>
    match ho : r.offset with
    | none => isFalse (by
        rintro ⟨r', o, hr, hr', -⟩
        rw [h] at hr
        rw [← Option.some.inj hr, ho] at hr'
        simp at hr')
    | some o =>
      if hin : InRange (r.moment o) then isTrue ⟨r, o, h, ho, hin⟩
      else isFalse (by
        rintro ⟨r', o', hr, hr', hin'⟩
        rw [h] at hr
        obtain rfl := Option.some.inj hr
        rw [ho] at hr'
        obtain rfl := Option.some.inj hr'
        exact hin hin')

theorem requireRfc3339_ok {py : PyVersion} {value field : String} {u : Unit} :
    requireRfc3339 py value field = .ok u ↔ HasZone py value := by
  unfold requireRfc3339 HasZone
  split
  next h => simp [h]
  next r h =>
    cases ho : r.offset with
    | none => simp [h, ho]
    | some o => simp [h, ho]

theorem TimestampOk.hasZone {py : PyVersion} {value : String} (h : TimestampOk py value) :
    HasZone py value := by
  obtain ⟨r, o, hr, ho, -⟩ := h
  exact ⟨r, o, hr, ho⟩

theorem timestampMoment_ok {py : PyVersion} {value field : String} {m : Int} :
    timestampMoment py value field = .ok m ↔
      ∃ r o, readTimestamp py value = some r ∧ r.offset = some o ∧ InRange (r.moment o) ∧
        m = r.moment o := by
  unfold timestampMoment
  split
  next h => simp [h]
  next r h =>
    split
    next ho => simp [h, ho]
    next o ho =>
      split
      next hin => simp [h, ho, hin, eq_comm]
      next hin => simp [h, ho, hin]

theorem normalizeTimestamp_ok {py : PyVersion} {value field : String} {text : String} :
    normalizeTimestamp py value field = .ok text ↔
      ∃ m, timestampMoment py value field = .ok m ∧ text = momentText m := by
  unfold normalizeTimestamp
  split
  next m h => simp [h, eq_comm]
  next e h => simp [h]

/-- **`normalizeTimestamp` accepts the texts of `TimestampOk`, whatever field
they are checked as.** -/
theorem normalizeTimestamp_accepts {py : PyVersion} {value field : String} :
    (∃ text, normalizeTimestamp py value field = .ok text) ↔ TimestampOk py value := by
  simp only [normalizeTimestamp_ok, timestampMoment_ok, TimestampOk]
  constructor
  · rintro ⟨_, m, ⟨r, o, hr, ho, hin, -⟩, -⟩
    exact ⟨r, o, hr, ho, hin⟩
  · rintro ⟨r, o, hr, ho, hin⟩
    exact ⟨_, _, ⟨r, o, hr, ho, hin, rfl⟩, rfl⟩

/-- An acceptable timestamp starts with a digit, so it is not blank. -/
theorem timestampOk_nonBlank {py : PyVersion} {value : String} (h : TimestampOk py value) :
    PyText.isBlank value = false := by
  obtain ⟨r, o, hr, -⟩ := h
  obtain ⟨c, rest, hcons, hc⟩ := fromisoformat_head hr
  cases hval : value.toList with
  | nil =>
    rw [hval] at hcons
    simp [replaceZ, PyText.replaceChar] at hcons
  | cons d more =>
    have hd : d.isDigit = true := by
      rw [hval] at hcons
      by_cases hz : d = 'Z'
      · subst hz
        simp only [replaceZ, PyText.replaceChar, List.flatMap_cons, if_true, List.cons_append,
          List.cons.injEq] at hcons
        rw [← hcons.1] at hc
        simp at hc
      · simp only [replaceZ, PyText.replaceChar, List.flatMap_cons, if_neg hz, List.singleton_append,
          List.cons.injEq] at hcons
        rw [hcons.1]
        exact hc
    have hspace : PyText.isSpace d = false := PyText.isSpace_of_isDigit hd
    simp [PyText.isBlank, hval, hspace]

theorem readTimestamp_momentText {py : PyVersion} {m : Int} (h : InRange m) :
    readTimestamp py (momentText m) = some (momentReading m) := by
  rw [readTimestamp, momentText, String.toList_ofList, fromisoformat_isoformat h]

/-- **The text of a moment is accepted and is its own normal form.** -/
theorem normalizeTimestamp_momentText {py : PyVersion} {m : Int} (h : InRange m) (field : String) :
    normalizeTimestamp py (momentText m) field = .ok (momentText m) := by
  have hm := momentReading_moment h
  refine normalizeTimestamp_ok.mpr ⟨m, timestampMoment_ok.mpr
    ⟨momentReading m, 0, readTimestamp_momentText h, rfl, ?_, hm.symm⟩, rfl⟩
  rwa [hm]

theorem timestampOk_momentText {py : PyVersion} {m : Int} (h : InRange m) :
    TimestampOk py (momentText m) :=
  normalizeTimestamp_accepts.mp ⟨_, normalizeTimestamp_momentText h ""⟩

theorem momentText_nonBlank {m : Int} (h : InRange m) : PyText.isBlank (momentText m) = false := by
  obtain ⟨body, htext, -⟩ := isoformat_shape h
  have hZ : 'Z' ∈ (momentText m).toList := by
    rw [momentText, String.toList_ofList, htext]
    simp
  by_contra hb
  have hall := List.all_eq_true.mp (by simpa [PyText.isBlank] using hb) 'Z' hZ
  simp [PyText.isSpace] at hall

end QuantumEntanglement
