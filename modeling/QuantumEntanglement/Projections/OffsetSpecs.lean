import QuantumEntanglement.Lib.Checked
import QuantumEntanglement.Projections.Offsets

/-
  What the operations of the offset store do

  One lemma for each check, read and operation: what it accepts and what it
  leaves. Later modules take a run apart by these and unfold no operation.

  What is proved:
    1. `rowToOffset_ok`, `liveOffset_ok` — the rows a read accepts, and the
       fence the leased operations share.
    2. `claim_ok`, `renew_ok`, `advance_ok`, `release_ok` — an operation that
       returned, its checks and its write.
    3. `claim_error`, `renew_error`, `advance_error`, `release_error` — one that
       raised left the database as it was.
    4. `inTransaction_cases`, `Respected.applyEvent` — how `apply_event` ends, and
       what it can have done to the database however it does.
    5. `fence_of_ok` — a leased operation that returned found its projection's
       row under its epoch, with an expiry later than its clock reading.
-/

namespace QuantumEntanglement.ProjectionOffsets

open PyText IsoTime Transaction Checked TransitionSystem

/-! ## Texts -/

theorem strip_of_noSpace {s : String} (h : ∀ c ∈ s.toList, isSpace c = false) : strip s = s := by
  have hkeep : ∀ l : List Char, (∀ c ∈ l, isSpace c = false) → l.dropWhile isSpace = l := by
    intro l hl
    cases l with
    | nil => rfl
    | cons c rest => simp [hl c List.mem_cons_self]
  rw [strip, hkeep _ h, hkeep _ (by simpa using h), List.reverse_reverse, String.ofList_toList]

theorem isoformat_noSpace (m : Int) : ∀ c ∈ isoformat m, isSpace c = false := by
  have hdigit : ∀ n, isSpace (digitOf n) = false := fun n => isSpace_of_isDigit (digitOf_isDigit n)
  have hpad : ∀ n, ∀ c ∈ pad2 n, isSpace c = false := by
    intro n c hc
    simp only [pad2, List.mem_cons, List.not_mem_nil, or_false] at hc
    rcases hc with rfl | rfl
    · exact hdigit _
    · exact hdigit _
  have hpad4 : ∀ n, ∀ c ∈ pad4 n, isSpace c = false := by
    intro n c hc
    rcases List.mem_append.mp hc with hc | hc
    · exact hpad _ c hc
    · exact hpad _ c hc
  have hpad6 : ∀ n, ∀ c ∈ pad6 n, isSpace c = false := by
    intro n c hc
    simp only [pad6, List.mem_append] at hc
    rcases hc with (hc | hc) | hc
    · exact hpad _ c hc
    · exact hpad _ c hc
    · exact hpad _ c hc
  have hmark : isSpace '-' = false ∧ isSpace 'T' = false ∧ isSpace ':' = false ∧
      isSpace '.' = false ∧ isSpace 'Z' = false := by decide
  obtain ⟨hdash, hT, hcolon, hpoint, hZ⟩ := hmark
  have hfraction : ∀ n : Nat, ∀ c ∈ (if n = 0 then [] else '.' :: pad6 n), isSpace c = false := by
    intro n
    split
    · simp
    · simpa using ⟨hpoint, hpad6 n⟩
  simp only [isoformat, List.forall_mem_append, List.forall_mem_cons]
  exact ⟨⟨⟨⟨⟨⟨⟨hpad4 _, hdash, hpad _⟩, hdash, hpad _⟩, hT, hpad _⟩, hcolon, hpad _⟩, hcolon,
    hpad _⟩, hfraction _⟩, hZ, by simp⟩

theorem isoformat_length (m : Int) : (isoformat m).length ≤ 27 := by
  simp only [isoformat, pad4, pad2, List.length_append, List.length_cons, List.length_nil]
  split
  · simp
  · simp [pad6, pad2]

/-- A name `_validate_name` accepts. -/
def NameOk (value : String) : Prop :=
  value ≠ "" ∧ value = strip value ∧ value.length ≤ maxProjectionIdentifierLength

instance (value : String) : Decidable (NameOk value) := inferInstanceAs (Decidable (_ ∧ _ ∧ _))

theorem validateName_ok {value field v : String} :
    validateName value field = .ok v ↔ NameOk value ∧ v = value := by
  unfold validateName NameOk
  split
  next h =>
    simp only [reduceCtorEq, false_iff, not_and]
    intro h'
    rcases h with h | h
    · exact absurd h h'.1
    · exact absurd h'.2.1 h
  next h =>
    simp only [not_or, not_not] at h
    split
    next hl => simp [Nat.not_le.mpr hl]
    next hl =>
      simp only [Except.ok.injEq, h.1, not_false_iff, ne_eq, true_and, Nat.not_lt.mp hl, and_true]
      exact ⟨fun e => ⟨h.2, e.symm⟩, fun e => e.2.symm⟩

theorem persistedText_ok {value field v : String} {maximum : Nat} :
    persistedText value field maximum = .ok v ↔
      (value ≠ "" ∧ value = strip value ∧ value.length ≤ maximum) ∧ v = value := by
  unfold persistedText
  split
  next h =>
    simp only [reduceCtorEq, false_iff, not_and]
    intro h'
    rcases h with h | h
    · exact absurd h h'.1
    · exact absurd h'.2.1 h
  next h =>
    simp only [not_or, not_not] at h
    split
    next hl => simp [Nat.not_le.mpr hl]
    next hl =>
      simp only [Except.ok.injEq, h.1, not_false_iff, ne_eq, true_and, Nat.not_lt.mp hl, and_true]
      exact ⟨fun e => ⟨h.2, e.symm⟩, fun e => e.2.symm⟩

theorem persistedIdentifier_ok {value field v : String} :
    persistedIdentifier value field = .ok v ↔ NameOk value ∧ v = value :=
  persistedText_ok

theorem persistedInteger_ok {value v minimum : Int} {field : String} :
    persistedInteger value field minimum = .ok v ↔
      (minimum ≤ value ∧ value ≤ maxSqliteInteger) ∧ v = value := by
  unfold persistedInteger
  split
  next h => simp [h, eq_comm]
  next h => simp [h]

theorem validatePosition_ok {value v : Int} {field : String} :
    validatePosition value field = .ok v ↔ (0 ≤ value ∧ value ≤ maxSqliteInteger) ∧ v = value := by
  unfold validatePosition
  split
  next h => simp [h, eq_comm]
  next h => simp [h]

/-! ## Time -/

theorem mapError_ok {α ε δ : Type} {x : Except ε α} {f : ε → δ} {a : α} :
    x.mapError f = .ok a ↔ x = .ok a := by
  cases x <;> simp [Except.mapError]

/-- What a clock text reads, as a moment. -/
def ClockReads (py : PyVersion) (clock : String) (m : Int) : Prop :=
  timestampMoment py clock "clock" = .ok m

theorem ClockReads.inRange {py : PyVersion} {clock : String} {m : Int} (h : ClockReads py clock m) :
    InRange m := by
  obtain ⟨r, o, -, -, hin, rfl⟩ := timestampMoment_ok.mp h
  exact hin

theorem ClockReads.unique {py : PyVersion} {clock : String} {m m' : Int} (h : ClockReads py clock m)
    (h' : ClockReads py clock m') : m = m' := by
  have heq : (Except.ok m : Except StoreError Int) = .ok m' := h.symm.trans h'
  exact Except.ok.inj heq

theorem readClock_ok {py : PyVersion} {clock now : String} :
    readClock py clock = .ok now ↔ ∃ m, ClockReads py clock m ∧ now = momentText m := by
  rw [readClock, normalizeAs, mapError_ok, normalizeTimestamp_ok]
  rfl

/-- The text of a moment reads as the moment. -/
theorem moment_of_text {py : PyVersion} {m : Int} (h : InRange m) (field : String) :
    timestampMoment py (momentText m) field = .ok m :=
  @timestampMoment_momentText SqliteTime.exact py m h field

theorem isAfter_momentText {py : PyVersion} {a b : Int} (ha : InRange a) (hb : InRange b) :
    isAfter py (momentText a) (momentText b) = decide (b < a) := by
  rw [isAfter, moment_of_text ha, moment_of_text hb]

/-- A timestamp column as the store writes it. -/
def IsStamp (value : String) : Prop := ∃ m, InRange m ∧ value = momentText m

theorem normalizeAs_self {py : PyVersion} {value field : String} :
    normalizeAs py value field = .ok value ↔ IsStamp value := by
  rw [normalizeAs, mapError_ok, normalizeTimestamp_ok]
  constructor
  · intro h
    obtain ⟨m, hm, hv⟩ := h
    obtain ⟨r, o, -, -, hin, rfl⟩ := timestampMoment_ok.mp hm
    exact ⟨_, hin, hv⟩
  · intro h
    obtain ⟨m, hin, rfl⟩ := h
    exact ⟨m, moment_of_text hin field, rfl⟩

theorem IsStamp.text {value : String} (h : IsStamp value) :
    value ≠ "" ∧ value = strip value ∧ value.length ≤ maxTimestampLength := by
  obtain ⟨m, hin, rfl⟩ := h
  refine ⟨ne_empty_of_nonBlank (momentText_nonBlank hin), ?_, ?_⟩
  · rw [strip_of_noSpace]
    rw [momentText, String.toList_ofList]
    exact isoformat_noSpace m
  · have hlen := isoformat_length m
    rw [momentText, ← String.length_toList, String.toList_ofList]
    exact Nat.le_trans hlen (by decide)

theorem persistedTimestamp_ok {py : PyVersion} {value field v : String} :
    persistedTimestamp py value field = .ok v ↔ IsStamp value ∧ v = value := by
  simp only [persistedTimestamp, except_bind_ok, persistedText_ok]
  constructor
  · intro h
    obtain ⟨t, ⟨-, rfl⟩, h⟩ := h
    split at h
    · cases h
    · cases h
    next normalized hn =>
      split at h
      · cases h
      next heq =>
        rw [not_not] at heq
        rw [← heq] at hn
        exact ⟨normalizeAs_self.mp hn, (Except.ok.inj h).symm⟩
  · intro h
    obtain ⟨hstamp, rfl⟩ := h
    refine ⟨_, ⟨hstamp.text, rfl⟩, ?_⟩
    rw [normalizeAs_self.mpr hstamp]
    simp

theorem leaseDeadline_ok {py : PyVersion} {m : Int} {seconds : LeaseSeconds} {deadline : String}
    (hin : InRange m) :
    leaseDeadline py (momentText m) seconds = .ok deadline ↔
      ∃ s, validateLeaseSeconds seconds = .ok s ∧ InRange (m + leaseMicros s) ∧
        deadline = momentText (m + leaseMicros s) := by
  simp only [leaseDeadline, except_bind_ok, mapError_ok, moment_of_text hin,
    Except.ok.injEq, exists_eq_left']
  constructor
  · intro h
    obtain ⟨s, hs, h⟩ := h
    split at h
    next hr => exact ⟨s, hs, hr, (Except.ok.inj h).symm⟩
    next => cases h
  · intro h
    obtain ⟨s, hs, hr, rfl⟩ := h
    exact ⟨s, hs, by rw [if_pos hr]⟩

/-- A duration that was accepted is accepted again, as the float it became. -/
theorem validateLeaseSeconds_float {seconds : LeaseSeconds} {s : Rat}
    (h : validateLeaseSeconds seconds = .ok s) : validateLeaseSeconds (.float s) = .ok s := by
  cases seconds with
  | int n =>
    simp only [validateLeaseSeconds] at h ⊢
    split at h
    next hn =>
      obtain rfl := Except.ok.inj h
      rw [if_pos]
      exact ⟨by exact_mod_cast hn.1, by exact_mod_cast hn.2⟩
    next => cases h
  | float x =>
    simp only [validateLeaseSeconds] at h ⊢
    split at h
    next hx =>
      obtain rfl := Except.ok.inj h
      rw [if_pos hx]
    next => cases h
  | nonFinite => cases h
  | other => cases h

/-! ## Rows and leases -/

/-- A row a read accepts. -/
structure RowOk (row : OffsetRow) : Prop where
  name : NameOk row.projectionName
  position : 0 ≤ row.lastGlobalPosition ∧ row.lastGlobalPosition ≤ maxSqliteInteger
  owner : NameOk row.ownerId
  epoch : 1 ≤ row.ownerEpoch ∧ row.ownerEpoch ≤ maxSqliteInteger
  expiry : IsStamp row.leaseExpiresAt
  updated : IsStamp row.updatedAt

theorem rowToOffset_ok {py : PyVersion} {row offset : OffsetRow} :
    rowToOffset py row = .ok offset ↔ RowOk row ∧ offset = row := by
  simp only [rowToOffset, except_bind_ok, persistedIdentifier_ok, persistedInteger_ok,
    persistedTimestamp_ok, Except.ok.injEq]
  constructor
  · intro h
    obtain ⟨_, ⟨hn, rfl⟩, _, ⟨hp, rfl⟩, _, ⟨ho, rfl⟩, _, ⟨he, rfl⟩, _, ⟨hx, rfl⟩, _, ⟨hu, rfl⟩, rfl⟩ := h
    exact ⟨⟨hn, hp, ho, he, hx, hu⟩, rfl⟩
  · intro h
    obtain ⟨hok, rfl⟩ := h
    exact ⟨_, ⟨hok.name, rfl⟩, _, ⟨hok.position, rfl⟩, _, ⟨hok.owner, rfl⟩, _, ⟨hok.epoch, rfl⟩, _,
      ⟨hok.expiry, rfl⟩, _, ⟨hok.updated, rfl⟩, rfl⟩

theorem offsetForProjection_ok {py : PyVersion} {row offset : OffsetRow} {name : String} :
    offsetForProjection py row name = .ok offset ↔
      RowOk row ∧ row.projectionName = name ∧ offset = row := by
  simp only [offsetForProjection, except_bind_ok, rowToOffset_ok]
  constructor
  · intro h
    obtain ⟨_, ⟨hok, rfl⟩, h⟩ := h
    split at h
    · cases h
    next hname => exact ⟨hok, not_not.mp hname, (Except.ok.inj h).symm⟩
  · intro h
    obtain ⟨hok, hname, rfl⟩ := h
    exact ⟨_, ⟨hok, rfl⟩, by rw [if_neg (not_not.mpr hname)]⟩

/-- The fence of the leased operations. -/
structure Live (py : PyVersion) (lease : ProjectionLease) (now : String) (row : OffsetRow) : Prop where
  ok : RowOk row
  name : row.projectionName = lease.projectionName
  owner : row.ownerId = lease.ownerId
  epoch : row.ownerEpoch = lease.ownerEpoch
  later : isAfter py row.leaseExpiresAt now = true

theorem liveOffset_ok {py : PyVersion} {lease : ProjectionLease} {now : String}
    {found : Option OffsetRow} {offset : OffsetRow} :
    liveOffset py lease now found = .ok offset ↔ found = some offset ∧ Live py lease now offset := by
  cases found with
  | none => simp [liveOffset]
  | some row =>
    simp only [liveOffset, except_bind_ok, offsetForProjection_ok, Option.some.injEq]
    constructor
    · intro h
      obtain ⟨_, ⟨hok, hname, rfl⟩, h⟩ := h
      split at h
      · cases h
      next hlive =>
        simp only [not_or, not_not, Bool.not_eq_false] at hlive
        obtain rfl := Except.ok.inj h
        exact ⟨rfl, hok, hname, hlive.1, hlive.2.1, hlive.2.2⟩
    · intro h
      obtain ⟨rfl, hlive⟩ := h
      refine ⟨_, ⟨hlive.ok, hlive.name, rfl⟩, ?_⟩
      rw [if_neg]
      simp [hlive.owner, hlive.epoch, hlive.later]

/-- A lease `_validate_lease` accepts. -/
structure LeaseOk (lease : ProjectionLease) : Prop where
  name : NameOk lease.projectionName
  owner : NameOk lease.ownerId
  epoch : 1 ≤ lease.ownerEpoch ∧ lease.ownerEpoch ≤ maxSqliteInteger
  expiry : IsStamp lease.leaseExpiresAt

theorem validateLease_ok {py : PyVersion} {lease l : ProjectionLease} :
    validateLease py lease = .ok l ↔ LeaseOk lease ∧ l = lease := by
  simp only [validateLease, except_bind_ok, validateName_ok]
  constructor
  · intro h
    obtain ⟨_, ⟨hn, -⟩, _, ⟨ho, -⟩, h⟩ := h
    split at h
    · cases h
    next he =>
      rw [except_bind_ok] at h
      obtain ⟨deadline, hd, h⟩ := h
      split at h
      · cases h
      next heq =>
        rw [not_not] at heq
        rw [heq] at hd
        exact ⟨⟨hn, ho, not_not.mp he, normalizeAs_self.mp hd⟩, (Except.ok.inj h).symm⟩
  · intro h
    obtain ⟨hok, rfl⟩ := h
    refine ⟨_, ⟨hok.name, rfl⟩, _, ⟨hok.owner, rfl⟩, ?_⟩
    rw [if_neg (not_not.mpr hok.epoch), except_bind_ok]
    exact ⟨_, normalizeAs_self.mpr hok.expiry, by simp⟩

/-! ## The tables -/

variable {R : Type}

theorem findOffset_name {name : String} {db : ProjectionDb R} {row : OffsetRow}
    (h : findOffset name db = some row) : row.projectionName = name := by
  simpa using List.find?_some h

theorem findOffset_mem {name : String} {db : ProjectionDb R} {row : OffsetRow}
    (h : findOffset name db = some row) : row ∈ db.offsets :=
  List.mem_of_find?_eq_some h

/-- An UPDATE that keeps the names finds the same rows, updated. -/
theorem findOffset_updateOffsets {p : OffsetRow → Bool} {f : OffsetRow → OffsetRow}
    (hf : ∀ row, (f row).projectionName = row.projectionName) (name : String) (db : ProjectionDb R) :
    findOffset name (updateOffsets p f db) =
      (findOffset name db).map (fun row => if p row then f row else row) := by
  simp only [findOffset, updateOffsets, updateWhere, List.find?_map]
  congr 2
  funext row
  simp only [Function.comp_apply]
  split
  · rw [hf]
  · rfl

/-- The row an UPDATE leaves. -/
theorem findOffset_updated {name : String} {db : ProjectionDb R} {row : OffsetRow}
    (hrow : findOffset name db = some row) {p : OffsetRow → Bool} {f : OffsetRow → OffsetRow}
    (hf : ∀ row, (f row).projectionName = row.projectionName) :
    findOffset name (updateOffsets p f db) = some (if p row then f row else row) := by
  rw [findOffset_updateOffsets hf, hrow, Option.map_some]

theorem ownedBy_iff {lease : ProjectionLease} {row : OffsetRow} :
    ownedBy lease row = true ↔ row.projectionName = lease.projectionName ∧
      row.ownerId = lease.ownerId ∧ row.ownerEpoch = lease.ownerEpoch := by
  simp [ownedBy, and_assoc]

theorem Live.ownedBy {py : PyVersion} {lease : ProjectionLease} {now : String} {row : OffsetRow}
    (h : Live py lease now row) : ProjectionOffsets.ownedBy lease row = true :=
  ownedBy_iff.mpr ⟨h.name, h.owner, h.epoch⟩

/-! ## The operations -/

theorem moveExpiry_ok {lease : ProjectionLease} {persisted expiry now : String} {u : Unit}
    {db db' : ProjectionDb R} :
    moveExpiry lease persisted expiry now db = (.ok u, db') ↔
      db.offsets.countP (fun row => ownedBy lease row && row.leaseExpiresAt == persisted) = 1 ∧
      db' = updateOffsets (fun row => ownedBy lease row && row.leaseExpiresAt == persisted)
        (fun row => { row with leaseExpiresAt := expiry, updatedAt := now }) db := by
  simp only [moveExpiry, Txn.bind_ok, Txn.query_ok, Txn.update_ok, Txn.ensure_ok]
  constructor
  · intro h
    obtain ⟨_, _, ⟨rfl, rfl⟩, _, _, rfl, hcount, rfl⟩ := h
    exact ⟨hcount, rfl⟩
  · intro h
    exact ⟨_, _, ⟨rfl, rfl⟩, (), _, rfl, h.1, h.2.symm⟩

/-- A claim that returned: the row is new, or was taken over. -/
theorem claim_ok {py : PyVersion} {name owner clock : String} {seconds : LeaseSeconds}
    {lease : ProjectionLease} {db db' : ProjectionDb R}
    (h : claim py name owner seconds clock db = (.ok lease, db')) :
    ∃ s m, validateLeaseSeconds seconds = .ok s ∧ NameOk name ∧ NameOk owner ∧
      ClockReads py clock m ∧ InRange (m + leaseMicros s) ∧
      ((findOffset name db = none ∧
          lease = ⟨name, owner, 1, momentText (m + leaseMicros s)⟩ ∧
          db' = { db with offsets := db.offsets ++
            [⟨name, 0, owner, 1, momentText (m + leaseMicros s), momentText m⟩] }) ∨
        ∃ row, findOffset name db = some row ∧ RowOk row ∧ row.ownerEpoch < maxSqliteInteger ∧
          (isAfter py row.leaseExpiresAt (momentText m) = true → row.ownerId = owner) ∧
          lease = ⟨name, owner, row.ownerEpoch + 1, momentText (m + leaseMicros s)⟩ ∧
          db' = updateOffsets (fun row => row.projectionName == name) (fun r =>
            { r with
              ownerId := owner
              ownerEpoch := row.ownerEpoch + 1
              leaseExpiresAt := momentText (m + leaseMicros s)
              updatedAt := momentText m }) db) := by
  simp only [claim, Txn.bind_ok, Txn.lift_ok, Txn.atomically_ok, Txn.query_ok, validateName_ok,
    readClock_ok] at h
  obtain ⟨_, _, ⟨⟨hname, rfl⟩, rfl⟩, _, _, ⟨⟨howner, rfl⟩, rfl⟩, s, _, ⟨hs, rfl⟩, _, _,
    ⟨⟨m, hm, rfl⟩, rfl⟩, deadline, _, ⟨hd, rfl⟩, found, _, ⟨hfound, rfl⟩, h⟩ := h
  obtain ⟨s', hs', hin, rfl⟩ := (leaseDeadline_ok hm.inRange).mp hd
  obtain rfl : s = s' := Except.ok.inj ((validateLeaseSeconds_float hs).symm.trans hs')
  refine ⟨s, m, hs, hname, howner, hm, hin, ?_⟩
  cases found with
  | none =>
    simp only [Txn.bind_ok, Txn.update_ok, Txn.pure_ok] at h
    obtain ⟨_, _, rfl, rfl, rfl⟩ := h
    exact .inl ⟨hfound, rfl, rfl⟩
  | some row =>
    simp only [Txn.bind_ok, Txn.lift_ok, Txn.ensure_ok, Txn.update_ok, Txn.pure_ok,
      offsetForProjection_ok] at h
    obtain ⟨row, _, ⟨⟨hok, -, rfl⟩, rfl⟩, _, _, ⟨hheld, rfl⟩, _, _, ⟨hmax, rfl⟩, _, _, rfl, rfl, rfl⟩ := h
    refine .inr ⟨row, hfound, hok, hmax, fun hafter => ?_, rfl, rfl⟩
    by_contra hne
    exact hheld ⟨hafter, hne⟩

/-- A renewal that returned. -/
theorem renew_ok {py : PyVersion} {lease lease' : ProjectionLease} {seconds : LeaseSeconds}
    {clock : String} {db db' : ProjectionDb R} :
    renew py lease seconds clock db = (.ok lease', db') ↔
      ∃ s m row, validateLeaseSeconds seconds = .ok s ∧ LeaseOk lease ∧ ClockReads py clock m ∧
        InRange (m + leaseMicros s) ∧ findOffset lease.projectionName db = some row ∧
        Live py lease (momentText m) row ∧
        moveExpiry lease row.leaseExpiresAt (momentText (m + leaseMicros s)) (momentText m) db =
          (.ok (), db') ∧
        lease' = { lease with leaseExpiresAt := momentText (m + leaseMicros s) } := by
  simp only [renew, Txn.bind_ok, Txn.lift_ok, Txn.atomically_ok, Txn.query_ok, Txn.pure_ok,
    validateLease_ok, readClock_ok, liveOffset_ok]
  constructor
  · intro h
    obtain ⟨s, _, ⟨hs, rfl⟩, _, _, ⟨⟨hlease, rfl⟩, rfl⟩, _, _, ⟨⟨m, hm, rfl⟩, rfl⟩, deadline, _,
      ⟨hd, rfl⟩, _, _, ⟨rfl, rfl⟩, row, _, ⟨⟨hrow, hlive⟩, rfl⟩, _, _, hmove, rfl, rfl⟩ := h
    obtain ⟨s', hs', hin, rfl⟩ := (leaseDeadline_ok hm.inRange).mp hd
    obtain rfl : s = s' := Except.ok.inj ((validateLeaseSeconds_float hs).symm.trans hs')
    exact ⟨s, m, row, hs, hlease, hm, hin, hrow, hlive, hmove, rfl⟩
  · intro h
    obtain ⟨s, m, row, hs, hlease, hm, hin, hrow, hlive, hmove, rfl⟩ := h
    exact ⟨s, _, ⟨hs, rfl⟩, _, _, ⟨⟨hlease, rfl⟩, rfl⟩, _, _, ⟨⟨m, hm, rfl⟩, rfl⟩, _, _,
      ⟨(leaseDeadline_ok hm.inRange).mpr ⟨s, validateLeaseSeconds_float hs, hin, rfl⟩, rfl⟩, _, _,
      ⟨rfl, rfl⟩, row, _, ⟨⟨hrow, hlive⟩, rfl⟩, (), _, hmove, rfl, rfl⟩

/-- A release that returned. -/
theorem release_ok {py : PyVersion} {lease : ProjectionLease} {clock : String} {u : Unit}
    {db db' : ProjectionDb R} :
    release py lease clock db = (.ok u, db') ↔
      ∃ m row, LeaseOk lease ∧ ClockReads py clock m ∧
        findOffset lease.projectionName db = some row ∧ Live py lease (momentText m) row ∧
        moveExpiry lease row.leaseExpiresAt (momentText m) (momentText m) db = (.ok u, db') := by
  simp only [release, Txn.bind_ok, Txn.lift_ok, Txn.atomically_ok, Txn.query_ok, validateLease_ok,
    readClock_ok, liveOffset_ok]
  constructor
  · intro h
    obtain ⟨_, _, ⟨⟨hlease, rfl⟩, rfl⟩, _, _, ⟨⟨m, hm, rfl⟩, rfl⟩, _, _, ⟨rfl, rfl⟩, row, _,
      ⟨⟨hrow, hlive⟩, rfl⟩, hmove⟩ := h
    exact ⟨m, row, hlease, hm, hrow, hlive, hmove⟩
  · intro h
    obtain ⟨m, row, hlease, hm, hrow, hlive, hmove⟩ := h
    exact ⟨_, _, ⟨⟨hlease, rfl⟩, rfl⟩, _, _, ⟨⟨m, hm, rfl⟩, rfl⟩, _, _, ⟨rfl, rfl⟩, row, _,
      ⟨⟨hrow, hlive⟩, rfl⟩, hmove⟩

/-- An advance that returned. -/
theorem advance_ok {py : PyVersion} {lease : ProjectionLease} {expected position : Int}
    {clock : String} {offset : OffsetRow} {db db' : ProjectionDb R}
    (h : advance py lease expected position clock db = (.ok offset, db')) :
    ∃ m row, LeaseOk lease ∧ ClockReads py clock m ∧ 0 ≤ expected ∧ expected < position ∧
      position ≤ maxSqliteInteger ∧ findOffset lease.projectionName db = some row ∧
      Live py lease (momentText m) row ∧ row.lastGlobalPosition = expected ∧
      db' = updateOffsets (checkpointAt lease expected) (·.movedTo position (momentText m)) db := by
  simp only [advance, Txn.bind_ok, Txn.lift_ok, Txn.atomically_ok, Txn.query_ok, Txn.ensure_ok,
    Txn.update_ok, validateLease_ok, validatePosition_ok, readClock_ok, liveOffset_ok] at h
  obtain ⟨_, _, ⟨⟨hlease, rfl⟩, rfl⟩, _, _, ⟨⟨hexp, rfl⟩, rfl⟩, _, _, ⟨⟨hpos, rfl⟩, rfl⟩, _, _,
    ⟨hlt, rfl⟩, _, _, ⟨⟨m, hm, rfl⟩, rfl⟩, _, _, ⟨rfl, rfl⟩, row, _, ⟨⟨hrow, hlive⟩, rfl⟩, _, _,
    ⟨heq, rfl⟩, _, _, rfl, found, _, ⟨hfound, rfl⟩, h⟩ := h
  refine ⟨m, row, hlease, hm, hexp.1, hlt, hpos.2, hrow, hlive, heq, ?_⟩
  cases found with
  | none =>
    rw [Txn.raise_ok] at h
    exact h.elim
  | some updated =>
    rw [Txn.lift_ok] at h
    exact h.2.symm

/-! ## Operations that raise -/

theorem restores_checked {α β : Type} {r : Except OffsetError α} {f : α → OffsetTxn R β}
    (hf : ∀ a, Txn.Restores (f a)) : Txn.Restores (Txn.lift r >>= f) :=
  Txn.Restores.bind (Txn.reads_lift r) hf

theorem claim_error {py : PyVersion} {name owner clock : String} {seconds : LeaseSeconds} :
    Txn.Restores (claim (R := R) py name owner seconds clock) :=
  restores_checked fun _ => restores_checked fun _ => restores_checked fun _ =>
    Txn.Restores.atomically _

theorem renew_error {py : PyVersion} {lease : ProjectionLease} {seconds : LeaseSeconds}
    {clock : String} : Txn.Restores (renew (R := R) py lease seconds clock) :=
  restores_checked fun _ => restores_checked fun _ => Txn.Restores.atomically _

theorem release_error {py : PyVersion} {lease : ProjectionLease} {clock : String} :
    Txn.Restores (release (R := R) py lease clock) :=
  restores_checked fun _ => Txn.Restores.atomically _

theorem advance_error {py : PyVersion} {lease : ProjectionLease} {expected position : Int}
    {clock : String} : Txn.Restores (advance (R := R) py lease expected position clock) :=
  restores_checked fun _ => restores_checked fun _ => restores_checked fun _ =>
    Txn.Restores.bind (Txn.reads_ensure _ _) fun _ => Txn.Restores.atomically _

/-! ## The session of `apply_event` -/

/-- How a transaction ends: it raised and what was committed stays, it lost its
transaction, or it committed. -/
theorem inTransaction_cases {α : Type} (body : SessionTxn R α) (db : ProjectionDb R) :
    (∃ e s, body ⟨db, db, true⟩ = (.error e, s) ∧ inTransaction body db = (.error e, s.committed)) ∨
    (∃ a s, body ⟨db, db, true⟩ = (.ok a, s) ∧ s.isOpen = false ∧
      inTransaction body db =
        (.error (.sqlite "cannot commit - no transaction is active"), s.committed)) ∨
    (∃ a s, body ⟨db, db, true⟩ = (.ok a, s) ∧ s.isOpen = true ∧
      inTransaction body db = (.ok a, s.current)) := by
  unfold inTransaction
  cases hbody : body ⟨db, db, true⟩ with
  | mk r s =>
    cases r with
    | error e => exact .inl ⟨e, s, rfl, rfl⟩
    | ok a =>
      cases hopen : s.isOpen with
      | false => exact .inr (.inl ⟨a, s, rfl, hopen, by simp [hopen]⟩)
      | true => exact .inr (.inr ⟨a, s, rfl, hopen, by simp [hopen]⟩)

/-- What a handler's statements do to its connection, whatever they are: a
relation that holds of every statement holds of the whole handler. -/
theorem runHandler_always {rel : Session R → Session R → Prop} (hr : ∀ s, rel s s)
    (ht : ∀ a b c, rel a b → rel b c → rel a c)
    (hstatement : ∀ s statement, rel s (s.execute statement).2) (handler : Handler R) :
    Txn.Always rel (runHandler handler) := by
  induction handler with
  | returns => exact Txn.Always.of_reads hr (Txn.reads_pure _)
  | raises exception => exact Txn.Always.of_reads hr (Txn.reads_raise _)
  | executes statement next ih =>
    intro s
    exact ht _ _ _ (hstatement s statement) (ih _ _ _)

/-- An `apply_event` that returned: its checks, and its body's run. -/
theorem applyEvent_ok {py : PyVersion} {lease : ProjectionLease} {expected : Int} {event : EventRef}
    {handler : Handler R} {clock : String} {result : ApplyResult} {db db' : ProjectionDb R}
    (h : applyEvent py lease expected event handler clock db = (.ok result, db')) :
    ∃ m row s, LeaseOk lease ∧ ClockReads py clock m ∧
      findOffset lease.projectionName db = some row ∧ Live py lease (momentText m) row ∧
      applyLocked py lease expected event handler (momentText m) row ⟨db, db, true⟩ =
        (.ok result, s) ∧ s.isOpen = true ∧ db' = s.current := by
  simp only [applyEvent, Txn.bind_ok, Txn.lift_ok, Txn.ensure_ok, validateLease_ok,
    validatePosition_ok, validateName_ok] at h
  obtain ⟨_, _, ⟨⟨hlease, rfl⟩, rfl⟩, _, _, ⟨⟨-, rfl⟩, rfl⟩, _, _, ⟨-, rfl⟩, _, _, ⟨-, rfl⟩, h⟩ := h
  rcases inTransaction_cases _ db with ⟨e, s, -, hend⟩ | ⟨a, s, -, -, hend⟩ | ⟨a, s, hbody, hopen, hend⟩
  · rw [hend] at h
    cases h
  · rw [hend] at h
    cases h
  · rw [hend] at h
    simp only [Prod.mk.injEq, Except.ok.injEq] at h
    obtain ⟨rfl, rfl⟩ := h
    simp only [Txn.bind_ok, Txn.lift_ok, look, Txn.query_ok, readClock_ok, liveOffset_ok] at hbody
    obtain ⟨_, _, ⟨⟨m, hm, rfl⟩, rfl⟩, _, _, ⟨rfl, rfl⟩, row, _, ⟨⟨hrow, hlive⟩, rfl⟩,
      hbody⟩ := hbody
    exact ⟨m, row, s, hlease, hm, hrow, hlive, hbody, hopen, rfl⟩

/-! ## What `apply_event` does however it ends -/

/-- A relation every write of `apply_event` respects: of a statement of the
handler, of the receipt, of the checkpoint. -/
structure Respected (rel : ProjectionDb R → ProjectionDb R → Prop) : Prop where
  refl : ∀ db, rel db db
  trans : ∀ a b c, rel a b → rel b c → rel a c
  tables : ∀ (db : ProjectionDb R) tables, rel db { db with tables }
  receipts : ∀ (db : ProjectionDb R) receipts, rel db { db with receipts }
  moved : ∀ p position now db, rel db (updateOffsets p (·.movedTo position now) db)

namespace Respected

variable {rel : ProjectionDb R → ProjectionDb R → Prop}

/-- The relation holds of what a session sees, and of what it committed. -/
def OfSession (rel : ProjectionDb R → ProjectionDb R → Prop) (db : ProjectionDb R)
    (s : Session R) : Prop :=
  rel db s.committed ∧ rel db s.current

/-- A step of a session that keeps the relation to every database. -/
def Step (rel : ProjectionDb R → ProjectionDb R → Prop) (s s' : Session R) : Prop :=
  ∀ db, OfSession rel db s → OfSession rel db s'

theorem step_refl (s : Session R) : Step rel s s := fun _ h => h

theorem step_trans (a b c : Session R) (h : Step rel a b) (h' : Step rel b c) : Step rel a c :=
  fun db hdb => h' db (h db hdb)

theorem step_write (h : Respected rel) {s : Session R} {db : ProjectionDb R}
    (hdb : rel s.current db) : Step rel s (s.write db) := by
  intro db₀ h₀
  refine ⟨?_, h.trans _ _ _ h₀.2 hdb⟩
  simp only [Session.write]
  split
  · exact h₀.1
  · exact h.trans _ _ _ h₀.2 hdb

theorem step_execute (h : Respected rel) (s : Session R) (statement : R → Outcome R) :
    Step rel s (s.execute statement).2 := by
  unfold Session.execute
  split
  · exact h.step_write (h.tables _ _)
  · exact h.step_write (h.tables _ _)
  · exact fun _ h₀ => ⟨h₀.1, h₀.1⟩

theorem always_reads {α : Type} {m : SessionTxn R α} (hm : Txn.Reads m) :
    Txn.Always (Step rel) m :=
  Txn.Always.of_reads step_refl hm

theorem always_bind {α β : Type} {m : SessionTxn R α} {f : α → SessionTxn R β}
    (hm : Txn.Always (Step rel) m) (hf : ∀ a, Txn.Always (Step rel) (f a)) :
    Txn.Always (Step rel) (m >>= f) :=
  Txn.Always.bind step_trans hm hf

theorem always_write (h : Respected rel) {f : ProjectionDb R → ProjectionDb R}
    (hf : ∀ db, rel db (f db)) : Txn.Always (Step rel) (write f) :=
  fun _ => h.step_write (hf _)

theorem always_fresh (h : Respected rel) (py : PyVersion) (lease : ProjectionLease) (expected : Int)
    (event : EventRef) (handler : Handler R) (now : String) (offset : OffsetRow) :
    Txn.Always (Step rel) (applyFresh py lease expected event handler now offset) := by
  unfold applyFresh
  refine always_bind (always_reads (Txn.reads_ensure _ _)) fun _ => ?_
  refine always_bind (always_reads (Txn.reads_ensure _ _)) fun _ => ?_
  refine always_bind (runHandler_always step_refl step_trans h.step_execute handler) fun _ => ?_
  refine always_bind (always_reads (Txn.reads_query _)) fun _ => ?_
  refine always_bind (always_reads (Txn.reads_ensure _ _)) fun _ => ?_
  refine always_bind (h.always_write fun db => h.receipts db _) fun _ => ?_
  refine always_bind (always_reads (Txn.reads_query _)) fun _ => ?_
  refine always_bind (h.always_write fun db => h.moved _ _ _ db) fun _ => ?_
  refine always_bind (always_reads (Txn.reads_ensure _ _)) fun _ => ?_
  refine always_bind (always_reads (Txn.reads_query _)) fun found => ?_
  cases found with
  | none => exact always_reads (Txn.reads_raise _)
  | some updated => exact always_reads (Txn.Reads.bind (Txn.reads_lift _) fun _ => Txn.reads_pure _)

theorem always_locked (h : Respected rel) (py : PyVersion) (lease : ProjectionLease)
    (expected : Int) (event : EventRef) (handler : Handler R) (now : String) (offset : OffsetRow) :
    Txn.Always (Step rel) (applyLocked py lease expected event handler now offset) := by
  unfold applyLocked
  refine always_bind (always_reads (Txn.reads_query _)) fun found => ?_
  cases found with
  | some receipt => exact always_reads (Txn.reads_lift _)
  | none => exact h.always_fresh py lease expected event handler now offset

/-- A transaction of such steps relates the databases, however it ends. -/
theorem inTransaction (h : Respected rel) {α : Type} {body : SessionTxn R α}
    (hbody : Txn.Always (Step rel) body) (db : ProjectionDb R) :
    rel db (ProjectionOffsets.inTransaction body db).2 := by
  have hend := hbody ⟨db, db, true⟩ db ⟨h.refl db, h.refl db⟩
  rcases inTransaction_cases body db with ⟨e, s, hrun, heq⟩ | ⟨a, s, hrun, -, heq⟩ |
    ⟨a, s, hrun, -, heq⟩
  · rw [heq]
    rw [hrun] at hend
    exact hend.1
  · rw [heq]
    rw [hrun] at hend
    exact hend.1
  · rw [heq]
    rw [hrun] at hend
    exact hend.2

theorem checked (h : Respected rel) {α β : Type} {m : OffsetTxn R α} {f : α → OffsetTxn R β}
    (hm : Txn.Reads m) (hf : ∀ a, Txn.Always rel (f a)) : Txn.Always rel (m >>= f) :=
  Txn.Always.bind h.trans (Txn.Always.of_reads h.refl hm) hf

/-- **`apply_event` relates the databases**, whatever its handler does and
however it ends. -/
theorem applyEvent (h : Respected rel) (py : PyVersion) (lease : ProjectionLease) (expected : Int)
    (event : EventRef) (handler : Handler R) (clock : String) :
    Txn.Always rel (ProjectionOffsets.applyEvent py lease expected event handler clock) := by
  refine h.checked (Txn.reads_lift _) fun lease => h.checked (Txn.reads_lift _) fun expected => ?_
  refine h.checked (Txn.reads_ensure _ _) fun _ => h.checked (Txn.reads_lift _) fun _ => ?_
  refine h.inTransaction ?_
  refine always_bind (always_reads (Txn.reads_lift _)) fun now => ?_
  refine always_bind (always_reads (Txn.reads_query _)) fun row => ?_
  refine always_bind (always_reads (Txn.reads_lift _)) fun offset => ?_
  exact h.always_locked py lease expected event handler now offset

end Respected

/-! ## Runs -/

/-- One operation, with its arguments. -/
inductive Operation (R : Type) where
  | claim (projectionName ownerId : String) (leaseSeconds : LeaseSeconds)
  | renew (lease : ProjectionLease) (leaseSeconds : LeaseSeconds)
  | advance (lease : ProjectionLease) (expectedPosition newPosition : Int)
  | applyEvent (lease : ProjectionLease) (expectedPosition : Int) (event : EventRef)
      (handler : Handler R)
  | release (lease : ProjectionLease)

/-- What an operation returns. -/
inductive Reply where
  | lease (lease : ProjectionLease)
  | offset (offset : OffsetRow)
  | applied (result : ApplyResult)
  | released
  deriving DecidableEq

namespace Operation

/-- The operation, at one clock reading. -/
def run (py : PyVersion) (clock : String) : Operation R → OffsetTxn R Reply
  | .claim name owner seconds => do
    let lease ← ProjectionOffsets.claim py name owner seconds clock
    pure (.lease lease)
  | .renew lease seconds => do
    let renewed ← ProjectionOffsets.renew py lease seconds clock
    pure (.lease renewed)
  | .advance lease expected position => do
    let offset ← ProjectionOffsets.advance py lease expected position clock
    pure (.offset offset)
  | .applyEvent lease expected event handler => do
    let result ← ProjectionOffsets.applyEvent py lease expected event handler clock
    pure (.applied result)
  | .release lease => do
    ProjectionOffsets.release py lease clock
    pure .released

/-- The lease an operation presents. -/
def lease? : Operation R → Option ProjectionLease
  | .claim _ _ _ => none
  | .renew lease _ => some lease
  | .advance lease _ _ => some lease
  | .applyEvent lease _ _ _ => some lease
  | .release lease => some lease

end Operation

theorem Respected.run_applyEvent {rel : ProjectionDb R → ProjectionDb R → Prop} (h : Respected rel)
    (py : PyVersion) (clock : String) (lease : ProjectionLease) (expected : Int) (event : EventRef)
    (handler : Handler R) :
    Txn.Always rel (Operation.run py clock (.applyEvent lease expected event handler)) :=
  Txn.Always.bind h.trans (h.applyEvent py lease expected event handler clock)
    (fun _ => Txn.Always.of_reads h.refl (Txn.reads_pure _))

/-- One call: an operation, the text its clock gives it, and how it ended. -/
structure Call (R : Type) where
  operation : Operation R
  clock : String
  result : Except OffsetError Reply

/-- The calls of any number of owners on one file, one after another. -/
def offsetSystem (py : PyVersion) : System (ProjectionDb R) (Call R) where
  start db := db.offsets = [] ∧ db.receipts = []
  step db call db' := call.operation.run py call.clock db = (call.result, db')

/-- **The fence.** -/
theorem fence_of_ok {py : PyVersion} {clock : String} {op : Operation R} {lease : ProjectionLease}
    {reply : Reply} {db db' : ProjectionDb R} (hlease : op.lease? = some lease)
    (h : op.run py clock db = (.ok reply, db')) :
    ∃ m row, ClockReads py clock m ∧ findOffset lease.projectionName db = some row ∧
      Live py lease (momentText m) row := by
  cases op with
  | claim name owner seconds => cases hlease
  | renew l seconds =>
    cases hlease
    simp only [Operation.run, Txn.bind_ok, renew_ok] at h
    obtain ⟨_, _, ⟨s, m, row, -, -, hm, -, hrow, hlive, -⟩, -⟩ := h
    exact ⟨m, row, hm, hrow, hlive⟩
  | advance l expected position =>
    cases hlease
    simp only [Operation.run, Txn.bind_ok] at h
    obtain ⟨_, _, h, -⟩ := h
    obtain ⟨m, row, -, hm, -, -, -, hrow, hlive, -⟩ := advance_ok h
    exact ⟨m, row, hm, hrow, hlive⟩
  | applyEvent l expected event handler =>
    cases hlease
    simp only [Operation.run, Txn.bind_ok] at h
    obtain ⟨_, _, h, -⟩ := h
    obtain ⟨m, row, _, -, hm, hrow, hlive, -⟩ := applyEvent_ok h
    exact ⟨m, row, hm, hrow, hlive⟩
  | release l =>
    cases hlease
    simp only [Operation.run, Txn.bind_ok, release_ok] at h
    obtain ⟨_, _, ⟨m, row, -, hm, hrow, hlive, -⟩, -⟩ := h
    exact ⟨m, row, hm, hrow, hlive⟩

end QuantumEntanglement.ProjectionOffsets
