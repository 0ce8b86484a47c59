import QuantumEntanglement.Store.EventLog

/-
  The log invariant — what every write of an event keeps

  `LogInv` is the invariant of the `events` table: positions increase in
  commit order and stay in SQLite's range, every stream is numbered 1, 2, 3,
  ..., no identifier occurs twice and no stream holds one idempotency key
  twice. `LogGrows` is what a write may do to the table: add, at the end, rows
  made from accepted events, each under the version its stream then had.

  What is proved:
    1. `LogGrows.inv` — growing keeps the invariant.
    2. `LogGrows.exists_new` — and changes and removes no row there was.
    3. `insertEvent_grows`, `insertBatch_grows`, `appendInTransaction_grows`,
       `append_grows`, `appendMany_grows` — the event store only grows the log.
    4. `Recorded.reads` — a row made from an accepted event reads back as that
       event, payload in normal form, exactly when its identifier is not blank
       and its timestamp is acceptable.
-/

namespace QuantumEntanglement

open Transaction PyJson PyText

/-- The rows of one stream, in table order. -/
def streamOf (rows : List EventRow) (streamId : String) : List EventRow :=
  rows.filter (fun r => r.streamId = streamId)

/-- Two rows that hold one idempotency key of one stream. -/
def SameKey (a b : EventRow) : Prop :=
  a.streamId = b.streamId ∧ a.idempotencyKey.isSome ∧ a.idempotencyKey = b.idempotencyKey

/-- **The invariant of the `events` table.** -/
structure LogInv (rows : List EventRow) : Prop where
  positions : rows.Pairwise (fun a b => a.globalPosition < b.globalPosition)
  range : ∀ r ∈ rows, 1 ≤ r.globalPosition ∧ r.globalPosition ≤ maxSqliteInteger
  sequences : ∀ s, (streamOf rows s).map (·.sequence) = List.range' 1 (streamOf rows s).length
  sequence_le : ∀ r ∈ rows, r.sequence ≤ r.globalPosition
  eventIds : rows.Pairwise (fun a b => a.eventId ≠ b.eventId)
  keys : rows.Pairwise (fun a b => ¬SameKey a b)

theorem logInv_nil : LogInv [] :=
  ⟨.nil, by simp, by simp [streamOf], by simp, .nil, .nil⟩

theorem streamOf_append (rows more : List EventRow) (s : String) :
    streamOf (rows ++ more) s = streamOf rows s ++ streamOf more s := by
  simp [streamOf]

theorem mem_streamOf {rows : List EventRow} {s : String} {r : EventRow} :
    r ∈ streamOf rows s ↔ r ∈ rows ∧ r.streamId = s := by
  simp [streamOf]

theorem maxOf_range' {α : Type} {column : α → Nat} {rows : List α} {n : Nat}
    (h : rows.map column = List.range' 1 n) : maxOf column rows = n := by
  have hfold : maxOf column rows = (rows.map column).foldr max 0 := by
    simp [maxOf, List.foldr_map]
  have hrange : ∀ k, (List.range' 1 k).foldr max 0 = k := by
    intro k
    induction k with
    | zero => rfl
    | succ k ih =>
      have hinit : ∀ (l : List Nat) (a : Nat), l.foldr max a = max (l.foldr max 0) a := by
        intro l a
        induction l with
        | nil => simp
        | cons b l ihl => simp only [List.foldr_cons]; rw [ihl, Nat.max_assoc]
      rw [List.range'_concat, List.foldr_append, hinit, ih]
      simp only [List.foldr_cons, List.foldr_nil]
      omega
  rw [hfold, h, hrange]

namespace LogInv

variable {rows : List EventRow}

/-- The version of a stream is the number of its rows. -/
theorem currentVersion_eq (h : LogInv rows) (s : String) :
    currentVersion rows s = (streamOf rows s).length :=
  maxOf_range' (h.sequences s)

theorem sequence_pos (h : LogInv rows) {r : EventRow} (hr : r ∈ rows) : 1 ≤ r.sequence := by
  have hmem : r.sequence ∈ (streamOf rows r.streamId).map (·.sequence) :=
    List.mem_map.mpr ⟨r, mem_streamOf.mpr ⟨hr, rfl⟩, rfl⟩
  rw [h.sequences, List.mem_range'_1] at hmem
  exact hmem.1

theorem sequence_range (h : LogInv rows) {r : EventRow} (hr : r ∈ rows) :
    r.sequence ≤ maxSqliteInteger :=
  Nat.le_trans (h.sequence_le r hr) (h.range r hr).2

/-- A row's position names it. -/
theorem position_inj (h : LogInv rows) {a b : EventRow} (ha : a ∈ rows) (hb : b ∈ rows)
    (hp : a.globalPosition = b.globalPosition) : a = b := by
  have hpair := List.pairwise_iff_getElem.mp h.positions
  obtain ⟨i, hi, rfl⟩ := List.mem_iff_getElem.mp ha
  obtain ⟨j, hj, rfl⟩ := List.mem_iff_getElem.mp hb
  rcases Nat.lt_trichotomy i j with hij | rfl | hij
  · have := hpair i j hi hj hij; omega
  · rfl
  · have := hpair j i hj hi hij; omega

/-- A fresh row under the next version and the next position keeps the
invariant. -/
theorem append_row (h : LogInv rows) {row : EventRow} (hfresh : EventFresh rows row)
    (hpos : row.globalPosition = maxOf (·.globalPosition) rows + 1)
    (hmax : row.globalPosition ≤ maxSqliteInteger)
    (hseq : row.sequence = currentVersion rows row.streamId + 1) : LogInv (rows ++ [row]) := by
  have hversion : currentVersion rows row.streamId ≤ maxOf (·.globalPosition) rows := by
    rcases Nat.eq_zero_or_pos (currentVersion rows row.streamId) with hz | hz
    · omega
    · obtain ⟨r, hr, heq⟩ := @exists_maxOf _ (·.sequence)
        (rows.filter (fun r => r.streamId = row.streamId))
        (by unfold currentVersion at hz; omega)
      have hmem := (List.mem_filter.mp hr).1
      have h₁ := h.sequence_le r hmem
      have h₂ := @le_maxOf _ (·.globalPosition) _ _ hmem
      unfold currentVersion at *
      omega
  constructor
  · refine List.pairwise_append.mpr ⟨h.positions, List.pairwise_singleton _ _, fun a ha b hb => ?_⟩
    rw [List.mem_singleton] at hb
    have := @le_maxOf _ (·.globalPosition) _ _ ha
    rw [hb, hpos]
    omega
  · intro r hr
    rcases List.mem_append.mp hr with hr | hr
    · exact h.range r hr
    · rw [List.mem_singleton] at hr
      rw [hr]
      omega
  · intro s
    rw [streamOf_append, List.map_append, List.length_append, h.sequences]
    by_cases hs : row.streamId = s
    · have hone : streamOf [row] s = [row] := by simp [streamOf, hs]
      rw [hone, List.map_singleton, List.length_singleton, hseq, hs, h.currentVersion_eq,
        List.range'_concat]
      simp [Nat.add_comm]
    · have hnone : streamOf [row] s = [] := by simp [streamOf, hs]
      rw [hnone]
      simp
  · intro r hr
    rcases List.mem_append.mp hr with hr | hr
    · exact h.sequence_le r hr
    · rw [List.mem_singleton] at hr
      rw [hr]
      omega
  · refine List.pairwise_append.mpr ⟨h.eventIds, List.pairwise_singleton _ _, fun a ha b hb => ?_⟩
    rw [List.mem_singleton] at hb
    rw [hb]
    exact (hfresh a ha).1
  · refine List.pairwise_append.mpr ⟨h.keys, List.pairwise_singleton _ _, fun a ha b hb => ?_⟩
    rw [List.mem_singleton] at hb
    rw [hb]
    exact (hfresh a ha).2.2

/-- A prefix of a log is a log. -/
theorem prefix_inv {more : List EventRow} (h : LogInv (rows ++ more)) : LogInv rows := by
  have hmem : ∀ r ∈ rows, r ∈ rows ++ more := fun r hr => List.mem_append_left _ hr
  constructor
  · exact (List.pairwise_append.mp h.positions).1
  · exact fun r hr => h.range r (hmem r hr)
  · intro s
    have hseq := congrArg (List.take (streamOf rows s).length) (h.sequences s)
    rw [streamOf_append, List.map_append, List.take_left' (by simp), List.length_append,
      List.take_range'_of_length_ge (Nat.le_add_right _ _)] at hseq
    exact hseq
  · exact fun r hr => h.sequence_le r (hmem r hr)
  · exact (List.pairwise_append.mp h.eventIds).1
  · exact (List.pairwise_append.mp h.keys).1

end LogInv

/-- **The row that holds a key of a stream is the row found under it.** -/
theorem LogInv.findKey_eq {rows : List EventRow} (h : LogInv rows) {row : EventRow} {key : String}
    (hrow : row ∈ rows) (hkey : row.idempotencyKey = some key) :
    findKey rows row.streamId key = some row := by
  have hpair := h.keys
  clear h
  induction rows with
  | nil => simp at hrow
  | cons q rest ih =>
    obtain ⟨hq, hrest⟩ := List.pairwise_cons.mp hpair
    rcases List.mem_cons.mp hrow with rfl | hmem
    · rw [findKey, List.find?_cons_of_pos (by simp [hkey])]
    · have hne : ¬(q.streamId = row.streamId ∧ q.idempotencyKey = some key) := by
        rintro ⟨hs, hk⟩
        exact hq row hmem ⟨hs, by simp [hk], by rw [hk, hkey]⟩
      rw [findKey, List.find?_cons_of_neg (by simpa using hne)]
      exact ih hmem hrest

theorem findKey_mem {rows : List EventRow} {streamId key : String} {row : EventRow}
    (h : findKey rows streamId key = some row) :
    row ∈ rows ∧ row.streamId = streamId ∧ row.idempotencyKey = some key := by
  have hp := List.find?_some h
  simp only [Bool.and_eq_true, decide_eq_true_eq] at hp
  exact ⟨List.mem_of_find?_eq_some h, hp⟩

/-! ## Growing the log -/

/-- Rows added at the end, each made from an accepted event and inserted under
the version its stream then had. -/
inductive LogGrows (cfg : StoreConfig) (rows : List EventRow) : List EventRow → Prop where
  | refl : LogGrows cfg rows rows
  | insert {mid : List EventRow} {e : DomainEvent} {snap : EventWriteSnapshot} {position : Nat} :
      LogGrows cfg rows mid → snapshotEvent cfg e = .ok snap →
      position = maxOf (·.globalPosition) mid + 1 → position ≤ maxSqliteInteger →
      EventFresh mid (snap.row (currentVersion mid snap.event.streamId + 1) position) →
      LogGrows cfg rows (mid ++ [snap.row (currentVersion mid snap.event.streamId + 1) position])

namespace LogGrows

variable {cfg : StoreConfig} {a b c : List EventRow}

theorem trans (h : LogGrows cfg a b) (h' : LogGrows cfg b c) : LogGrows cfg a c := by
  induction h' with
  | refl => exact h
  | insert _ hs hp hm hf ih => exact .insert ih hs hp hm hf

/-- **Growing keeps the invariant.** -/
theorem inv (h : LogGrows cfg a b) (hi : LogInv a) : LogInv b := by
  induction h with
  | refl => exact hi
  | insert _ _ hp hm hf ih => exact ih.append_row hf hp hm rfl

/-- **Growing changes and removes no row.** -/
theorem exists_new (h : LogGrows cfg a b) : ∃ new, b = a ++ new := by
  induction h with
  | refl => exact ⟨[], by simp⟩
  | insert _ _ _ _ _ ih =>
    obtain ⟨new, hnew⟩ := ih
    exact ⟨new ++ [_], by rw [hnew, List.append_assoc]⟩

theorem mem (h : LogGrows cfg a b) {r : EventRow} (hr : r ∈ a) : r ∈ b := by
  obtain ⟨new, rfl⟩ := h.exists_new
  exact List.mem_append_left _ hr

end LogGrows

/-! ## The writes grow the log -/

theorem insertEvent_grows {cfg : StoreConfig} {e : DomainEvent} {snap : EventWriteSnapshot}
    {sequence position : Nat} {db db' : Db} (hs : snapshotEvent cfg e = .ok snap)
    (hseq : sequence = currentVersion db.events snap.event.streamId + 1)
    (h : insertEvent snap sequence db = (.ok position, db')) :
    LogGrows cfg db.events db'.events := by
  obtain ⟨hp, hm, hf, rfl⟩ := insertEvent_ok.mp h
  subst hseq
  exact .insert .refl hs hp hm hf

theorem currentVersion_insert {rows : List EventRow} {snap : EventWriteSnapshot} {position : Nat} :
    currentVersion (rows ++ [snap.row (currentVersion rows snap.event.streamId + 1) position])
      snap.event.streamId = currentVersion rows snap.event.streamId + 1 := by
  simp only [currentVersion, List.filter_append, maxOf_append]
  have hone : List.filter (fun r => r.streamId = snap.event.streamId)
      [snap.row (maxOf (·.sequence) (rows.filter (fun r => r.streamId = snap.event.streamId)) + 1)
        position] = [snap.row (maxOf (·.sequence)
          (rows.filter (fun r => r.streamId = snap.event.streamId)) + 1) position] := by
    simp [EventWriteSnapshot.row]
  rw [hone, maxOf_singleton]
  simp only [EventWriteSnapshot.row]
  omega

theorem snapshotBatch_mem {cfg : StoreConfig} {es : List DomainEvent}
    {batch : List EventWriteSnapshot} (h : snapshotBatch cfg es = .ok batch) :
    ∀ s ∈ batch, ∃ e ∈ es, snapshotEvent cfg e = .ok s := by
  induction es generalizing batch with
  | nil =>
    simp only [snapshotBatch, Except.ok.injEq] at h
    simp [← h]
  | cons e rest ih =>
    simp only [snapshotBatch, except_bind_ok, Except.ok.injEq] at h
    obtain ⟨s, hs, ss, hss, rfl⟩ := h
    intro x hx
    rcases List.mem_cons.mp hx with rfl | hx
    · exact ⟨e, by simp, hs⟩
    · obtain ⟨e', he', hx'⟩ := ih hss x hx
      exact ⟨e', List.mem_cons_of_mem _ he', hx'⟩

/-- The rows and the stored events of a batch under given numbers. -/
def batchRows (sequence position : Nat) : List EventWriteSnapshot → List EventRow
  | [] => []
  | snap :: rest => snap.row sequence position :: batchRows (sequence + 1) (position + 1) rest

def batchStored (sequence position : Nat) : List EventWriteSnapshot → List StoredEvent
  | [] => []
  | snap :: rest =>
    ⟨snap.event, sequence, position⟩ :: batchStored (sequence + 1) (position + 1) rest

/-- A batch that was inserted: its rows follow the table under consecutive
sequences and positions, and no other table changed. -/
theorem insertBatch_ok {batch : List EventWriteSnapshot} {sequence : Nat}
    {stored : List StoredEvent} {db db' : Db}
    (h : insertBatch sequence batch db = (.ok stored, db')) :
    stored = batchStored sequence (maxOf (·.globalPosition) db.events + 1) batch ∧
      db'.events = db.events ++ batchRows sequence (maxOf (·.globalPosition) db.events + 1) batch ∧
      db' = { db with events := db'.events } := by
  induction batch generalizing sequence stored db with
  | nil =>
    obtain ⟨rfl, rfl⟩ := Txn.pure_ok.mp h
    exact ⟨rfl, by simp [batchRows], rfl⟩
  | cons snap rest ih =>
    simp only [insertBatch, Txn.bind_ok, Txn.pure_ok] at h
    obtain ⟨position, s₁, hins, more, s₂, hrest, rfl, rfl⟩ := h
    obtain ⟨rfl, -, -, rfl⟩ := insertEvent_ok.mp hins
    obtain ⟨rfl, hevents, hdb⟩ := ih hrest
    have hnext : maxOf (·.globalPosition) (db.events ++
        [snap.row sequence (maxOf (·.globalPosition) db.events + 1)]) =
          maxOf (·.globalPosition) db.events + 1 := by
      rw [maxOf_append, maxOf_singleton]
      simp only [EventWriteSnapshot.row]
      omega
    simp only [hnext, List.append_assoc, List.singleton_append] at hevents ⊢
    exact ⟨rfl, hevents, hdb⟩

theorem insertBatch_grows {cfg : StoreConfig} {streamId : String} {batch : List EventWriteSnapshot}
    {stored : List StoredEvent} {db db' : Db}
    (hsnap : ∀ s ∈ batch, ∃ e, snapshotEvent cfg e = .ok s)
    (hstream : ∀ s ∈ batch, s.event.streamId = streamId)
    (h : insertBatch (currentVersion db.events streamId + 1) batch db = (.ok stored, db')) :
    LogGrows cfg db.events db'.events := by
  induction batch generalizing stored db with
  | nil =>
    obtain ⟨-, rfl⟩ := Txn.pure_ok.mp h
    exact .refl
  | cons snap rest ih =>
    simp only [insertBatch, Txn.bind_ok, Txn.pure_ok] at h
    obtain ⟨position, s₁, hins, more, s₂, hrest, rfl, rfl⟩ := h
    obtain ⟨e, he⟩ := hsnap snap (by simp)
    have hid := hstream snap (by simp)
    subst hid
    have hgrow := insertEvent_grows he rfl hins
    obtain ⟨-, -, -, rfl⟩ := insertEvent_ok.mp hins
    refine hgrow.trans (@ih more _ (fun s hs => hsnap s (by simp [hs]))
      (fun s hs => hstream s (by simp [hs])) ?_)
    rw [currentVersion_insert]
    exact hrest

theorem appendInTransaction_grows {cfg : StoreConfig} {e : DomainEvent} {snap : EventWriteSnapshot}
    {ev egp : Option Int} {stored : StoredEvent} {inserted : Bool} {db db' : Db}
    (hs : snapshotEvent cfg e = .ok snap)
    (h : appendInTransaction cfg snap ev egp db = (.ok (stored, inserted), db')) :
    LogGrows cfg db.events db'.events := by
  rcases appendInTransaction_ok h with ⟨-, -, -, -, hst, hins⟩ | ⟨-, rfl, -⟩
  · exact insertEvent_grows hs (by rw [hst]) hins
  · exact .refl

theorem append_grows {cfg : StoreConfig} {e : DomainEvent} {ev egp : Option Int}
    {stored : StoredEvent} {db db' : Db} (h : append cfg e ev egp db = (.ok stored, db')) :
    LogGrows cfg db.events db'.events := by
  obtain ⟨snap, ins, hs, happ⟩ := append_ok h
  exact appendInTransaction_grows hs happ

theorem appendMany_grows {cfg : StoreConfig} {streamId : String} {es : List DomainEvent}
    {ev : Option Int} {stored : List StoredEvent} {db db' : Db}
    (h : appendMany cfg streamId es ev db = (.ok stored, db')) :
    LogGrows cfg db.events db'.events := by
  obtain ⟨batch, hb, hstream, ⟨-, -, rfl⟩ | ⟨-, -, hins⟩⟩ := appendMany_ok h
  · exact .refl
  · refine insertBatch_grows (fun s hs => ?_) hstream hins
    obtain ⟨e, -, he⟩ := snapshotBatch_mem hb s hs
    exact ⟨e, he⟩

/-! ## Rows made from accepted events -/

/-- A row made from an accepted event. -/
def Recorded (cfg : StoreConfig) (e : DomainEvent) (row : EventRow) : Prop :=
  ∃ snap, snapshotEvent cfg e = .ok snap ∧ row = snap.row row.sequence row.globalPosition

/-- An event as it is read back: the payload in normal form. -/
def DomainEvent.normalized (e : DomainEvent) : DomainEvent :=
  { e with payload := PyJson.normalize e.payload }

/-- The checks the readers make and the writers do not. -/
def ReadableEvent (cfg : StoreConfig) (e : DomainEvent) : Prop :=
  isBlank e.eventId = false ∧ TimestampOk cfg.py e.timestamp

instance (cfg : StoreConfig) (e : DomainEvent) : Decidable (ReadableEvent cfg e) :=
  inferInstanceAs (Decidable (_ ∧ _))

/-- **A recorded row reads back as its event exactly when the identifier is not
blank and the timestamp is acceptable.** -/
theorem Recorded.reads {cfg : StoreConfig} {e : DomainEvent} {row : EventRow} {x : StoredEvent}
    (h : Recorded cfg e row) (hseq : 1 ≤ row.sequence ∧ row.sequence ≤ maxSqliteInteger)
    (hpos : 1 ≤ row.globalPosition ∧ row.globalPosition ≤ maxSqliteInteger) :
    rowToEvent cfg row = .ok x ↔
      ReadableEvent cfg e ∧ x = ⟨e.normalized, row.sequence, row.globalPosition⟩ := by
  obtain ⟨snap, hsnap, hrow⟩ := h
  obtain ⟨hevent, hdecode⟩ := snapshotEvent_ok hsnap
  have hfields : row.streamId = e.streamId ∧ row.eventType = e.eventType ∧
      row.actorId = e.actorId ∧ row.eventId = e.eventId ∧ row.timestamp = e.timestamp ∧
      row.payloadJson = snap.payloadJson ∧ row.correlationId = e.correlationId ∧
      row.causationId = e.causationId ∧ row.idempotencyKey = e.idempotencyKey := by
    rw [hrow]
    simp [EventWriteSnapshot.row, hevent]
  obtain ⟨h₁, h₂, h₃, h₄, h₅, h₆, h₇, h₈, h₉⟩ := hfields
  rw [rowToEvent_ok, h₁, h₂, h₃, h₄, h₅, h₆, h₇, h₈, h₉]
  constructor
  · rintro ⟨⟨-, hts⟩, hid, ⟨payload, e', hp, he', rfl⟩, -, -⟩
    rw [hdecode, Except.ok.injEq] at hp
    subst hp
    rw [DomainEvent.make_eq, Except.ok.injEq] at he'
    subst he'
    exact ⟨⟨hid, hts⟩, rfl⟩
  · rintro ⟨⟨hid, hts⟩, rfl⟩
    exact ⟨⟨timestampOk_nonBlank hts, hts⟩, hid,
      ⟨_, _, hdecode _, DomainEvent.make_eq e _, rfl⟩, hseq, hpos⟩

theorem readRows_forall₂ {cfg : StoreConfig} : ∀ {rows : List EventRow} {page : List StoredEvent},
    readRows cfg rows = .ok page ↔ List.Forall₂ (fun r s => rowToEvent cfg r = .ok s) rows page
  | [], page => by simp [readRows, eq_comm]
  | row :: rest, page => by
    simp only [readRows, except_bind_ok, Except.ok.injEq, @readRows_forall₂ cfg rest]
    constructor
    · rintro ⟨s, hs, stored, hstored, rfl⟩
      exact .cons hs hstored
    · rintro (_ | ⟨hs, hstored⟩)
      exact ⟨_, hs, _, hstored, rfl⟩

theorem mem_streamRows {rows : List EventRow} {streamId : String} {after : Int} {r : EventRow} :
    r ∈ streamRows rows streamId after ↔ r ∈ rows ∧ r.streamId = streamId ∧ after < r.sequence := by
  rw [streamRows, orderBy, (List.perm_insertionSort _ _).mem_iff, List.mem_filter]
  simp

/-- An append conflicts only where the log or the stream is not where it was
expected to be. -/
theorem append_conflict {cfg : StoreConfig} {e : DomainEvent} {expected : Int} {err : StoreError}
    {db db' : Db} (h : append cfg e none (some expected) db = (.error err, db'))
    (hkind : err.kind = .concurrency) (hkey : idempotentRow db.events e = none) :
    expected ≠ maxOf (·.globalPosition) db.events := by
  have hatomic : ∀ (m : DbTxn StoredEvent), Txn.atomically m db = (.error err, db') →
      ∃ db₁, m db = (.error err, db₁) := by
    intro m hm
    simp only [Txn.atomically] at hm
    rcases hrun : m db with ⟨r, db₁⟩
    rw [hrun] at hm
    cases r with
    | ok a => simp at hm
    | error e' =>
      obtain ⟨he, -⟩ := Prod.mk.inj hm
      exact ⟨db₁, by rw [he]⟩
  simp only [append, Txn.bind_error, Txn.lift_error, Txn.lift_ok] at h
  rcases h with ⟨h, -⟩ | ⟨snap, _, ⟨hsnap, rfl⟩, h⟩
  · have hcaller := snapshotEvent_error h
    simp [IsCallerError, IsJsonError, hkind] at hcaller
  · rcases h with ⟨h, -⟩ | ⟨ev, _, ⟨hev, rfl⟩, h⟩
    · simp [callerExpectedVersion] at h
    · obtain rfl := callerExpectedVersion_ok hev
      rcases h with ⟨h, -⟩ | ⟨egp, _, ⟨hegp, rfl⟩, h⟩
      · cases hx : validatePageCursor expected "expected_global_position" with
        | ok y => simp [hx, Except.map] at h
        | error e' =>
          simp only [hx, Except.map, Except.error.injEq] at h
          subst h
          have hvalue := callerSqliteIntegerFrom_error hx
          rw [hvalue] at hkind
          simp at hkind
      · have hegp' : egp = some expected := by
          cases hx : validatePageCursor expected "expected_global_position" with
          | error e' => simp [hx, Except.map] at hegp
          | ok y =>
            simp only [hx, Except.map, Except.ok.injEq] at hegp
            rw [← hegp, (callerSqliteIntegerFrom_ok.mp hx).2]
        subst hegp'
        obtain ⟨db₁, h⟩ := hatomic _ h
        have hevent := (snapshotEvent_ok hsnap).1
        have hfind : idempotentRow db.events snap.event = none := by
          rw [← hkey, hevent]
          rfl
        simp only [Txn.bind_error, Txn.pure_error, and_false, exists_false, or_false,
          appendInTransaction, Txn.query_error, Txn.query_ok, false_or] at h
        obtain ⟨found, _, ⟨hfound, rfl⟩, h⟩ := h
        rw [hfind] at hfound
        subst hfound
        simp only [Txn.bind_error, Txn.query_error, Txn.query_ok, Txn.ensure_error, Txn.ensure_ok,
          false_or, streamVersion] at h
        obtain ⟨last, _, ⟨rfl, rfl⟩, h⟩ := h
        rcases h with ⟨hne, -⟩ | ⟨_, _, ⟨-, rfl⟩, version, _, ⟨rfl, rfl⟩, h⟩
        · intro heq
          exact hne (by simp [heq])
        · rcases h with ⟨hne, -⟩ | ⟨_, _, ⟨-, rfl⟩, h⟩
          · simp at hne
          · simp only [Txn.pure_error, and_false, exists_false, or_false, insertEvent,
              Txn.bind_error, Txn.query_error, Txn.query_ok, Txn.ensure_error, Txn.ensure_ok,
              Txn.update_error, false_or] at h
            obtain ⟨rows, _, ⟨rfl, rfl⟩, ⟨-, rfl, -⟩ | ⟨_, _, ⟨-, rfl⟩, ⟨-, rfl, -⟩⟩⟩ := h
            · simp at hkind
            · simp at hkind

/-- **An accepted event under a free key is inserted**, when the log ends where
it is expected to and has a position left. -/
theorem append_inserts {cfg : StoreConfig} {e : DomainEvent} {snap : EventWriteSnapshot} {db : Db}
    (hi : LogInv db.events) (hsnap : snapshotEvent cfg e = .ok snap)
    (hkey : idempotentRow db.events e = none) (hid : ∀ r ∈ db.events, r.eventId ≠ e.eventId)
    (hmax : maxOf (·.globalPosition) db.events + 1 ≤ maxSqliteInteger) :
    ∃ stored db', append cfg e none (some (maxOf (·.globalPosition) db.events : Nat)) db =
      (.ok stored, db') := by
  have hevent := (snapshotEvent_ok hsnap).1
  have hfind : idempotentRow db.events snap.event = none := by
    rw [← hkey, hevent]
    rfl
  have hfresh : EventFresh db.events (snap.row (currentVersion db.events snap.event.streamId + 1)
      (maxOf (·.globalPosition) db.events + 1)) := by
    intro r hr
    refine ⟨?_, ?_, ?_⟩
    · simpa [EventWriteSnapshot.row, hevent] using hid r hr
    · rintro ⟨hs, hseq⟩
      have hs' : r.streamId = snap.event.streamId := hs
      have hle := @le_maxOf _ (·.sequence) _ _
        (mem_streamOf.mpr ⟨hr, hs'⟩ : r ∈ streamOf db.events snap.event.streamId)
      have hversion : maxOf (·.sequence) (streamOf db.events snap.event.streamId) =
          currentVersion db.events snap.event.streamId := rfl
      simp only [EventWriteSnapshot.row] at hseq
      omega
    · rintro ⟨hs, hsome, hkeys⟩
      have hs' : r.streamId = snap.event.streamId := hs
      have hk : r.idempotencyKey = snap.event.idempotencyKey := hkeys
      obtain ⟨key, hrkey⟩ := Option.isSome_iff_exists.mp hsome
      have hfound := hi.findKey_eq hr hrkey
      rw [idempotentRow, ← hk, hrkey] at hfind
      simp only at hfind
      rw [← hs', hfound] at hfind
      simp at hfind
  have hcursor : validatePageCursor (maxOf (·.globalPosition) db.events : Nat)
      "expected_global_position" = .ok (maxOf (·.globalPosition) db.events : Nat) :=
    callerSqliteIntegerFrom_ok.mpr ⟨⟨by omega, by omega⟩, rfl⟩
  have hins : insertEvent snap (currentVersion db.events snap.event.streamId + 1) db =
      (.ok (maxOf (·.globalPosition) db.events + 1), { db with events := db.events ++
        [snap.row (currentVersion db.events snap.event.streamId + 1)
          (maxOf (·.globalPosition) db.events + 1)] }) :=
    insertEvent_ok.mpr ⟨rfl, hmax, hfresh, rfl⟩
  have happ : ∃ stored db', appendInTransaction cfg snap none
      (some (maxOf (·.globalPosition) db.events : Nat)) db = (.ok (stored, true), db') := by
    refine ⟨⟨snap.event, currentVersion db.events snap.event.streamId + 1,
      maxOf (·.globalPosition) db.events + 1⟩, { db with events := db.events ++
        [snap.row (currentVersion db.events snap.event.streamId + 1)
          (maxOf (·.globalPosition) db.events + 1)] }, ?_⟩
    simp only [appendInTransaction, Txn.bind_ok, Txn.query_ok]
    refine ⟨none, db, ⟨hfind, rfl⟩, ?_⟩
    simp only [streamVersion, Txn.bind_ok, Txn.query_ok, Txn.ensure_ok, Txn.pure_ok]
    exact ⟨_, _, ⟨rfl, rfl⟩, (), _, ⟨by simp, rfl⟩, _, _, ⟨rfl, rfl⟩, (), _, ⟨by simp, rfl⟩, _, _, hins,
      rfl, rfl⟩
  obtain ⟨stored, db', happ⟩ := happ
  refine ⟨stored, db', ?_⟩
  simp only [append, Txn.bind_ok, Txn.lift_ok, Txn.atomically_ok, hsnap, hcursor]
  exact ⟨snap, db, ⟨rfl, rfl⟩, none, db, ⟨rfl, rfl⟩, _, db, ⟨rfl, rfl⟩, (stored, true), db', happ,
    Txn.pure_ok.mpr ⟨rfl, rfl⟩⟩

/-- **What an append that returned did, to the table.** -/
theorem append_cases {cfg : StoreConfig} {e : DomainEvent} {ev egp : Option Int}
    {stored : StoredEvent} {db db' : Db} (hi : LogInv db.events) (hread : ReadableEvent cfg e)
    (h : append cfg e ev egp db = (.ok stored, db')) :
    (∃ row, idempotentRow db.events e = some row ∧ rowToEvent cfg row = .ok stored ∧ db' = db) ∨
      (idempotentRow db.events e = none ∧ (∀ p ∈ egp, p = maxOf (·.globalPosition) db.events) ∧
        ∃ row, db' = { db with events := db.events ++ [row] } ∧
          LogGrows cfg db.events (db.events ++ [row]) ∧ rowToEvent cfg row = .ok stored ∧
          stored.event = e.normalized ∧ row.eventId = e.eventId ∧ row.streamId = e.streamId ∧
          row.idempotencyKey = e.idempotencyKey ∧
          row.globalPosition = maxOf (·.globalPosition) db.events + 1) := by
  obtain ⟨snap, inserted, hsnap, happ⟩ := append_ok h
  have hevent := (snapshotEvent_ok hsnap).1
  have hfind : idempotentRow db.events snap.event = idempotentRow db.events e := by
    rw [hevent]
    rfl
  rcases appendInTransaction_ok happ with ⟨-, hnone, hegp, -, hst, hins⟩ | ⟨-, rfl, row, hrow, hr⟩
  · have hgrow := insertEvent_grows hsnap (by rw [hst]) hins
    obtain ⟨hp, hmax, -, rfl⟩ := insertEvent_ok.mp hins
    have hi' := hgrow.inv hi
    have hmem : snap.row stored.sequence stored.globalPosition ∈
        db.events ++ [snap.row stored.sequence stored.globalPosition] := by simp
    have hreads : rowToEvent cfg (snap.row stored.sequence stored.globalPosition) =
        .ok ⟨e.normalized, stored.sequence, stored.globalPosition⟩ :=
      (Recorded.reads ⟨snap, hsnap, rfl⟩ ⟨hi'.sequence_pos hmem, hi'.sequence_range hmem⟩
        (hi'.range _ hmem)).mpr ⟨hread, rfl⟩
    have hnorm : stored.event = e.normalized := by
      rw [hst]
      exact hevent
    refine .inr ⟨hfind ▸ hnone, hegp, _, rfl, hgrow, ?_, hnorm, ?_, ?_, ?_, ?_⟩
    · rw [hreads, ← hnorm]
    · simp [EventWriteSnapshot.row, hevent]
    · simp [EventWriteSnapshot.row, hevent]
    · simp [EventWriteSnapshot.row, hevent]
    · exact hp
  · exact .inl ⟨row, hfind ▸ hrow, hr, rfl⟩

end QuantumEntanglement
