import QuantumEntanglement.Lib.TransitionSystem
import QuantumEntanglement.Store.Inbox
import QuantumEntanglement.Store.OutboxRows

/-
  Runs of the event log — any writers, any order of calls

  A label of `logSystem` is a call: `append`, `append_many`, or any other
  write, of which only what all writes share is kept: it adds rows at the end
  of the log, each made from one of its events. The writers accept an event
  whose identifier is blank, or whose timestamp no reader accepts; the row it
  leaves fails every read that covers it. Where no call of a run carries such
  an event, every read succeeds and shows the events as they were accepted.

  What is proved:
    1. `step_records` — what one call adds to the log.
    2. `readable_kept`, `run_readable` — every row of the log can be read, over
       a call and over a run.
    3. `no_poisoned_stream` — every later read of a committed event.
    4. `poisoned_stream` — a committed event that nobody can read.
-/

namespace QuantumEntanglement.Log

open Transaction TransitionSystem PyText

variable {cfg : StoreConfig}

/-! ## The system -/

/-- A call that writes to the log. -/
inductive LogCall where
  | append (event : DomainEvent) (expectedVersion expectedGlobalPosition : Option Int)
  | appendMany (streamId : String) (events : List DomainEvent) (expectedVersion : Option Int)
  | other (events : List DomainEvent)

/-- The events a call is given. -/
def LogCall.events : LogCall → List DomainEvent
  | .append event _ _ => [event]
  | .appendMany _ events _ => events
  | .other events => events

/-- Rows added at the end of the log, each made from one of these events. -/
structure Records (cfg : StoreConfig) (events : List DomainEvent) (db db' : Db) : Prop where
  grows : LogGrows cfg db.events db'.events
  made : ∀ row ∈ db'.events, row ∈ db.events ∨ ∃ e ∈ events, Recorded cfg e row

/-- What a call may do, whether it returns or raises. -/
inductive LogStep (cfg : StoreConfig) (db : Db) : LogCall → Db → Prop where
  | append {e : DomainEvent} {ev egp : Option Int} {reply : Except StoreError StoredEvent} {db' : Db} :
      append cfg e ev egp db = (reply, db') → LogStep cfg db (.append e ev egp) db'
  | appendMany {streamId : String} {es : List DomainEvent} {ev : Option Int}
      {reply : Except StoreError (List StoredEvent)} {db' : Db} :
      appendMany cfg streamId es ev db = (reply, db') → LogStep cfg db (.appendMany streamId es ev) db'
  | other {es : List DomainEvent} {db' : Db} : Records cfg es db db' → LogStep cfg db (.other es) db'

/-- The log as a system: one call at a time, by anyone. -/
def logSystem (cfg : StoreConfig) : System Db LogCall :=
  ⟨fun db => db = Db.empty, fun db call db' => LogStep cfg db call db'⟩

/-! ## What a call adds -/

theorem Records.refl (es : List DomainEvent) (db : Db) : Records cfg es db db :=
  ⟨.refl, fun _ hrow => .inl hrow⟩

theorem records_append {e : DomainEvent} {snap : EventWriteSnapshot} {ev egp : Option Int}
    {stored : StoredEvent} {inserted : Bool} {db db' : Db} (hs : snapshotEvent cfg e = .ok snap)
    (h : appendInTransaction cfg snap ev egp db = (.ok (stored, inserted), db')) :
    Records cfg [e] db db' := by
  refine ⟨appendInTransaction_grows hs h, fun row hrow => ?_⟩
  rcases appendInTransaction_ok h with ⟨-, -, -, -, -, hins⟩ | ⟨-, rfl, -⟩
  · obtain ⟨-, -, -, rfl⟩ := insertEvent_ok.mp hins
    rcases List.mem_append.mp hrow with hold | hnew
    · exact .inl hold
    · rw [List.mem_singleton] at hnew
      exact .inr ⟨e, by simp, snap, hs, by rw [hnew]; rfl⟩
  · exact .inl hrow

theorem mem_batchRows : ∀ {batch : List EventWriteSnapshot} {sequence position : Nat} {row : EventRow},
    row ∈ batchRows sequence position batch →
      ∃ snap ∈ batch, row = snap.row row.sequence row.globalPosition
  | [], _, _, _, h => by simp [batchRows] at h
  | snap :: rest, _, _, _, h => by
    rcases List.mem_cons.mp h with rfl | h
    · exact ⟨snap, by simp, rfl⟩
    · obtain ⟨s, hs, hrow⟩ := mem_batchRows h
      exact ⟨s, List.mem_cons_of_mem _ hs, hrow⟩

theorem records_appendMany {streamId : String} {es : List DomainEvent} {ev : Option Int}
    {stored : List StoredEvent} {db db' : Db} (h : appendMany cfg streamId es ev db = (.ok stored, db')) :
    Records cfg es db db' := by
  refine ⟨appendMany_grows h, fun row hrow => ?_⟩
  obtain ⟨batch, hbatch, -, ⟨-, -, rfl⟩ | ⟨-, -, hins⟩⟩ := appendMany_ok h
  · exact .inl hrow
  · obtain ⟨-, hevents, -⟩ := insertBatch_ok hins
    rw [hevents] at hrow
    rcases List.mem_append.mp hrow with hold | hnew
    · exact .inl hold
    · obtain ⟨snap, hmem, hmade⟩ := mem_batchRows hnew
      obtain ⟨e, he, hsnap⟩ := snapshotBatch_mem hbatch snap hmem
      exact .inr ⟨e, he, snap, hsnap, hmade⟩

/-- A batch that raises changed nothing. -/
theorem appendMany_restores (cfg : StoreConfig) (streamId : String) (es : List DomainEvent)
    (ev : Option Int) : Txn.Restores (appendMany cfg streamId es ev) := by
  refine .bind (by simp) fun batch => .bind (by simp) fun _ => ?_
  split
  · exact Txn.Restores.of_reads (Txn.reads_pure _)
  · exact .bind (by simp) fun _ => .atomically _

/-- **What one call adds to the log.** -/
theorem step_records {call : LogCall} {db db' : Db} (h : LogStep cfg db call db') :
    Records cfg call.events db db' := by
  cases h with
  | @append e ev egp reply _ hrun =>
    cases reply with
    | ok stored =>
      obtain ⟨snap, inserted, hsnap, happ⟩ := append_ok hrun
      exact records_append hsnap happ
    | error err =>
      rw [append_restores cfg e ev egp _ _ _ hrun]
      exact Records.refl _ _
  | @appendMany streamId es ev reply _ hrun =>
    cases reply with
    | ok stored => exact records_appendMany hrun
    | error err =>
      rw [appendMany_restores cfg streamId es ev _ _ _ hrun]
      exact Records.refl _ _
  | other hrecords => exact hrecords

/-! ## Logs that can be read -/

/-- Every row was made from an event that can be read. -/
structure Readable (cfg : StoreConfig) (rows : List EventRow) : Prop where
  inv : LogInv rows
  made : ∀ row ∈ rows, ∃ e, Recorded cfg e row ∧ ReadableEvent cfg e

theorem readable_nil (cfg : StoreConfig) : Readable cfg [] :=
  ⟨logInv_nil, fun _ hrow => absurd hrow (List.not_mem_nil)⟩

/-- **A call with readable events keeps the log readable.** -/
theorem readable_kept {es : List DomainEvent} {db db' : Db} (h : Readable cfg db.events)
    (hrecords : Records cfg es db db') (hes : ∀ e ∈ es, ReadableEvent cfg e) :
    Readable cfg db'.events := by
  refine ⟨hrecords.grows.inv h.inv, fun row hrow => ?_⟩
  rcases hrecords.made row hrow with hold | ⟨e, he, hmade⟩
  · exact h.made row hold
  · exact ⟨e, hmade, hes e he⟩

/-- **And so does a run of such calls.** -/
theorem run_readable {calls : List LogCall} {db db' : Db} (hrun : Run (logSystem cfg) db calls db')
    (h : Readable cfg db.events) (hes : ∀ c ∈ calls, ∀ e ∈ c.events, ReadableEvent cfg e) :
    Readable cfg db'.events ∧ ∀ row ∈ db.events, row ∈ db'.events := by
  induction hrun with
  | done _ => exact ⟨h, fun _ hrow => hrow⟩
  | next hs _ ih =>
    have hrecords := step_records hs
    obtain ⟨hlast, hmem⟩ := ih (readable_kept h hrecords (hes _ (by simp)))
      (fun c hc => hes c (List.mem_cons_of_mem _ hc))
    exact ⟨hlast, fun row hrow => hmem row (hrecords.grows.mem hrow)⟩

/-- An event as a reader shows it. -/
def shown (e : DomainEvent) (row : EventRow) : StoredEvent :=
  ⟨e.normalized, row.sequence, row.globalPosition⟩

namespace Readable

variable {rows : List EventRow} {e : DomainEvent} {row : EventRow}

/-- A row of a readable log shows the event it was made from, whichever of the
events it may have been made from is meant. -/
theorem reads (h : Readable cfg rows) (hrow : row ∈ rows) (hmade : Recorded cfg e row) :
    rowToEvent cfg row = .ok (shown e row) := by
  have hseq := And.intro (h.inv.sequence_pos hrow) (h.inv.sequence_range hrow)
  have hpos := h.inv.range row hrow
  obtain ⟨e', hmade', hread'⟩ := h.made row hrow
  have hok := (hmade'.reads hseq hpos).mpr ⟨hread', rfl⟩
  obtain ⟨-, hsame⟩ := (hmade.reads hseq hpos).mp hok
  rw [hok, hsame]
  rfl

theorem readRows (h : Readable cfg rows) : ∀ {query : List EventRow}, (∀ r ∈ query, r ∈ rows) →
    ∃ xs, readRows cfg query = .ok xs ∧
      ∀ r ∈ query, ∀ e, Recorded cfg e r → shown e r ∈ xs
  | [], _ => ⟨[], rfl, by simp⟩
  | row :: rest, hsub => by
    obtain ⟨e, hmade, -⟩ := h.made row (hsub row (by simp))
    have hfirst := h.reads (hsub row (by simp)) hmade
    obtain ⟨xs, hrest, hshown⟩ := h.readRows (fun r hr => hsub r (List.mem_cons_of_mem _ hr))
    refine ⟨shown e row :: xs, ?_, ?_⟩
    · simp only [QuantumEntanglement.readRows, except_bind_ok, Except.ok.injEq]
      exact ⟨_, hfirst, _, hrest, rfl⟩
    · intro r hr e' hmade'
      rcases List.mem_cons.mp hr with rfl | hr
      · have hsame := (h.reads (hsub r (by simp)) hmade').symm.trans hfirst
        rw [Except.ok.inj hsame]
        exact List.mem_cons_self
      · exact List.mem_cons_of_mem _ (hshown r hr e' hmade')

end Readable

theorem callerExpectedVersion_of {ev : Option Int}
    (h : ∀ v ∈ ev, -(maxSqliteInteger : Int) - 1 ≤ v ∧ v ≤ maxSqliteInteger) :
    callerExpectedVersion ev = .ok ev := by
  cases ev with
  | none => rfl
  | some v =>
    have hv : callerSqliteInteger v "expected_version" = .ok v :=
      callerSqliteInteger_ok.mpr ⟨h v rfl, rfl⟩
    simp only [callerExpectedVersion, hv, Except.map]

/-- Every read that covers the row of an event returns, changes nothing and
shows the event. -/
structure ReadsBack (cfg : StoreConfig) (db : Db) (e : DomainEvent) (row : EventRow) : Prop where
  stream : ∀ after : Int, -(maxSqliteInteger : Int) - 1 ≤ after ∧ after ≤ maxSqliteInteger →
    ∃ xs, readStream cfg e.streamId after db = (.ok xs, db) ∧
      (after < row.sequence → shown e row ∈ xs)
  page : ∀ after limit : Int, 0 ≤ after ∧ after ≤ maxSqliteInteger → 1 ≤ limit ∧ limit ≤ 1000 →
    ∃ xs, readStreamPage cfg e.streamId after limit db = (.ok xs, db) ∧
      (row ∈ (streamRows db.events e.streamId after).take limit.toNat → shown e row ∈ xs)
  all : ∀ after limit : Int, 0 ≤ after ∧ after ≤ maxSqliteInteger → 1 ≤ limit ∧ limit ≤ 1000 →
    ∃ xs, readAll cfg after limit db = (.ok xs, db) ∧
      (row ∈ (orderBy (·.globalPosition)
        (db.events.filter (fun r => after < r.globalPosition))).take limit.toNat → shown e row ∈ xs)
  key : ∀ key, e.idempotencyKey = some key → isBlank key = false →
    getIdempotentEvent cfg e.streamId key db = (.ok (some (shown e row)), db)
  retry : ∀ key, e.idempotencyKey = some key → ∀ (again : DomainEvent) (snap : EventWriteSnapshot),
    snapshotEvent cfg again = .ok snap → again.streamId = e.streamId →
    again.idempotencyKey = some key → ∀ ev egp : Option Int,
    (∀ v ∈ ev, -(maxSqliteInteger : Int) - 1 ≤ v ∧ v ≤ maxSqliteInteger) →
    (∀ p ∈ egp, 0 ≤ p ∧ p ≤ maxSqliteInteger) →
      append cfg again ev egp db = (.ok (shown e row), db)

/-- An append under a key that is taken answers from its row. -/
theorem append_hit {e : DomainEvent} {snap : EventWriteSnapshot} {ev egp : Option Int}
    {row : EventRow} {stored : StoredEvent} {db : Db} (hs : snapshotEvent cfg e = .ok snap)
    (hev : ∀ v ∈ ev, -(maxSqliteInteger : Int) - 1 ≤ v ∧ v ≤ maxSqliteInteger)
    (hegp : ∀ p ∈ egp, 0 ≤ p ∧ p ≤ maxSqliteInteger)
    (hrow : idempotentRow db.events e = some row) (hread : rowToEvent cfg row = .ok stored) :
    append cfg e ev egp db = (.ok stored, db) := by
  have hfind : idempotentRow db.events snap.event = some row := by
    rw [← hrow, (snapshotEvent_ok hs).1]
    rfl
  have happ : appendInTransaction cfg snap ev egp db = (.ok (stored, false), db) := by
    simp only [appendInTransaction, Txn.bind_ok, Txn.query_ok]
    refine ⟨some row, db, ⟨hfind, rfl⟩, ?_⟩
    simp only [Txn.bind_ok, Txn.lift_ok, Txn.pure_ok]
    exact ⟨stored, db, ⟨hread, rfl⟩, rfl, rfl⟩
  simp only [append, Txn.bind_ok, Txn.lift_ok, Txn.atomically_ok, hs, callerExpectedVersion_of hev]
  refine ⟨snap, db, ⟨rfl, rfl⟩, ev, db, ⟨rfl, rfl⟩, egp, db, ⟨?_, rfl⟩, (stored, false), db, happ,
    Txn.pure_ok.mpr ⟨rfl, rfl⟩⟩
  cases egp with
  | none => rfl
  | some p =>
    have hp : validatePageCursor p "expected_global_position" = .ok p :=
      callerSqliteIntegerFrom_ok.mpr ⟨by simpa using hegp p rfl, rfl⟩
    simp only [hp, Except.map]

/-- **In a readable log every event reads back.** -/
theorem Readable.readsBack {db : Db} {e : DomainEvent} {row : EventRow}
    (h : Readable cfg db.events) (hrow : row ∈ db.events) (hmade : Recorded cfg e row) :
    ReadsBack cfg db e row := by
  have hread := h.reads hrow hmade
  obtain ⟨snap, hsnap, hcolumns⟩ := hmade
  have hevent := (snapshotEvent_ok hsnap).1
  have hkey : row.streamId = e.streamId ∧ row.idempotencyKey = e.idempotencyKey := by
    rw [hcolumns]
    simp [EventWriteSnapshot.row, hevent]
  have hfind : ∀ key, e.idempotencyKey = some key → findKey db.events e.streamId key = some row := by
    intro key hk
    rw [← hkey.1]
    exact h.inv.findKey_eq hrow (hkey.2.trans hk)
  have hmade : Recorded cfg e row := ⟨snap, hsnap, hcolumns⟩
  constructor
  · intro after hafter
    obtain ⟨xs, hxs, hshown⟩ := h.readRows (fun r hr => (mem_streamRows.mp hr).1)
    refine ⟨xs, ?_, fun hlt => hshown row (mem_streamRows.mpr ⟨hrow, hkey.1, hlt⟩) e hmade⟩
    simp only [readStream, Txn.bind_ok, Txn.lift_ok, Txn.query_ok]
    exact ⟨after, db, ⟨callerSqliteInteger_ok.mpr ⟨hafter, rfl⟩, rfl⟩, _, db, ⟨rfl, rfl⟩, hxs, rfl⟩
  · intro after limit hafter hlimit
    obtain ⟨xs, hxs, hshown⟩ := h.readRows
      (fun r hr => (mem_streamRows.mp (List.mem_of_mem_take hr)).1)
    refine ⟨xs, ?_, fun hmem => hshown row hmem e hmade⟩
    simp only [readStreamPage, Txn.bind_ok, Txn.lift_ok, Txn.query_ok]
    exact ⟨e.streamId, db, ⟨callerText_ok.mpr ⟨fun _ => e.nonBlank.1, rfl⟩, rfl⟩, after, db,
      ⟨callerSqliteIntegerFrom_ok.mpr ⟨by simpa using hafter, rfl⟩, rfl⟩, limit.toNat, db,
      ⟨by rw [validatePageLimit, if_pos hlimit], rfl⟩, _, db, ⟨rfl, rfl⟩, hxs, rfl⟩
  · intro after limit hafter hlimit
    obtain ⟨xs, hxs, hshown⟩ := h.readRows
      (fun r hr => (List.mem_filter.mp (mem_orderBy.mp (List.mem_of_mem_take hr))).1)
    refine ⟨xs, ?_, fun hmem => hshown row hmem e hmade⟩
    simp only [readAll, Txn.bind_ok, Txn.lift_ok, Txn.query_ok]
    exact ⟨after, db, ⟨callerSqliteIntegerFrom_ok.mpr ⟨by simpa using hafter, rfl⟩, rfl⟩,
      limit.toNat, db, ⟨by rw [validatePageLimit, if_pos hlimit], rfl⟩, _, db, ⟨rfl, rfl⟩, hxs, rfl⟩
  · intro key hk hblank
    rw [getIdempotentEvent_eq cfg db e.nonBlank.1 hblank, hfind key hk, Option.elim_some, hread]
    rfl
  · intro key hk again snap' hsnap' hstream hagain ev egp hev hegp
    refine append_hit hsnap' hev hegp ?_ hread
    rw [idempotentRow, hagain, hstream]
    exact hfind key hk

/-! ## No poisoned stream -/

/-- **Where no call of a run carries an event that cannot be read, every later
read that covers a committed event succeeds and returns it.** -/
theorem no_poisoned_stream {before after : List LogCall} {call : LogCall} {db db₁ db₂ : Db}
    (hbefore : Run (logSystem cfg) Db.empty before db) (hcall : LogStep cfg db call db₁)
    (hafter : Run (logSystem cfg) db₁ after db₂)
    (hreadable : ∀ c ∈ before ++ call :: after, ∀ e ∈ c.events, ReadableEvent cfg e) :
    ∀ row ∈ db₁.events, row ∉ db.events →
      ∃ e ∈ call.events, Recorded cfg e row ∧ row ∈ db₂.events ∧ ReadsBack cfg db₂ e row := by
  intro row hrow hnew
  have hfirst := (run_readable hbefore (readable_nil cfg)
    (fun c hc => hreadable c (List.mem_append_left _ hc))).1
  have hrecords := step_records hcall
  have hsecond := readable_kept hfirst hrecords (hreadable call (by simp))
  obtain ⟨hlast, hkept⟩ := run_readable hafter hsecond
    (fun c hc => hreadable c (List.mem_append_right _ (List.mem_cons_of_mem _ hc)))
  obtain ⟨e, he, hmade⟩ := (hrecords.made row hrow).resolve_left hnew
  exact ⟨e, he, hmade, hkept row hrow, hlast.readsBack (hkept row hrow) hmade⟩

namespace Sample

def config : StoreConfig := ⟨1000, .py311⟩

/-- An event under a given identifier. -/
def event (eventId : String) : DomainEvent :=
  ⟨"session:s", "task.created", .dict [], "orchestrator", eventId, "2024-01-01T00:00:00+00:00", none,
    none, some "key", rfl⟩

def row (eventId : String) : EventRow :=
  ⟨1, "session:s", 1, eventId, "task.created", "orchestrator", "2024-01-01T00:00:00+00:00",
    "\x7b\x7d", none, none, some "key"⟩

def left (eventId : String) : Db := { Db.empty with events := [row eventId] }

theorem append_left : append config (event "evt-1") none none Db.empty =
    (.ok ⟨event "evt-1", 1, 1⟩, left "evt-1") := by rfl

end Sample

open Sample

theorem no_poisoned_stream_one :
    ∃ e ∈ [Sample.event "evt-1"], Recorded Sample.config e (Sample.row "evt-1") ∧
      Sample.row "evt-1" ∈ (left "evt-1").events ∧
      ReadsBack Sample.config (left "evt-1") e (Sample.row "evt-1") :=
  @no_poisoned_stream _ [] [] _ _ _ _ (.done Db.empty) (.append append_left) (.done _)
    (by
      intro c hc e he
      rw [List.nil_append, List.mem_singleton] at hc
      subst hc
      rw [LogCall.events, List.mem_singleton] at he
      subst he
      decide)
    (Sample.row "evt-1") (List.mem_singleton.mpr rfl) List.not_mem_nil

/-- **A blank identifier poisons the stream**: the event is accepted and
committed, and no later read or retry that covers it returns. -/
theorem poisoned_stream :
    append Sample.config (Sample.event "") none none Db.empty = (.ok ⟨Sample.event "", 1, 1⟩, left "") ∧
      (readStream Sample.config "session:s" 0 (left "")).1.isOk = false ∧
      (readAll Sample.config 0 10 (left "")).1.isOk = false ∧
      (append Sample.config (Sample.event "") none none (left "")).1.isOk = false := by
  refine ⟨by rfl, by rfl, by rfl, by rfl⟩

end QuantumEntanglement.Log
