import QuantumEntanglement.Store.Outbox

/-
  Outbox rows — what a readable row is, and what each operation did

  `rowToOutbox` is the reader every delivery goes through; `OutboxReadable`
  says which rows it accepts. The `_ok` theorems take an operation that
  returned apart: what it found, and which rows it changed into what.

  What is proved:
    1. `rowToOutbox_ok` — a row reads exactly when it is `OutboxReadable`, and
       then as its own columns.
    2. `insertOutbox_ok`, `enqueue_ok`, `appendWithOutbox_ok` — enqueueing adds
       waiting rows at the end, one for each message.
    3. `claimRow_ok`, `claimOutbox_ok` — a claim turns the rows it selected
       into leased ones and reads them back.
    4. `acknowledgeOutbox_ok`, `rejectOutbox_ok`, `markOutboxAmbiguous_ok`,
       `resolveOutboxAmbiguity_ok`.
-/

namespace QuantumEntanglement

open Transaction PyJson PyText IsoTime Sha256

/-! ## Reading a row -/

/-- A timestamp column that may be NULL, as the reader wants it. -/
def OptionalTimestampOk (py : PyVersion) (value : Option String) : Prop :=
  ∀ text, value = some text → TimestampOk py text

/-- The rows `rowToOutbox` accepts. -/
structure OutboxReadable (cfg : StoreConfig) (row : OutboxRow) : Prop where
  availableAt : TimestampOk cfg.py row.availableAt
  createdAt : TimestampOk cfg.py row.createdAt
  leaseExpiresAt : OptionalTimestampOk cfg.py row.leaseExpiresAt
  publishedAt : OptionalTimestampOk cfg.py row.publishedAt
  texts : isBlank row.destination = false ∧ isBlank row.messageId = false ∧
    isBlank row.idempotencyKey = false ∧ isBlank row.triggeringEventId = false
  payload : ∃ v, decodeJsonObject cfg.maxJsonBytes row.payloadJson "outbox payload" = .ok v
  headers : ∃ v, decodeJsonObject cfg.maxJsonBytes row.headersJson "outbox headers" = .ok v
  position : 1 ≤ row.triggeringGlobalPosition ∧ row.triggeringGlobalPosition ≤ maxSqliteInteger
  attempts : row.attemptCount ≤ maxSqliteInteger

/-- A message that shows the columns of a row. -/
structure ShowsRow {py : PyVersion} (m : StoredOutboxMessage py) (row : OutboxRow) : Prop where
  messageId : m.message.messageId = row.messageId
  destination : m.message.destination = row.destination
  idempotencyKey : m.message.idempotencyKey = row.idempotencyKey
  availableAt : m.message.availableAt = row.availableAt
  createdAt : m.message.createdAt = row.createdAt
  trigger : m.triggeringEventId = row.triggeringEventId ∧
    m.triggeringGlobalPosition = row.triggeringGlobalPosition
  status : m.status = row.status
  attemptCount : m.attemptCount = row.attemptCount
  leaseToken : m.leaseToken = row.leaseToken
  leaseExpiresAt : m.leaseExpiresAt = row.leaseExpiresAt
  lastError : m.lastError = row.lastError
  publishedAt : m.publishedAt = row.publishedAt

theorem checkOptionalTimestamp_ok {py : PyVersion} {value : Option String} {field : String}
    {u : Unit} : checkOptionalTimestamp py value field = .ok u ↔ OptionalTimestampOk py value := by
  unfold checkOptionalTimestamp OptionalTimestampOk
  cases value with
  | none => simp
  | some text =>
    simp only [except_bind_ok, and_true, Option.some.injEq, forall_eq']
    exact normalizeTimestamp_accepts

theorem rowToOutbox_inversion {cfg : StoreConfig} {row : OutboxRow}
    {m : StoredOutboxMessage cfg.py} (h : rowToOutbox cfg row = .ok m) :
    OutboxReadable cfg row ∧ ShowsRow m row := by
  simp only [rowToOutbox, asMalformed_ok, except_bind_ok, persistedText_ok, persistedInteger_ok,
    checkOptionalTimestamp_ok, OutboxMessage.make_ok, Except.ok.injEq, true_implies] at h
  obtain ⟨_, ⟨-, rfl⟩, _, ⟨-, rfl⟩, _, hav, _, hcr, _, hlease, _, hpub, _, ⟨hdest, rfl⟩, payload,
    hpayload, headers, hheaders, _, ⟨hid, rfl⟩, _, ⟨hkey, rfl⟩, _, ⟨hacc, rfl⟩, _, ⟨hev, rfl⟩, _,
    ⟨hpos, rfl⟩, _, ⟨hatt, rfl⟩, rfl⟩ := h
  exact ⟨⟨normalizeTimestamp_accepts.mp ⟨_, hav⟩, normalizeTimestamp_accepts.mp ⟨_, hcr⟩, hlease, hpub,
    ⟨hdest, hid, hkey, hev⟩, ⟨payload, hpayload⟩, ⟨headers, hheaders⟩, hpos, hatt.2⟩,
    ⟨rfl, rfl, rfl, rfl, rfl, ⟨rfl, rfl⟩, rfl, rfl, rfl, rfl, rfl, rfl⟩⟩

/-- **A row reads exactly when it is readable.** -/
theorem rowToOutbox_ok {cfg : StoreConfig} {row : OutboxRow} :
    (∃ m, rowToOutbox cfg row = .ok m) ↔ OutboxReadable cfg row := by
  constructor
  · rintro ⟨m, h⟩
    exact (rowToOutbox_inversion h).1
  · intro h
    obtain ⟨hdest, hid, hkey, hev⟩ := h.texts
    obtain ⟨payload, hpayload⟩ := h.payload
    obtain ⟨headers, hheaders⟩ := h.headers
    obtain ⟨_, hav⟩ := normalizeTimestamp_accepts.mpr h.availableAt
    obtain ⟨_, hcr⟩ := normalizeTimestamp_accepts.mpr h.createdAt
    have hacc : checkMessage cfg.py row.destination row.messageId row.idempotencyKey row.availableAt
        row.createdAt = .ok () :=
      checkMessage_ok.mpr ⟨⟨hdest, hid, hkey⟩, h.availableAt.hasZone, h.createdAt.hasZone⟩
    simp only [rowToOutbox, asMalformed_ok, except_bind_ok, persistedText_ok, persistedInteger_ok,
      checkOptionalTimestamp_ok, OutboxMessage.make_ok, Except.ok.injEq, true_implies]
    exact ⟨_, _, ⟨timestampOk_nonBlank h.availableAt, rfl⟩, _, ⟨timestampOk_nonBlank h.createdAt, rfl⟩,
      _, hav, _, hcr, (), h.leaseExpiresAt, (), h.publishedAt, _, ⟨hdest, rfl⟩, payload, hpayload,
      headers, hheaders, _, ⟨hid, rfl⟩, _, ⟨hkey, rfl⟩, _, ⟨hacc, rfl⟩, _, ⟨hev, rfl⟩, _,
      ⟨h.position, rfl⟩, _, ⟨⟨Nat.zero_le _, h.attempts⟩, rfl⟩, rfl⟩

theorem readOutboxRows_ok {cfg : StoreConfig} {rows : List OutboxRow}
    {ms : List (StoredOutboxMessage cfg.py)} (h : readOutboxRows cfg rows = .ok ms) :
    ∀ r ∈ rows, OutboxReadable cfg r := by
  induction rows generalizing ms with
  | nil => simp
  | cons row rest ih =>
    simp only [readOutboxRows, except_bind_ok] at h
    obtain ⟨m, hm, more, hmore, -⟩ := h
    intro r hr
    rcases List.mem_cons.mp hr with rfl | hr
    · exact (rowToOutbox_inversion hm).1
    · exact ih hmore r hr

/-! ## Selecting and updating rows -/

theorem mem_orderBy {α : Type} {column : α → Nat} {rows : List α} {r : α} :
    r ∈ orderBy column rows ↔ r ∈ rows := by
  rw [orderBy]
  exact (List.perm_insertionSort _ rows).mem_iff

theorem findOutbox_some {rows : List OutboxRow} {m : String} {r : OutboxRow}
    (h : findOutbox rows m = some r) : r ∈ rows ∧ r.messageId = m := by
  have hp := List.find?_some h
  exact ⟨List.mem_of_find?_eq_some h, by simpa using hp⟩

/-- With identifiers that occur once, a row is found under its own. -/
theorem findOutbox_of_mem {rows : List OutboxRow} {r : OutboxRow}
    (hids : rows.Pairwise (fun a b => a.messageId ≠ b.messageId)) (hr : r ∈ rows) :
    findOutbox rows r.messageId = some r := by
  induction rows with
  | nil => simp at hr
  | cons q rest ih =>
    obtain ⟨hq, hrest⟩ := List.pairwise_cons.mp hids
    rcases List.mem_cons.mp hr with rfl | hr
    · simp [findOutbox]
    · have hne := hq r hr
      simp only [findOutbox, List.find?_cons, hne, decide_false]
      exact ih hrest hr

/-- An update that keeps identifiers is seen row by row. -/
theorem findOutbox_updateWhere {p : OutboxRow → Bool} {f : OutboxRow → OutboxRow}
    (hf : ∀ r, (f r).messageId = r.messageId) (rows : List OutboxRow) (m : String) :
    findOutbox (updateWhere p f rows) m =
      (findOutbox rows m).map (fun r => if p r then f r else r) := by
  induction rows with
  | nil => rfl
  | cons r rest ih =>
    have hid : (if p r then f r else r).messageId = r.messageId := by
      split
      · exact hf r
      · rfl
    simp only [findOutbox, updateWhere, List.map_cons, List.find?_cons, hid] at ih ⊢
    cases hm : decide (r.messageId = m) with
    | true => rfl
    | false => exact ih

theorem findOutbox_append (rows new : List OutboxRow) (m : String) :
    findOutbox (rows ++ new) m = (findOutbox rows m).or (findOutbox new m) := by
  simp [findOutbox, List.find?_append]

theorem updateOutbox_ok {p : Db → OutboxRow → Bool} {f : OutboxRow → OutboxRow} {n : Nat}
    {db db' : Db} :
    updateOutbox p f db = (.ok n, db') ↔
      n = db.outbox.countP (p db) ∧ db' = { db with outbox := updateWhere (p db) f db.outbox } := by
  simp only [updateOutbox, Txn.bind_ok, Txn.query_ok, Txn.update_ok, Txn.pure_ok]
  constructor
  · rintro ⟨_, _, ⟨rfl, rfl⟩, _, _, rfl, rfl, rfl⟩
    exact ⟨rfl, rfl⟩
  · rintro ⟨rfl, rfl⟩
    exact ⟨_, _, ⟨rfl, rfl⟩, (), _, rfl, rfl, rfl⟩

/-! ## Enqueueing -/

theorem insertOutbox_ok {py : PyVersion} {stored : StoredEvent} {snap : OutboxWriteSnapshot py}
    {u : Unit} {db db' : Db} (h : insertOutbox stored snap db = (.ok u, db')) :
    ∃ position, OutboxFresh db.outbox (snap.row stored position) ∧
      db' = { db with outbox := db.outbox ++ [snap.row stored position] } := by
  simp only [insertOutbox, Txn.bind_ok, Txn.query_ok, Txn.ensure_ok, Txn.update_ok] at h
  obtain ⟨_, _, ⟨rfl, rfl⟩, _, _, ⟨-, rfl⟩, _, _, ⟨hfresh, rfl⟩, rfl⟩ := h
  exact ⟨_, hfresh, rfl⟩

/-- A new row: waiting, never claimed, for the event that caused it. -/
structure NewRow (stored : StoredEvent) (row : OutboxRow) : Prop where
  status : row.status = .pending
  attempts : row.attemptCount = 0
  noLease : row.leaseToken = none ∧ row.leaseExpiresAt = none
  trigger : row.triggeringGlobalPosition = stored.globalPosition

/-- The rows of one enqueue: one for each message, under fresh identifiers. -/
theorem enqueue_ok {py : PyVersion} {stored : StoredEvent} {batch : List (OutboxWriteSnapshot py)}
    {us : List Unit} {db db' : Db}
    (hids : db.outbox.Pairwise (fun a b => a.messageId ≠ b.messageId))
    (h : Txn.forEach (insertOutbox stored) batch db = (.ok us, db')) :
    ∃ new, db' = { db with outbox := db.outbox ++ new } ∧ (∀ r ∈ new, NewRow stored r) ∧
      (db.outbox ++ new).Pairwise (fun a b => a.messageId ≠ b.messageId) ∧
      (∀ snap ∈ batch, ∃ r ∈ new, r.messageId = snap.message.messageId ∧
        r.availableAt = snap.message.availableAt) := by
  induction batch generalizing us db with
  | nil =>
    obtain ⟨-, rfl⟩ := Txn.forEach_nil_ok.mp h
    exact ⟨[], by simp, by simp, by simpa using hids, by simp⟩
  | cons snap rest ih =>
    obtain ⟨_, db₁, _, hone, hrest, -⟩ := Txn.forEach_cons_ok.mp h
    obtain ⟨position, hfresh, rfl⟩ := insertOutbox_ok hone
    have hids₁ : (db.outbox ++ [snap.row stored position]).Pairwise
        (fun a b => a.messageId ≠ b.messageId) := by
      refine List.pairwise_append.mpr ⟨hids, List.pairwise_singleton _ _, fun a ha b hb => ?_⟩
      rw [List.mem_singleton] at hb
      rw [hb]
      exact (hfresh a ha).1
    obtain ⟨new, rfl, hnew, hpair, hbatch⟩ := ih hids₁ hrest
    refine ⟨snap.row stored position :: new, by simp, ?_, by simpa using hpair, ?_⟩
    · intro r hr
      rcases List.mem_cons.mp hr with rfl | hr
      · exact ⟨rfl, rfl, ⟨rfl, rfl⟩, rfl⟩
      · exact hnew r hr
    · intro s hs
      rcases List.mem_cons.mp hs with rfl | hs
      · exact ⟨_, List.mem_cons_self, rfl, rfl⟩
      · obtain ⟨r, hr, hid⟩ := hbatch s hs
        exact ⟨r, List.mem_cons_of_mem _ hr, hid⟩

theorem snapshotOutboxMessage_ok {cfg : StoreConfig} {m : OutboxMessage cfg.py}
    {snap : OutboxWriteSnapshot cfg.py} (h : snapshotOutboxMessage cfg m = .ok snap) :
    snap.message = { m with payload := PyJson.normalize m.payload, headers := PyJson.normalize m.headers } := by
  simp only [snapshotOutboxMessage, except_bind_ok, callerText_ok, Except.ok.injEq] at h
  obtain ⟨_, ⟨-, rfl⟩, _, ⟨-, rfl⟩, _, ⟨-, rfl⟩, _, ⟨-, rfl⟩, _, ⟨-, rfl⟩, payload, hpayload, headers,
    hheaders, message, hmessage, rfl⟩ := h
  rw [OutboxMessage.make_eq, Except.ok.injEq] at hmessage
  rw [← hmessage, (snapshotJsonObject_ok hpayload).2, (snapshotJsonObject_ok hheaders).2]

theorem snapshotMessages_mem {cfg : StoreConfig} {ms : List (OutboxMessage cfg.py)}
    {batch : List (OutboxWriteSnapshot cfg.py)} (h : snapshotMessages cfg ms = .ok batch) :
    ∀ m ∈ ms, ∃ s ∈ batch, snapshotOutboxMessage cfg m = .ok s := by
  induction ms generalizing batch with
  | nil => simp
  | cons m rest ih =>
    simp only [snapshotMessages, except_bind_ok, Except.ok.injEq] at h
    obtain ⟨s, hs, ss, hss, rfl⟩ := h
    intro x hx
    rcases List.mem_cons.mp hx with rfl | hx
    · exact ⟨s, by simp, hs⟩
    · obtain ⟨s', hs', hx'⟩ := ih hss x hx
      exact ⟨s', List.mem_cons_of_mem _ hs', hx'⟩

/-- A call inserted its event and one waiting row for each message, all of
them readable, or replayed an event and changed nothing. -/
theorem appendWithOutbox_ok {cfg : StoreConfig} {event : DomainEvent}
    {messages : List (OutboxMessage cfg.py)} {ev : Option Int}
    {reply : StoredEvent × List (StoredOutboxMessage cfg.py)} {db db' : Db}
    (hids : db.outbox.Pairwise (fun a b => a.messageId ≠ b.messageId))
    (h : appendWithOutbox cfg event messages ev db = (.ok reply, db')) :
    ∃ snap inserted db₁, snapshotEvent cfg event = .ok snap ∧
      appendInTransaction cfg snap ev none db = (.ok (reply.1, inserted), db₁) ∧
      ((inserted = false ∧ db' = db) ∨
        (inserted = true ∧ ∃ new, db' = { db with events := db₁.events, outbox := db.outbox ++ new } ∧
          (∀ r ∈ new, NewRow reply.1 r ∧ OutboxReadable cfg r) ∧
          (db.outbox ++ new).Pairwise (fun a b => a.messageId ≠ b.messageId) ∧
          ∀ m ∈ messages, ∃ r ∈ new, r.messageId = m.messageId ∧ r.availableAt = m.availableAt)) := by
  simp only [appendWithOutbox, Txn.bind_ok, Txn.lift_ok, Txn.atomically_ok] at h
  obtain ⟨snap, _, ⟨hsnap, rfl⟩, batch, _, ⟨hbatch, rfl⟩, version, _, ⟨hv, rfl⟩, ⟨stored, inserted⟩,
    db₁, happ, h⟩ := h
  obtain rfl := callerExpectedVersion_ok hv
  rcases appendInTransaction_ok happ with ⟨rfl, -, -, -, -, hins⟩ | ⟨rfl, rfl, -⟩
  · obtain ⟨-, -, -, hdb₁⟩ := insertEvent_ok.mp hins
    simp only [if_true, Txn.bind_ok, Txn.query_ok, Txn.lift_ok, Txn.pure_ok] at h
    obtain ⟨us, db₂, henqueue, _, _, ⟨rfl, rfl⟩, linked, _, ⟨hread, rfl⟩, rfl, rfl⟩ := h
    have hsame : db₁.outbox = db.outbox := by rw [hdb₁]
    obtain ⟨new, rfl, hnew, hpair, hall⟩ := enqueue_ok (by rw [hsame]; exact hids) henqueue
    rw [hsame] at hpair hread
    refine ⟨snap, true, db₁, hsnap, happ, .inr ⟨rfl, new, by rw [hsame, hdb₁], fun r hr => ?_, hpair,
      fun m hm => ?_⟩⟩
    · refine ⟨hnew r hr, readOutboxRows_ok hread r ?_⟩
      rw [triggeredRows, mem_orderBy]
      simp [hr, (hnew r hr).trigger]
    · obtain ⟨s, hs, hsm⟩ := snapshotMessages_mem hbatch m hm
      obtain ⟨r, hr, hid, hav⟩ := hall s hs
      rw [snapshotOutboxMessage_ok hsm] at hid hav
      exact ⟨r, hr, hid, hav⟩
  · simp only [Bool.false_eq_true, if_false, Txn.bind_ok, Txn.query_ok, Txn.lift_ok, Txn.ensure_ok,
      Txn.pure_ok] at h
    obtain ⟨_, _, ⟨rfl, rfl⟩, existing, _, ⟨-, rfl⟩, _, _, ⟨-, rfl⟩, rfl, rfl⟩ := h
    exact ⟨snap, false, _, hsnap, happ, .inl ⟨rfl, rfl⟩⟩

/-! ## Delivery -/

variable [SqliteTime]

/-- A clock text that was accepted is the text of its moment. -/
theorem normalizeTimestamp_moment {py : PyVersion} {value field text : String}
    (h : normalizeTimestamp py value field = .ok text) :
    ∃ m, InRange m ∧ timestampMoment py value field = .ok m ∧ text = momentText m := by
  obtain ⟨m, hm, rfl⟩ := normalizeTimestamp_ok.mp h
  obtain ⟨r, o, -, -, hin, rfl⟩ := timestampMoment_ok.mp hm
  exact ⟨_, hin, hm, rfl⟩

theorem timestampMoment_momentText {py : PyVersion} {m : Int} (h : InRange m) (field : String) :
    timestampMoment py (momentText m) field = .ok m := by
  have hm := momentReading_moment h
  exact timestampMoment_ok.mpr ⟨momentReading m, 0, readTimestamp_momentText h, rfl,
    by rwa [hm], hm.symm⟩

theorem julianday_momentText {m : Int} (h : InRange m) : julianday (momentText m) = some (SqliteTime.keep m) :=
  julianday_isoformat h

theorem leaseDeadline_ok {py : PyVersion} {m : Int} (hm : InRange m) {lease : Nat} {text : String} :
    leaseDeadline py (momentText m) lease = .ok text ↔
      InRange (m + lease) ∧ text = momentText (m + lease) := by
  simp only [leaseDeadline, except_bind_ok, timestampMoment_momentText hm, Except.ok.injEq,
    exists_eq_left']
  split
  next h => simp [h, eq_comm]
  next h => simp [h]

theorem claimRow_ok {cfg : StoreConfig} {workerId expiry suffix : String} {row : OutboxRow}
    {m : StoredOutboxMessage cfg.py} {db db' : Db} :
    claimRow cfg workerId expiry suffix row db = (.ok m, db') ↔
      (isBlank row.messageId = false ∧ isBlank ("lease_" ++ suffix) = false) ∧
      db' = { db with
        outbox := updateWhere (fun r => r.messageId = row.messageId)
          (·.leased (leaseTokenOf workerId suffix) expiry) db.outbox } ∧
      ∃ updated, findOutbox db'.outbox row.messageId = some updated ∧
        rowToOutbox cfg updated = .ok m := by
  simp only [claimRow, Txn.bind_ok, Txn.lift_ok, Txn.ensure_ok, Txn.update_ok, Txn.query_ok,
    persistedText_ok, true_implies]
  constructor
  · rintro ⟨_, _, ⟨⟨hid, rfl⟩, rfl⟩, _, _, ⟨hlease, rfl⟩, _, _, rfl, found, _, ⟨hfound, rfl⟩, h⟩
    cases found with
    | none => simp at h
    | some updated =>
      obtain ⟨hread, rfl⟩ := Txn.lift_ok.mp h
      exact ⟨⟨hid, hlease⟩, rfl, updated, hfound, hread⟩
  · rintro ⟨⟨hid, hlease⟩, rfl, updated, hfound, hread⟩
    exact ⟨_, _, ⟨⟨hid, rfl⟩, rfl⟩, (), _, ⟨hlease, rfl⟩, (), _, rfl, some updated, _, ⟨hfound, rfl⟩,
      Txn.lift_ok.mpr ⟨hread, rfl⟩⟩

theorem claimOutbox_ok {cfg : StoreConfig} {workerId : String} {limit : Int} {lease : Nat}
    {clock : String} {supply : Nat → String} {ms : List (StoredOutboxMessage cfg.py)} {db db' : Db} :
    claimOutbox cfg workerId limit lease clock supply db = (.ok ms, db') ↔
      isBlank workerId = false ∧ (1 ≤ limit ∧ limit ≤ maxSqliteInteger) ∧
      ∃ m, InRange m ∧ timestampMoment cfg.py clock "clock" = .ok m ∧ InRange (m + lease) ∧
        claimRows cfg workerId (momentText (m + lease)) supply 0
          (claimableRows db (momentText m) limit) db = (.ok ms, db') := by
  simp only [claimOutbox, Txn.bind_ok, Txn.lift_ok, Txn.atomically_ok, Txn.query_ok, callerText_ok,
    callerSqliteIntegerFrom_ok, true_implies, Nat.cast_one]
  constructor
  · rintro ⟨_, _, ⟨⟨hw, rfl⟩, rfl⟩, _, _, ⟨⟨hl, rfl⟩, rfl⟩, claimedAt, _, ⟨hc, rfl⟩, expiry, _, ⟨he, rfl⟩,
      _, _, ⟨rfl, rfl⟩, h⟩
    obtain ⟨m, hin, hm, rfl⟩ := normalizeTimestamp_moment hc
    obtain ⟨hdeadline, rfl⟩ := (leaseDeadline_ok hin).mp he
    exact ⟨hw, hl, m, hin, hm, hdeadline, h⟩
  · rintro ⟨hw, hl, m, hin, hm, hdeadline, h⟩
    exact ⟨_, _, ⟨⟨hw, rfl⟩, rfl⟩, _, _, ⟨⟨hl, rfl⟩, rfl⟩, _, _, ⟨normalizeTimestamp_ok.mpr ⟨m, hm, rfl⟩,
      rfl⟩, _, _, ⟨(leaseDeadline_ok hin).mpr ⟨hdeadline, rfl⟩, rfl⟩, _, _, ⟨rfl, rfl⟩, h⟩

theorem acknowledgeOutbox_ok {cfg : StoreConfig} {messageId token clock : String}
    {publishedAt : Option String} {b : Bool} {db db' : Db}
    (h : acknowledgeOutbox cfg messageId token publishedAt clock db = (.ok b, db')) :
    ∃ m at_, InRange m ∧ InRange at_ ∧ timestampMoment cfg.py clock "clock" = .ok m ∧
      b = (db.outbox.countP (holdsLease db.ambiguities messageId token (momentText m)) == 1) ∧
      db' = { db with
        outbox := updateWhere (holdsLease db.ambiguities messageId token (momentText m))
          (·.published (momentText at_)) db.outbox } := by
  simp only [acknowledgeOutbox, Txn.bind_ok, Txn.lift_ok, Txn.atomically_ok, Txn.pure_ok,
    updateOutbox_ok] at h
  obtain ⟨checkedAt, _, ⟨hc, rfl⟩, ackAt, _, ⟨ha, rfl⟩, n, _, ⟨rfl, rfl⟩, rfl, rfl⟩ := h
  obtain ⟨m, hin, hm, rfl⟩ := normalizeTimestamp_moment hc
  obtain ⟨at_, hin', -, rfl⟩ := normalizeTimestamp_moment ha
  exact ⟨m, at_, hin, hin', hm, rfl, rfl⟩

theorem rejectOutbox_ok {cfg : StoreConfig} {messageId token error clock : String}
    {retryAt : Option String} {dead b : Bool} {db db' : Db}
    (h : rejectOutbox cfg messageId token error retryAt dead clock db = (.ok b, db')) :
    ∃ m at_, InRange m ∧ InRange at_ ∧ timestampMoment cfg.py clock "clock" = .ok m ∧
      b = (db.outbox.countP (holdsLease db.ambiguities messageId token (momentText m)) == 1) ∧
      db' = { db with
        outbox := updateWhere (holdsLease db.ambiguities messageId token (momentText m))
          (·.released dead (momentText at_) error) db.outbox } := by
  simp only [rejectOutbox, Txn.bind_ok, Txn.lift_ok, Txn.atomically_ok, Txn.pure_ok,
    updateOutbox_ok] at h
  obtain ⟨rejectedAt, _, ⟨hc, rfl⟩, availableAt, _, ⟨ha, rfl⟩, n, _, ⟨rfl, rfl⟩, rfl, rfl⟩ := h
  obtain ⟨m, hin, hm, rfl⟩ := normalizeTimestamp_moment hc
  obtain ⟨at_, hin', -, rfl⟩ := normalizeTimestamp_moment ha
  exact ⟨m, at_, hin, hin', hm, rfl, rfl⟩

theorem leaseTokenDigest_ok {token digest : String} :
    leaseTokenDigest token = .ok digest ↔ token ≠ "" ∧ digest = hexDigest token := by
  unfold leaseTokenDigest
  split
  next h => simp [h]
  next h => simp [h, eq_comm]

theorem insertAmbiguity_ok {row : AmbiguityRow} {u : Unit} {db db' : Db}
    (h : insertAmbiguity row db = (.ok u, db')) :
    ((∃ a ∈ db.ambiguities, a.messageId = row.messageId ∧
        a.leaseTokenDigest = row.leaseTokenDigest) ∧ db' = db) ∨
      (hasOpenAmbiguity db.ambiguities row.messageId = false ∧
        db' = { db with ambiguities := db.ambiguities ++ [row] }) := by
  simp only [insertAmbiguity, Txn.bind_ok, Txn.query_ok] at h
  obtain ⟨_, _, ⟨rfl, rfl⟩, h⟩ := h
  split at h
  next hany =>
    obtain ⟨-, rfl⟩ := Txn.pure_ok.mp h
    exact .inl ⟨by simpa using hany, rfl⟩
  next =>
    simp only [Txn.bind_ok, Txn.ensure_ok, Txn.update_ok] at h
    obtain ⟨_, _, ⟨hopen, rfl⟩, _, _, ⟨-, rfl⟩, rfl⟩ := h
    exact .inr ⟨hopen, rfl⟩

theorem markOutboxAmbiguous_ok {cfg : StoreConfig} {messageId token : String}
    {reason : AmbiguityReason} {markedAt : Option String} {now : UtcMoment} {b : Bool} {db db' : Db}
    (h : markOutboxAmbiguous cfg messageId token reason markedAt now db = (.ok b, db')) :
    (b = false ∧ db' = db) ∨
      (b = true ∧ ∃ row a, findOutbox db.outbox messageId = some row ∧ row.status = .inFlight ∧
        row.leaseToken = some token ∧ a.messageId = messageId ∧
        a.leaseTokenDigest = hexDigest token ∧ a.resolvedAt = none ∧
        insertAmbiguity a db = (.ok (), db')) := by
  simp only [markOutboxAmbiguous, Txn.bind_ok, Txn.lift_ok, Txn.atomically_ok, Txn.query_ok,
    leaseTokenDigest_ok] at h
  obtain ⟨_, _, ⟨⟨-, rfl⟩, rfl⟩, recordedAt, _, ⟨-, rfl⟩, found, _, ⟨hfound, rfl⟩, h⟩ := h
  cases found with
  | none =>
    obtain ⟨rfl, rfl⟩ := Txn.pure_ok.mp h
    exact .inl ⟨rfl, rfl⟩
  | some row =>
    simp only at h
    split at h
    next hheld =>
      simp only [Txn.bind_ok, Txn.lift_ok, Txn.pure_ok] at h
      obtain ⟨attempts, _, ⟨-, rfl⟩, _, _, hins, rfl, rfl⟩ := h
      exact .inr ⟨rfl, row, _, hfound, hheld.1, hheld.2, rfl, rfl, rfl, hins⟩
    next =>
      obtain ⟨rfl, rfl⟩ := Txn.pure_ok.mp h
      exact .inl ⟨rfl, rfl⟩

theorem rowTokenDigest_ok {row : OutboxRow} {digest : String} :
    rowTokenDigest row = .ok digest ↔
      ∃ token, row.leaseToken = some token ∧ token ≠ "" ∧ digest = hexDigest token := by
  unfold rowTokenDigest
  cases row.leaseToken with
  | none => simp
  | some token => simp [leaseTokenDigest_ok]

theorem resolveOutboxAmbiguity_ok {cfg : StoreConfig} {messageId digest : String}
    {resolution : AmbiguityResolution} {resolvedAt retryAt : Option String} {now : UtcMoment}
    {b : Bool} {db db' : Db}
    (h : resolveOutboxAmbiguity cfg messageId digest resolution resolvedAt retryAt now db =
      (.ok b, db')) :
    (b = false ∧ db' = db) ∨
      (b = true ∧ ∃ row token a decided available, InRange decided ∧ InRange available ∧
        a ∈ db.ambiguities ∧ isAmbiguityOf messageId digest a = true ∧
        findOutbox db.outbox messageId = some row ∧ row.status = .inFlight ∧
        row.leaseToken = some token ∧ digest = hexDigest token ∧
        db' = { db with
          outbox := updateWhere (isLeasedAs messageId token)
            (resolveRow resolution (momentText decided) (momentText available)) db.outbox
          ambiguities := updateWhere (isAmbiguityOf messageId digest)
            (fun a => { a with
              resolution := some resolution, resolvedAt := some (momentText decided) })
            db.ambiguities }) := by
  simp only [resolveOutboxAmbiguity, Txn.bind_ok, Txn.lift_ok, Txn.ensure_ok, Txn.atomically_ok] at h
  obtain ⟨_, _, ⟨-, rfl⟩, decidedAt, _, ⟨hd, rfl⟩, availableAt, _, ⟨ha, rfl⟩, h⟩ := h
  obtain ⟨decided, hdin, -, rfl⟩ := normalizeTimestamp_moment hd
  obtain ⟨available, hain, -, rfl⟩ := normalizeTimestamp_moment ha
  simp only [resolveInTransaction, Txn.bind_ok, Txn.query_ok] at h
  obtain ⟨ambiguity, _, ⟨hamb, rfl⟩, outbox, _, ⟨hout, rfl⟩, h⟩ := h
  cases ambiguity with
  | none =>
    obtain ⟨rfl, rfl⟩ := Txn.pure_ok.mp h
    exact .inl ⟨rfl, rfl⟩
  | some a =>
    cases outbox with
    | none =>
      obtain ⟨rfl, rfl⟩ := Txn.pure_ok.mp h
      exact .inl ⟨rfl, rfl⟩
    | some row =>
      simp only at h
      split at h
      next hstatus =>
        simp only [Txn.bind_ok, Txn.lift_ok, rowTokenDigest_ok] at h
        obtain ⟨held, _, ⟨⟨token, htoken, -, rfl⟩, rfl⟩, h⟩ := h
        split at h
        next hdigest =>
          simp only [persistedToken, htoken, Txn.bind_ok, Txn.lift_ok, Txn.update_ok, Txn.pure_ok,
            persistedText_ok, updateOutbox_ok] at h
          obtain ⟨_, _, ⟨⟨-, rfl⟩, rfl⟩, _, _, ⟨-, rfl⟩, _, _, rfl, rfl, rfl⟩ := h
          exact .inr ⟨rfl, row, _, a, decided, available, hdin, hain, List.mem_of_find?_eq_some hamb,
            List.find?_some hamb, hout, hstatus, htoken, hdigest.symm, rfl⟩
        next =>
          obtain ⟨rfl, rfl⟩ := Txn.pure_ok.mp h
          exact .inl ⟨rfl, rfl⟩
      next =>
        obtain ⟨rfl, rfl⟩ := Txn.pure_ok.mp h
        exact .inl ⟨rfl, rfl⟩

end QuantumEntanglement
