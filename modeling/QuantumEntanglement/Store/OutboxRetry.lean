import QuantumEntanglement.Store.LogRuns
import QuantumEntanglement.Store.OutboxRuns

/-
  Enqueueing again — what a retry of `append_with_outbox` is compared with

  A call whose event is on record inserts nothing: it reads the messages the
  event caused, compares them with the ones it was given, and raises if they
  differ. Deliveries rewrite a row's availability, lease and status, so the
  comparison is about the other columns, and it is Python's `==` on the decoded
  mappings.

  What is proved:
    1. `exec_requests`, `run_store` — the columns compared stay as they were
       inserted, over a call and over a run; later rows belong to later events.
    2. `enqueue_requests`, `requests_back` — what an event's messages are read
       back as.
    3. `sameRequests_iff` — what the comparison says of two lists.
    4. `retry_with_outbox` — a retry with the same messages is a replay, one
       with messages that look different raises and changes nothing.
-/

namespace QuantumEntanglement.Outbox

open Transaction TransitionSystem PyJson PyText IsoTime

/-! ## What a row asks for -/

/-- The columns of a row that no delivery changes. -/
structure Request where
  position : Nat
  messageId : String
  destination : String
  idempotencyKey : String
  payloadJson : String
  headersJson : String
  trigger : Nat

def requestOf (row : OutboxRow) : Request :=
  ⟨row.outboxPosition, row.messageId, row.destination, row.idempotencyKey, row.payloadJson,
    row.headersJson, row.triggeringGlobalPosition⟩

/-- The requests of the event at a position, in order. -/
def requestsAt (position : Nat) (qs : List Request) : List Request :=
  orderBy (·.position) (qs.filter (·.trigger = position))

theorem requestsAt_rows (rows : List OutboxRow) (position : Nat) :
    (triggeredRows rows position).map requestOf = requestsAt position (rows.map requestOf) := by
  unfold triggeredRows requestsAt orderBy
  rw [List.map_insertionSort (fun a b : OutboxRow => a.outboxPosition ≤ b.outboxPosition)
    (fun a b : Request => a.position ≤ b.position) requestOf _ (fun _ _ _ _ => Iff.rfl),
    List.filter_map]
  rfl

/-- An UPDATE of other columns. -/
theorem requests_update {p : OutboxRow → Bool} {f : OutboxRow → OutboxRow} (rows : List OutboxRow)
    (hf : ∀ r, requestOf (f r) = requestOf r) :
    (updateWhere p f rows).map requestOf = rows.map requestOf := by
  unfold updateWhere
  rw [List.map_map]
  apply List.map_congr_left
  intro r _
  simp only [Function.comp_apply]
  split
  · exact hf r
  · rfl

/-- The requests are those of before, and new ones for events recorded since. -/
def RequestsKept (db db' : Db) : Prop :=
  ∃ new, db'.outbox.map requestOf = db.outbox.map requestOf ++ new ∧
    ∀ q ∈ new, maxOf (·.globalPosition) db.events < q.trigger ∧
      q.trigger ≤ maxOf (·.globalPosition) db'.events

theorem requestsKept_same {db db' : Db}
    (h : db'.outbox.map requestOf = db.outbox.map requestOf) : RequestsKept db db' :=
  ⟨[], by rw [h, List.append_nil], by simp⟩

/-- The last position of a log that grows does not fall. -/
theorem maxOf_grows {cfg : StoreConfig} {a b : List EventRow} (h : LogGrows cfg a b) :
    maxOf (·.globalPosition) a ≤ maxOf (·.globalPosition) b := by
  obtain ⟨new, rfl⟩ := h.exists_new
  rw [maxOf_append]
  exact Nat.le_max_left _ _

theorem RequestsKept.trans {cfg : StoreConfig} {a b c : Db} (h : RequestsKept a b)
    (hgrows : LogGrows cfg a.events b.events) (hgrows' : LogGrows cfg b.events c.events)
    (h' : RequestsKept b c) : RequestsKept a c := by
  obtain ⟨new, hnew, hafter⟩ := h
  obtain ⟨more, hmore, hlater⟩ := h'
  refine ⟨new ++ more, by rw [hmore, hnew, List.append_assoc], fun q hq => ?_⟩
  rcases List.mem_append.mp hq with hq | hq
  · obtain ⟨hlower, hupper⟩ := hafter q hq
    exact ⟨hlower, Nat.le_trans hupper (maxOf_grows hgrows')⟩
  · obtain ⟨hlower, hupper⟩ := hlater q hq
    exact ⟨Nat.lt_of_le_of_lt (maxOf_grows hgrows) hlower, hupper⟩

/-- Requests that belonged to events of the log still do. -/
theorem RequestsKept.triggers {cfg : StoreConfig} {a b : Db} (h : RequestsKept a b)
    (hgrows : LogGrows cfg a.events b.events)
    (ha : ∀ q ∈ a.outbox.map requestOf, q.trigger ≤ maxOf (·.globalPosition) a.events) :
    ∀ q ∈ b.outbox.map requestOf, q.trigger ≤ maxOf (·.globalPosition) b.events := by
  obtain ⟨new, hnew, hsince⟩ := h
  intro q hq
  rw [hnew] at hq
  rcases List.mem_append.mp hq with hq | hq
  · exact Nat.le_trans (ha q hq) (maxOf_grows hgrows)
  · exact (hsince q hq).2

theorem requestsAt_kept {db db' : Db} {position : Nat} (h : RequestsKept db db')
    (hposition : position ≤ maxOf (·.globalPosition) db.events) :
    requestsAt position (db'.outbox.map requestOf) = requestsAt position (db.outbox.map requestOf) := by
  obtain ⟨new, hnew, hlater⟩ := h
  have hnone : new.filter (·.trigger = position) = [] := by
    rw [List.filter_eq_nil_iff]
    intro q hq heq
    have hlt := (hlater q hq).1
    have : q.trigger = position := by simpa using heq
    omega
  rw [hnew, requestsAt, List.filter_append, hnone, List.append_nil]
  rfl

/-! ## Enqueueing -/

/-- The requests of a batch, at consecutive positions. -/
def batchRequests {py : PyVersion} (stored : StoredEvent) (position : Nat) :
    List (OutboxWriteSnapshot py) → List Request
  | [] => []
  | snap :: rest =>
    requestOf (snap.row stored position) :: batchRequests stored (position + 1) rest

theorem batchRequests_trigger {py : PyVersion} {stored : StoredEvent} {position : Nat}
    {batch : List (OutboxWriteSnapshot py)} :
    ∀ q ∈ batchRequests stored position batch, q.trigger = stored.globalPosition := by
  induction batch generalizing position with
  | nil => simp [batchRequests]
  | cons snap rest ih =>
    intro q hq
    rcases List.mem_cons.mp hq with rfl | hq
    · rfl
    · exact ih q hq

theorem batchRequests_sorted {py : PyVersion} {stored : StoredEvent} {position : Nat}
    {batch : List (OutboxWriteSnapshot py)} :
    (batchRequests stored position batch).Pairwise (fun a b => a.position ≤ b.position) ∧
      ∀ q ∈ batchRequests stored position batch, position ≤ q.position := by
  induction batch generalizing position with
  | nil => simp [batchRequests]
  | cons snap rest ih =>
    obtain ⟨hsorted, hlower⟩ := @ih (position + 1)
    constructor
    · refine List.pairwise_cons.mpr ⟨fun q hq => ?_, hsorted⟩
      have := hlower q hq
      simp only [requestOf, OutboxWriteSnapshot.row]
      omega
    · intro q hq
      rcases List.mem_cons.mp hq with rfl | hq
      · exact Nat.le_refl _
      · exact Nat.le_of_succ_le (hlower q hq)

/-- What an enqueue adds to the requests. -/
theorem enqueue_requests {py : PyVersion} {stored : StoredEvent}
    {batch : List (OutboxWriteSnapshot py)} {us : List Unit} {db db' : Db}
    (h : Txn.forEach (insertOutbox stored) batch db = (.ok us, db')) :
    db'.events = db.events ∧ db'.outbox.map requestOf = db.outbox.map requestOf ++
      batchRequests stored (maxOf (·.outboxPosition) db.outbox + 1) batch := by
  induction batch generalizing us db with
  | nil =>
    obtain ⟨-, rfl⟩ := Txn.forEach_nil_ok.mp h
    exact ⟨rfl, by simp [batchRequests]⟩
  | cons snap rest ih =>
    obtain ⟨_, db₁, _, hone, hrest, -⟩ := Txn.forEach_cons_ok.mp h
    simp only [insertOutbox, Txn.bind_ok, Txn.query_ok, Txn.ensure_ok, Txn.update_ok] at hone
    obtain ⟨_, _, ⟨rfl, rfl⟩, _, _, ⟨-, rfl⟩, _, _, ⟨-, rfl⟩, rfl⟩ := hone
    obtain ⟨hevents, hrequests⟩ := ih hrest
    refine ⟨hevents, ?_⟩
    have hmax : maxOf (·.outboxPosition) (db.outbox ++
        [snap.row stored (maxOf (·.outboxPosition) db.outbox + 1)]) =
          maxOf (·.outboxPosition) db.outbox + 1 := by
      rw [maxOf_append, maxOf_singleton]
      exact Nat.max_eq_right (Nat.le_succ _)
    rw [hrequests]
    simp only [hmax, List.map_append, List.map_cons, List.map_nil, List.append_assoc,
      List.singleton_append, batchRequests]

/-- The requests of a batch are read back as they were inserted, where no
earlier row belongs to their event. -/
theorem requestsAt_batch {py : PyVersion} {stored : StoredEvent} {position : Nat}
    {batch : List (OutboxWriteSnapshot py)} {qs : List Request}
    (hfresh : ∀ q ∈ qs, q.trigger ≠ stored.globalPosition) :
    requestsAt stored.globalPosition (qs ++ batchRequests stored position batch) =
      batchRequests stored position batch := by
  have hnone : qs.filter (·.trigger = stored.globalPosition) = [] := by
    rw [List.filter_eq_nil_iff]
    intro q hq
    simpa using hfresh q hq
  have hall : (batchRequests stored position batch).filter (·.trigger = stored.globalPosition) =
      batchRequests stored position batch := by
    rw [List.filter_eq_self]
    intro q hq
    simpa using batchRequests_trigger q hq
  rw [requestsAt, List.filter_append, hnone, hall, List.nil_append]
  exact batchRequests_sorted.1.insertionSort_eq

/-! ## Reading back -/

/-- The mappings of a message that was read are those its row holds. -/
theorem rowToOutbox_contents {cfg : StoreConfig} {row : OutboxRow} {x : StoredOutboxMessage cfg.py}
    (h : rowToOutbox cfg row = .ok x) :
    decodeJsonObject cfg.maxJsonBytes row.payloadJson "outbox payload" = .ok x.message.payload ∧
      decodeJsonObject cfg.maxJsonBytes row.headersJson "outbox headers" = .ok x.message.headers := by
  simp only [rowToOutbox, asMalformed_ok, except_bind_ok, OutboxMessage.make_ok, Except.ok.injEq] at h
  obtain ⟨_, -, _, -, _, -, _, -, _, -, _, -, _, -, payload, hpayload, headers, hheaders, _, -, _, -, _,
    ⟨_, rfl⟩, _, -, _, -, _, -, rfl⟩ := h
  exact ⟨hpayload, hheaders⟩

/-- Readable rows are read, each as it is. -/
theorem readOutboxRows_all {cfg : StoreConfig} {rows : List OutboxRow}
    (h : ∀ r ∈ rows, OutboxReadable cfg r) :
    ∃ xs, readOutboxRows cfg rows = .ok xs ∧
      List.Forall₂ (fun x r => rowToOutbox cfg r = .ok x) xs rows := by
  induction rows with
  | nil => exact ⟨[], rfl, .nil⟩
  | cons r rest ih =>
    obtain ⟨x, hx⟩ := rowToOutbox_ok.mpr (h r (by simp))
    obtain ⟨xs, hxs, hall⟩ := ih (fun q hq => h q (List.mem_cons_of_mem _ hq))
    refine ⟨x :: xs, ?_, .cons hx hall⟩
    simp only [readOutboxRows, except_bind_ok]
    exact ⟨x, hx, xs, hxs, rfl⟩

/-- A message that was read, as the request of a message that was given. -/
structure Carries {py : PyVersion} (x : StoredOutboxMessage py) (m : OutboxMessage py) : Prop where
  messageId : x.message.messageId = m.messageId
  destination : x.message.destination = m.destination
  idempotencyKey : x.message.idempotencyKey = m.idempotencyKey
  payload : x.message.payload = PyJson.normalize m.payload
  headers : x.message.headers = PyJson.normalize m.headers

/-- The row of a message is read back as its request. -/
theorem carries_row {cfg : StoreConfig} {m : OutboxMessage cfg.py} {snap : OutboxWriteSnapshot cfg.py}
    {stored : StoredEvent} {position : Nat} {row : OutboxRow} {x : StoredOutboxMessage cfg.py}
    (hsnap : snapshotOutboxMessage cfg m = .ok snap)
    (hrow : requestOf row = requestOf (snap.row stored position)) (hx : rowToOutbox cfg row = .ok x) :
    Carries x m := by
  have hmessage := snapshotOutboxMessage_ok hsnap
  obtain ⟨-, hshows⟩ := rowToOutbox_inversion hx
  obtain ⟨hpayload, hheaders⟩ := rowToOutbox_contents hx
  simp only [requestOf, OutboxWriteSnapshot.row, hmessage, Request.mk.injEq] at hrow
  obtain ⟨-, hid, hdestination, hkey, hpayloadJson, hheadersJson, -⟩ := hrow
  simp only [snapshotOutboxMessage, except_bind_ok, Except.ok.injEq] at hsnap
  obtain ⟨_, -, _, -, _, -, _, -, _, -, payload, hp, headers, hh, _, -, rfl⟩ := hsnap
  simp only at hpayloadJson hheadersJson
  rw [hpayloadJson, decode_snapshot hp] at hpayload
  rw [hheadersJson, decode_snapshot hh] at hheaders
  exact ⟨hshows.messageId.trans hid, hshows.destination.trans hdestination,
    hshows.idempotencyKey.trans hkey, by rw [← Except.ok.inj hpayload, (snapshotJsonObject_ok hp).2],
    by rw [← Except.ok.inj hheaders, (snapshotJsonObject_ok hh).2]⟩

theorem snapshotMessages_forall₂ {cfg : StoreConfig} : ∀ {ms : List (OutboxMessage cfg.py)}
    {batch : List (OutboxWriteSnapshot cfg.py)}, snapshotMessages cfg ms = .ok batch →
      List.Forall₂ (fun m s => snapshotOutboxMessage cfg m = .ok s) ms batch
  | [], batch, h => by
    obtain rfl := Except.ok.inj h
    exact .nil
  | m :: rest, batch, h => by
    simp only [snapshotMessages, except_bind_ok, Except.ok.injEq] at h
    obtain ⟨s, hs, ss, hss, rfl⟩ := h
    exact .cons hs (snapshotMessages_forall₂ hss)

/-- **Rows with the requests of a batch are read back as its messages.** -/
theorem requests_back {cfg : StoreConfig} {stored : StoredEvent} {position : Nat}
    {ms : List (OutboxMessage cfg.py)} {batch : List (OutboxWriteSnapshot cfg.py)}
    {rows : List OutboxRow} {xs : List (StoredOutboxMessage cfg.py)}
    (hbatch : List.Forall₂ (fun m s => snapshotOutboxMessage cfg m = .ok s) ms batch)
    (hrows : rows.map requestOf = batchRequests stored position batch)
    (hread : List.Forall₂ (fun x r => rowToOutbox cfg r = .ok x) xs rows) :
    List.Forall₂ Carries xs ms := by
  induction hbatch generalizing position rows xs with
  | nil =>
    obtain rfl := List.map_eq_nil_iff.mp hrows
    cases hread
    exact .nil
  | cons hsnap _ ih =>
    obtain ⟨row, rest, rfl, hrow, hrest⟩ := List.map_eq_cons_iff.mp hrows
    cases hread with
    | cons hx hxs => exact .cons (carries_row hsnap hrow hx) (ih hrest hxs)

/-! ## The comparison -/

/-- Two messages that ask for the same, as JSON. -/
structure SameMessage {py : PyVersion} (a b : OutboxMessage py) : Prop where
  messageId : a.messageId = b.messageId
  destination : a.destination = b.destination
  idempotencyKey : a.idempotencyKey = b.idempotencyKey
  payload : PyJson.normalize a.payload = PyJson.normalize b.payload
  headers : PyJson.normalize a.headers = PyJson.normalize b.headers

/-- Two messages Python's `==` does not tell apart. -/
def looksSame {py : PyVersion} (a b : OutboxMessage py) : Bool :=
  a.messageId = b.messageId && a.destination = b.destination &&
    a.idempotencyKey = b.idempotencyKey &&
    pyEq (PyJson.normalize a.payload) (PyJson.normalize b.payload) &&
    pyEq (PyJson.normalize a.headers) (PyJson.normalize b.headers)

/-- A mapping the store accepted is equal to itself. -/
theorem pyEq_accepted {maxBytes : Nat} {value : Value} {field : String} {snapshot : JsonObjectSnapshot}
    (h : snapshotJsonObject maxBytes value field = .ok snapshot) :
    pyEq (PyJson.normalize value) (PyJson.normalize value) = true := by
  obtain ⟨hfits, -⟩ := encodeJsonObject_ok (snapshotJsonObject_ok h).1
  exact pyEq_refl _ (normal_normalize value (plain_of_fits value 0 hfits))

theorem SameMessage.looksSame {cfg : StoreConfig} {a b : OutboxMessage cfg.py}
    {snap : OutboxWriteSnapshot cfg.py} (h : SameMessage a b)
    (hsnap : snapshotOutboxMessage cfg a = .ok snap) : looksSame a b = true := by
  simp only [snapshotOutboxMessage, except_bind_ok] at hsnap
  obtain ⟨_, -, _, -, _, -, _, -, _, -, payload, hp, headers, hh, -⟩ := hsnap
  simp [Outbox.looksSame, h.messageId, h.destination, h.idempotencyKey, ← h.payload, ← h.headers,
    pyEq_accepted hp, pyEq_accepted hh]

/-- **What the comparison says of two lists of messages.** -/
theorem sameRequests_iff {cfg : StoreConfig} {ms' ms : List (OutboxMessage cfg.py)}
    {batch : List (OutboxWriteSnapshot cfg.py)} {xs : List (StoredOutboxMessage cfg.py)}
    (hbatch : List.Forall₂ (fun m s => snapshotOutboxMessage cfg m = .ok s) ms' batch)
    (hread : List.Forall₂ Carries xs ms) :
    sameRequests batch xs = true ↔ List.Forall₂ (fun a b => looksSame a b = true) ms' ms := by
  induction hbatch generalizing xs ms with
  | nil =>
    cases hread with
    | nil => exact ⟨fun _ => .nil, fun _ => rfl⟩
    | cons hx hxs => exact ⟨fun h => absurd h (by simp [sameRequests]), fun h => nomatch h⟩
  | cons hsnap _ ih =>
    cases hread with
    | nil => exact ⟨fun h => absurd h (by simp [sameRequests]), fun h => nomatch h⟩
    | cons hx hxs =>
      have hone : ∀ {a b : OutboxMessage cfg.py} {s : OutboxWriteSnapshot cfg.py}
          {x : StoredOutboxMessage cfg.py}, snapshotOutboxMessage cfg a = .ok s → Carries x b →
            sameRequest s.message x.message = looksSame a b := by
        intro a b s x hs hx
        rw [snapshotOutboxMessage_ok hs]
        simp [sameRequest, looksSame, hx.messageId, hx.destination, hx.idempotencyKey, hx.payload,
          hx.headers]
      rw [sameRequests, hone hsnap hx, Bool.and_eq_true, List.forall₂_cons, ih hxs]

/-! ## What a retry finds -/

/-- What a later call for a committed event finds: its row, which reads back as
what the first call returned, and the messages it was committed with. -/
structure OnRecord (cfg : StoreConfig) (event : DomainEvent) (messages : List (OutboxMessage cfg.py))
    (stored : StoredEvent) (db : Db) : Prop where
  event : ∀ key, event.idempotencyKey = some key → ∃ row, findKey db.events event.streamId key = some row ∧
    rowToEvent cfg row = .ok stored
  messages : ∃ linked, readOutboxRows cfg (triggeredRows db.outbox stored.globalPosition) = .ok linked ∧
    List.Forall₂ Carries linked messages

/-- The arguments of a call are accepted. -/
structure Accepted (cfg : StoreConfig) (event : DomainEvent) (messages : List (OutboxMessage cfg.py))
    (ev : Option Int) : Prop where
  event : ∃ snap, snapshotEvent cfg event = .ok snap
  messages : ∃ batch, snapshotMessages cfg messages = .ok batch
  version : ∃ v, callerExpectedVersion ev = .ok v

/-- The row a call for an event on record finds. -/
theorem OnRecord.finds {cfg : StoreConfig} {event event' : DomainEvent} {messages : List (OutboxMessage cfg.py)}
    {stored : StoredEvent} {db : Db} {key : String} {snap : EventWriteSnapshot}
    (h : OnRecord cfg event messages stored db) (hkey : event.idempotencyKey = some key)
    (hsame : event'.streamId = event.streamId ∧ event'.idempotencyKey = some key)
    (hsnap : snapshotEvent cfg event' = .ok snap) :
    ∃ row, idempotentRow db.events snap.event = some row ∧ rowToEvent cfg row = .ok stored := by
  obtain ⟨row, hrow, hread⟩ := h.event key hkey
  refine ⟨row, ?_, hread⟩
  rw [(snapshotEvent_ok hsnap).1]
  simp only [idempotentRow, hsame.1, hsame.2]
  exact hrow

theorem SameMessage.all_look {cfg : StoreConfig} {event : DomainEvent} {messages messages' : List (OutboxMessage cfg.py)}
    {ev : Option Int} (haccepted : Accepted cfg event messages' ev)
    (h : List.Forall₂ SameMessage messages' messages) :
    List.Forall₂ (fun a b => Outbox.looksSame a b = true) messages' messages := by
  obtain ⟨batch, hbatch⟩ := haccepted.messages
  have hsnaps := snapshotMessages_forall₂ hbatch
  clear hbatch haccepted
  induction h generalizing batch with
  | nil => exact .nil
  | cons hone _ ih =>
    cases hsnaps with
    | cons hsnap hrest => exact .cons (hone.looksSame hsnap) (ih _ hrest)

/-! ## Runs of the store -/

section Runs

variable {cfg : StoreConfig}

/-- What a call that enqueues does to the log and to the requests. -/
theorem appendWithOutbox_requests {event : DomainEvent} {messages : List (OutboxMessage cfg.py)}
    {ev : Option Int} {reply : StoredEvent × List (StoredOutboxMessage cfg.py)} {db db' : Db}
    (h : appendWithOutbox cfg event messages ev db = (.ok reply, db')) :
    ∃ snap batch, snapshotEvent cfg event = .ok snap ∧ snapshotMessages cfg messages = .ok batch ∧
      ((∃ row, idempotentRow db.events snap.event = some row ∧ rowToEvent cfg row = .ok reply.1 ∧
          readOutboxRows cfg (triggeredRows db.outbox reply.1.globalPosition) = .ok reply.2 ∧
          sameRequests batch reply.2 = true ∧ db' = db) ∨
        (idempotentRow db.events snap.event = none ∧ reply.1.event = snap.event ∧
          reply.1.globalPosition = maxOf (·.globalPosition) db.events + 1 ∧
          db'.events = db.events ++ [snap.row reply.1.sequence reply.1.globalPosition] ∧
          LogGrows cfg db.events db'.events ∧
          db'.outbox.map requestOf = db.outbox.map requestOf ++
            batchRequests reply.1 (maxOf (·.outboxPosition) db.outbox + 1) batch)) := by
  simp only [appendWithOutbox, Txn.bind_ok, Txn.lift_ok, Txn.atomically_ok] at h
  obtain ⟨snap, _, ⟨hsnap, rfl⟩, batch, _, ⟨hbatch, rfl⟩, version, _, ⟨-, rfl⟩, ⟨stored, inserted⟩, db₁,
    happ, h⟩ := h
  refine ⟨snap, batch, hsnap, hbatch, ?_⟩
  have hgrows := appendInTransaction_grows hsnap happ
  rcases appendInTransaction_ok happ with ⟨rfl, hnone, -, -, hstored, hins⟩ | ⟨rfl, rfl, row, hrow, hread⟩
  · obtain ⟨hposition, -, -, hdb₁⟩ := insertEvent_ok.mp hins
    simp only [if_true, Txn.bind_ok, Txn.query_ok, Txn.lift_ok, Txn.pure_ok] at h
    obtain ⟨us, db₂, henqueue, _, _, ⟨rfl, rfl⟩, linked, _, ⟨-, rfl⟩, rfl, rfl⟩ := h
    obtain ⟨hevents, hrequests⟩ := enqueue_requests henqueue
    have hsame : db₁.outbox = db.outbox := by rw [hdb₁]
    have hlog : db₁.events = db.events ++ [snap.row stored.sequence stored.globalPosition] := by
      rw [hdb₁]
    rw [hsame] at hrequests
    refine .inr ⟨hnone, ?_, hposition, hevents.trans hlog, hevents ▸ hgrows, hrequests⟩
    rw [hstored]
  · simp only [Bool.false_eq_true, if_false, Txn.bind_ok, Txn.query_ok, Txn.lift_ok, Txn.ensure_ok,
      Txn.pure_ok] at h
    obtain ⟨_, _, ⟨rfl, rfl⟩, existing, _, ⟨hexisting, rfl⟩, _, _, ⟨hsame, rfl⟩, rfl, rfl⟩ := h
    exact .inl ⟨row, hrow, hread, hexisting, hsame, rfl⟩

/-- **Messages that look like those on record are a replay.** -/
theorem OnRecord.replays {event event' : DomainEvent} {messages messages' : List (OutboxMessage cfg.py)}
    {ev' : Option Int} {stored : StoredEvent} {db : Db} {key : String}
    (h : OnRecord cfg event messages stored db) (hkey : event.idempotencyKey = some key)
    (hsame : event'.streamId = event.streamId ∧ event'.idempotencyKey = some key)
    (haccepted : Accepted cfg event' messages' ev')
    (hlooks : List.Forall₂ (fun a b => looksSame a b = true) messages' messages) :
    ∃ linked, appendWithOutbox cfg event' messages' ev' db = (.ok (stored, linked), db) ∧
      List.Forall₂ Carries linked messages := by
  obtain ⟨⟨snap, hsnap⟩, ⟨batch, hbatch⟩, v, hv⟩ := haccepted
  obtain ⟨row, hrow, hread⟩ := h.finds hkey hsame hsnap
  obtain ⟨linked, hlinked, hcarries⟩ := h.messages
  have happ : appendInTransaction cfg snap v none db = (.ok (stored, false), db) := by
    simp only [appendInTransaction, Txn.bind_ok, Txn.query_ok]
    refine ⟨some row, db, ⟨hrow, rfl⟩, ?_⟩
    simp only [Txn.bind_ok, Txn.lift_ok, Txn.pure_ok]
    exact ⟨stored, db, ⟨hread, rfl⟩, rfl, rfl⟩
  have hcompare := (sameRequests_iff (snapshotMessages_forall₂ hbatch) hcarries).mpr hlooks
  refine ⟨linked, ?_, hcarries⟩
  simp only [appendWithOutbox, Txn.bind_ok, Txn.lift_ok, Txn.atomically_ok, hsnap, hbatch, hv]
  refine ⟨snap, db, ⟨rfl, rfl⟩, batch, db, ⟨rfl, rfl⟩, v, db, ⟨rfl, rfl⟩, (stored, false), db, happ, ?_⟩
  simp only [Bool.false_eq_true, if_false, Txn.bind_ok, Txn.query_ok, Txn.lift_ok, Txn.ensure_ok,
    Txn.pure_ok]
  exact ⟨_, db, ⟨rfl, rfl⟩, linked, db, ⟨hlinked, rfl⟩, (), db, ⟨hcompare, rfl⟩, rfl, rfl⟩

/-- The log and the outbox keep their laws, and a message belongs to an event of
the log. -/
structure StoreInv (cfg : StoreConfig) (db : Db) : Prop where
  log : LogInv db.events
  outbox : OutboxInv cfg db
  triggers : ∀ q ∈ db.outbox.map requestOf, q.trigger ≤ maxOf (·.globalPosition) db.events

theorem storeInv_empty (cfg : StoreConfig) : StoreInv cfg Db.empty :=
  ⟨logInv_nil, outboxInv_empty cfg, by simp [Db.empty]⟩

variable [SqliteTime]

/-- A claim leaves the log and the requests. -/
theorem claimRows_requests {workerId expiry : String} {supply : Nat → String} {rows : List OutboxRow}
    {i : Nat} {xs : List (StoredOutboxMessage cfg.py)} {db db' : Db}
    (h : claimRows cfg workerId expiry supply i rows db = (.ok xs, db')) :
    db'.events = db.events ∧ db'.outbox.map requestOf = db.outbox.map requestOf := by
  induction rows generalizing i xs db with
  | nil =>
    obtain ⟨-, rfl⟩ := Txn.pure_ok.mp h
    exact ⟨rfl, rfl⟩
  | cons r rest ih =>
    simp only [claimRows, Txn.bind_ok, Txn.pure_ok] at h
    obtain ⟨x, db₁, hone, xs', _, hrest, -, rfl⟩ := h
    obtain ⟨-, rfl, -⟩ := claimRow_ok.mp hone
    obtain ⟨hevents, hrequests⟩ := ih hrest
    exact ⟨hevents, hrequests.trans (requests_update db.outbox fun _ => rfl)⟩

/-- **A call leaves the requests on record; what it adds is for a new event.** -/
theorem exec_requests {call : OutboxCall cfg.py} {reply : OutboxReply cfg.py} {db db' : Db}
    (h : call.exec db = (reply, db')) :
    LogGrows cfg db.events db'.events ∧ RequestsKept db db' := by
  have hsame : db'.events = db.events → db'.outbox.map requestOf = db.outbox.map requestOf →
      LogGrows cfg db.events db'.events ∧ RequestsKept db db' := by
    intro hevents hrequests
    rw [hevents]
    exact ⟨.refl, requestsKept_same hrequests⟩
  have hraised : ∀ e, reply = .raised e → LogGrows cfg db.events db'.events ∧ RequestsKept db db' := by
    intro e he
    subst he
    rw [exec_raised h]
    exact ⟨.refl, requestsKept_same rfl⟩
  cases call with
  | enqueue event messages ev =>
    rcases answer_cases h with ⟨r, hrun, -⟩ | ⟨e, -, he⟩
    · obtain ⟨snap, batch, -, -, ⟨_, -, -, -, -, rfl⟩ | ⟨-, -, hposition, hevents, hgrows, hrequests⟩⟩ :=
        appendWithOutbox_requests hrun
      · exact ⟨.refl, requestsKept_same rfl⟩
      · refine ⟨hgrows, _, hrequests, fun q hq => ?_⟩
        have hlast : maxOf (·.globalPosition) db'.events = r.1.globalPosition := by
          rw [hevents, maxOf_append, maxOf_singleton, hposition]
          exact Nat.max_eq_right (Nat.le_succ _)
        rw [batchRequests_trigger q hq, hlast]
        exact ⟨by omega, Nat.le_refl _⟩
    · exact hraised e he
  | claim workerId limit lease clock supply =>
    rcases answer_cases h with ⟨xs, hrun, -⟩ | ⟨e, -, he⟩
    · obtain ⟨-, -, now, -, -, -, hloop⟩ := claimOutbox_ok.mp hrun
      obtain ⟨hevents, hrequests⟩ := claimRows_requests hloop
      exact hsame hevents hrequests
    · exact hraised e he
  | acknowledge messageId token publishedAt clock =>
    rcases answer_cases h with ⟨b, hrun, -⟩ | ⟨e, -, he⟩
    · obtain ⟨_, _, -, -, -, -, rfl⟩ := acknowledgeOutbox_ok hrun
      exact hsame rfl (requests_update db.outbox fun _ => rfl)
    · exact hraised e he
  | reject messageId token error retryAt dead clock =>
    rcases answer_cases h with ⟨b, hrun, -⟩ | ⟨e, -, he⟩
    · obtain ⟨_, _, -, -, -, -, rfl⟩ := rejectOutbox_ok hrun
      exact hsame rfl (requests_update db.outbox fun _ => rfl)
    · exact hraised e he
  | mark messageId token reason markedAt now =>
    rcases answer_cases h with ⟨b, hrun, -⟩ | ⟨e, -, he⟩
    · rcases markOutboxAmbiguous_ok hrun with ⟨-, rfl⟩ | ⟨-, row, a, -, -, -, -, -, -, hinsert⟩
      · exact hsame rfl rfl
      · rcases insertAmbiguity_ok hinsert with ⟨-, rfl⟩ | ⟨-, rfl⟩ <;> exact hsame rfl rfl
    · exact hraised e he
  | resolve messageId digest resolution resolvedAt retryAt now =>
    rcases answer_cases h with ⟨b, hrun, -⟩ | ⟨e, -, he⟩
    · rcases resolveOutboxAmbiguity_ok hrun with ⟨-, rfl⟩ | ⟨-, _, _, _, _, _, -, -, -, -, -, -, -, -, rfl⟩
      · exact hsame rfl rfl
      · exact hsame rfl (requests_update db.outbox fun _ => by cases resolution <;> rfl)
    · exact hraised e he

/-- What happens to a store: a call on the outbox, or a write to the log that
leaves the delivery tables alone. -/
inductive StoreStep (cfg : StoreConfig) (db : Db) : Option (OutboxCall cfg.py) → Db → Prop where
  | outbox {call : OutboxCall cfg.py} {reply : OutboxReply cfg.py} {db' : Db} :
      call.exec db = (reply, db') → StoreStep cfg db (some call) db'
  | log {db' : Db} : LogGrows cfg db.events db'.events → db'.outbox = db.outbox →
      db'.ambiguities = db.ambiguities → StoreStep cfg db none db'

/-- The store as a system, starting empty. -/
def storeSystem (cfg : StoreConfig) : System Db (Option (OutboxCall cfg.py)) :=
  ⟨fun db => db = Db.empty, fun db call db' => StoreStep cfg db call db'⟩

theorem step_store {call : Option (OutboxCall cfg.py)} {db db' : Db} (hi : StoreInv cfg db)
    (h : StoreStep cfg db call db') :
    StoreInv cfg db' ∧ LogGrows cfg db.events db'.events ∧ RequestsKept db db' := by
  cases h with
  | @outbox call reply _ hexec =>
    obtain ⟨hgrows, hkept⟩ := exec_requests hexec
    exact ⟨⟨hgrows.inv hi.log, (exec_life hi.outbox hexec).1, hkept.triggers hgrows hi.triggers⟩,
      hgrows, hkept⟩
  | log hgrows houtbox hambiguities =>
    have hkept : RequestsKept db db' := requestsKept_same (by rw [houtbox])
    exact ⟨⟨hgrows.inv hi.log, hi.outbox.congr houtbox hambiguities,
      hkept.triggers hgrows hi.triggers⟩, hgrows, hkept⟩

/-- **What a run keeps.** -/
theorem run_store {calls : List (Option (OutboxCall cfg.py))} {db db' : Db}
    (hrun : Run (storeSystem cfg) db calls db') (hi : StoreInv cfg db) :
    StoreInv cfg db' ∧ LogGrows cfg db.events db'.events ∧ RequestsKept db db' := by
  induction hrun with
  | done _ => exact ⟨hi, .refl, requestsKept_same rfl⟩
  | next hs _ ih =>
    obtain ⟨hi₁, hgrows, hkept⟩ := step_store hi hs
    obtain ⟨hi₂, hgrows', hkept'⟩ := ih hi₁
    exact ⟨hi₂, hgrows.trans hgrows', hkept.trans hgrows hgrows' hkept'⟩

theorem reachable_store {db : Db} (h : Reachable (storeSystem cfg) db) : StoreInv cfg db := by
  apply invariant_of_reachable (I := StoreInv cfg) _ _ h
  · intro s hs
    rw [show s = Db.empty from hs]
    exact storeInv_empty cfg
  · intro s call s' hi hs
    exact (step_store hi hs).1

/-! ## Retries over a run -/

/-- **An event and its messages stay on record** over every later run. -/
theorem committed_on_record {event : DomainEvent} {messages : List (OutboxMessage cfg.py)}
    {ev : Option Int} {reply : StoredEvent × List (StoredOutboxMessage cfg.py)} {db db₁ db₂ : Db}
    {calls : List (Option (OutboxCall cfg.py))} (hi : StoreInv cfg db)
    (hfirst : appendWithOutbox cfg event messages ev db = (.ok reply, db₁))
    (hnew : idempotentRow db.events event = none) (hreadable : ReadableEvent cfg event)
    (hafter : Run (storeSystem cfg) db₁ calls db₂) : OnRecord cfg event messages reply.1 db₂ := by
  obtain ⟨snap, batch, hsnap, hbatch, hcase⟩ := appendWithOutbox_requests hfirst
  have hevent := (snapshotEvent_ok hsnap).1
  have hsame : idempotentRow db.events snap.event = idempotentRow db.events event := by
    rw [hevent]
    rfl
  have hexec : (OutboxCall.enqueue event messages ev).exec db = (.enqueued reply.1 reply.2, db₁) := by
    rw [OutboxCall.exec, hfirst]
    rfl
  have hstep : StoreStep cfg db (some (.enqueue event messages ev)) db₁ := .outbox hexec
  obtain ⟨hi₁, -, -⟩ := step_store hi hstep
  obtain ⟨hi₂, hgrows, hkept⟩ := run_store hafter hi₁
  rcases hcase with ⟨row, hrow, -⟩ | ⟨-, hshown, hposition, hevents, -, hrequests⟩
  · rw [hsame, hnew] at hrow
    exact absurd hrow (by simp)
  -- the row the first call inserted is still there
  have hmem : snap.row reply.1.sequence reply.1.globalPosition ∈ db₂.events :=
    hgrows.mem (by rw [hevents]; simp)
  have hlast : reply.1.globalPosition ≤ maxOf (·.globalPosition) db₁.events := by
    rw [hevents, maxOf_append, maxOf_singleton]
    exact Nat.le_max_right _ _
  constructor
  · intro key hkey
    refine ⟨snap.row reply.1.sequence reply.1.globalPosition, ?_, ?_⟩
    · have hcolumn : (snap.row reply.1.sequence reply.1.globalPosition).idempotencyKey = some key := by
        rw [EventWriteSnapshot.row, hevent, hkey]
      have hfound := hi₂.log.findKey_eq hmem hcolumn
      rw [EventWriteSnapshot.row, hevent] at hfound
      rw [EventWriteSnapshot.row, hevent]
      exact hfound
    · have hseq := And.intro (hi₂.log.sequence_pos hmem) (hi₂.log.sequence_range hmem)
      have hrecorded : Recorded cfg event (snap.row reply.1.sequence reply.1.globalPosition) :=
        ⟨snap, hsnap, rfl⟩
      refine (hrecorded.reads hseq (hi₂.log.range _ hmem)).mpr ⟨hreadable, ?_⟩
      obtain ⟨stored, linked⟩ := reply
      obtain ⟨e, sequence, position⟩ := stored
      simp only at hshown
      rw [hshown, hevent]
      rfl
  · have hrowsOk : ∀ r ∈ triggeredRows db₂.outbox reply.1.globalPosition, OutboxReadable cfg r :=
      fun r hr => (hi₂.outbox.rows r (List.mem_filter.mp (mem_orderBy.mp hr)).1).readable
    obtain ⟨linked, hlinked, hall⟩ := readOutboxRows_all hrowsOk
    refine ⟨linked, hlinked, ?_⟩
    -- no delivery changed the requests, and no other event has this position
    have hfresh : ∀ q ∈ db.outbox.map requestOf, q.trigger ≠ reply.1.globalPosition := by
      intro q hq heq
      have := hi.triggers q hq
      omega
    have hrows := requestsAt_rows db₂.outbox reply.1.globalPosition
    rw [requestsAt_kept hkept hlast, hrequests, requestsAt_batch hfresh] at hrows
    exact requests_back (snapshotMessages_forall₂ hbatch) hrows hall

/-- **Messages that look different raise.** -/
theorem OnRecord.refuses {event event' : DomainEvent} {messages messages' : List (OutboxMessage cfg.py)}
    {ev' : Option Int} {stored : StoredEvent} {db : Db} {key : String}
    (h : OnRecord cfg event messages stored db) (hkey : event.idempotencyKey = some key)
    (hsame : event'.streamId = event.streamId ∧ event'.idempotencyKey = some key)
    (hdiffers : ¬List.Forall₂ (fun a b => looksSame a b = true) messages' messages) :
    ∃ e, appendWithOutbox cfg event' messages' ev' db = (.error e, db) := by
  obtain ⟨linked, hlinked, hcarries⟩ := h.messages
  cases hcall : appendWithOutbox cfg event' messages' ev' db with
  | mk r db' =>
    cases r with
    | ok reply =>
      obtain ⟨snap, batch, hsnap, hbatch, hcase⟩ := appendWithOutbox_requests hcall
      obtain ⟨row, hrow, hread⟩ := h.finds hkey hsame hsnap
      rcases hcase with ⟨row', hrow', hread', hlinked', hlooks, -⟩ | ⟨hnone, -⟩
      · rw [hrow] at hrow'
        obtain rfl := Option.some.inj hrow'
        rw [hread] at hread'
        rw [← Except.ok.inj hread', hlinked] at hlinked'
        rw [← Except.ok.inj hlinked'] at hlooks
        exact absurd ((sameRequests_iff (snapshotMessages_forall₂ hbatch) hcarries).mp hlooks) hdiffers
      · rw [hrow] at hnone
        exact absurd hnone (by simp)
    | error e =>
      have hraised : (OutboxCall.enqueue event' messages' ev').exec db = (.raised e, db') := by
        rw [OutboxCall.exec, hcall]
        rfl
      rw [exec_raised hraised]
      exact ⟨e, rfl⟩

end Runs

section Retried

/-- SQLite as it documents its dates. -/
local instance retriedTime : SqliteTime := .milliseconds

theorem keyedEvent_required : (isBlank "s" || isBlank "note" || isBlank "a") = false := by decide

def keyedEvent : DomainEvent :=
  ⟨"s", "note", .dict [], "a", "e1", "2024-01-01T00:00:00Z", none, none, some "key", keyedEvent_required⟩

/-- A message, by its payload and its availability. -/
def messageOf (payload : Value) (available : String)
    (h : checkMessage storeConfig.py "d" "m1" "m1" available "2024-01-01T00:00:00Z" = .ok () := by
      decide +kernel) : OutboxMessage storeConfig.py :=
  ⟨"d", payload, .dict [], "m1", "m1", available, "2024-01-01T00:00:00Z", h⟩

theorem flagged_checked : checkMessage storeConfig.py "d" "m1" "m1" "2024-01-01T00:00:00Z"
    "2024-01-01T00:00:00Z" = .ok () := by
  decide +kernel

/-- The flag of a message is on. -/
def flagged : OutboxMessage storeConfig.py :=
  messageOf (.dict [("n", .bool true)]) "2024-01-01T00:00:00Z" flagged_checked

/-- The flag is a number, and the message may wait a day. -/
def numbered : OutboxMessage storeConfig.py :=
  messageOf (.dict [("n", .int 1)]) "2024-01-02T00:00:00Z"

def flaggedDb : Db := (appendWithOutbox storeConfig keyedEvent [flagged] none Db.empty).2

theorem returned_of_isOk {α : Type} {x : Except StoreError α × Db} (h : x.1.isOk = true) :
    ∃ a, x = (.ok a, x.2) := by
  obtain ⟨_ | a, db⟩ := x
  · cases h
  · exact ⟨a, rfl⟩

theorem flagged_ok :
    ∃ reply, appendWithOutbox storeConfig keyedEvent [flagged] none Db.empty = (.ok reply, flaggedDb) :=
  returned_of_isOk (by decide +kernel)

theorem flagged_accepted : Accepted storeConfig keyedEvent [flagged] none := by
  obtain ⟨reply, hcall⟩ := flagged_ok
  obtain ⟨snap, batch, hsnap, hbatch, -⟩ := appendWithOutbox_requests hcall
  exact ⟨⟨snap, hsnap⟩, ⟨batch, hbatch⟩, none, rfl⟩

end Retried

end QuantumEntanglement.Outbox
