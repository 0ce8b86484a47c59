import QuantumEntanglement.Delivery
import QuantumEntanglement.Store.LogInvariant

/-
  The inbox — one receipt for each message a consumer admitted

  `appendInbox` looks the receipt of `(consumer, message)` up first: a second
  call returns the stored receipt and the event it points at, and looks at
  nothing else of what it was given. The first call appends the event and
  inserts the receipt in one transaction. It writes `received_at` as the
  caller spelled it; the reader wants a timestamp there.

  What is proved here: `appendInbox_ok` and `appendInbox_retry`, what a call
  that returned did, and when a second call returns; `rowToInbox_ok`, what a
  readable receipt is.
-/

namespace QuantumEntanglement

open Transaction PyJson PyText

/-- `_row_to_inbox`. -/
def rowToInbox (cfg : StoreConfig) (row : InboxRow) : Except StoreError InboxReceipt :=
  asMalformed "persisted inbox row is malformed" do
    let receivedAt ← persistedText row.receivedAt "inbox received_at" true
    let _ ← normalizeTimestamp cfg.py receivedAt "persisted inbox received_at"
    let consumerId ← persistedText row.consumerId "inbox consumer_id" true
    let messageId ← persistedText row.messageId "inbox message_id" true
    let eventId ← persistedText row.eventId "inbox event_id" true
    let position ← persistedInteger row.eventGlobalPosition "inbox event_global_position" 1
    let result ← decodeJsonObject cfg.maxJsonBytes row.resultJson "inbox result"
    .ok ⟨consumerId, messageId, receivedAt, eventId, position, result⟩

/-- The receipt of a pair: its columns are the primary key. -/
def findReceipt (rows : List InboxRow) (consumerId messageId : String) : Option InboxRow :=
  rows.find? (fun r => r.consumerId = consumerId && r.messageId = messageId)

/-- The event at a position. -/
def eventAt (rows : List EventRow) (position : Nat) : Option EventRow :=
  rows.find? (fun r => r.globalPosition = position)

/-- `INSERT INTO inbox_receipts`. -/
def insertReceipt (row : InboxRow) : DbTxn Unit := do
  let taken ← Txn.query (fun db => findReceipt db.inbox row.consumerId row.messageId)
  Txn.ensure (taken = none) ⟨.sqliteIntegrity, "UNIQUE constraint failed: inbox_receipts"⟩
  Txn.update (fun db => { db with inbox := db.inbox ++ [row] })

/-- The answer to a pair that has a receipt. -/
def replayInbox (cfg : StoreConfig) (row : InboxRow) : DbTxn InboxAppendResult := do
  let receipt ← Txn.lift (rowToInbox cfg row)
  match ← Txn.query (fun db => eventAt db.events receipt.eventGlobalPosition) with
  | none => Txn.raise ⟨.runtimeError, "inbox receipt references a missing event"⟩
  | some r =>
    let event ← Txn.lift (rowToEvent cfg r)
    pure ⟨event, receipt, true⟩

/-- `append_inbox`. A result that is left out is `{}`, a time that is left out
is what `utc_now` returns at `now`. -/
def appendInbox (cfg : StoreConfig) (consumerId messageId : String) (event : DomainEvent)
    (result : Option Value) (receivedAt : Option String) (expectedVersion : Option Int)
    (now : UtcMoment) : DbTxn InboxAppendResult := do
  let consumerId ← Txn.lift (callerText consumerId "consumer_id" true)
  let messageId ← Txn.lift (callerText messageId "message_id" true)
  let snap ← Txn.lift (snapshotEvent cfg event)
  let result ← Txn.lift (snapshotJsonObject cfg.maxJsonBytes (result.getD (.dict [])) "inbox result")
  let receivedAt ← Txn.lift (callerText (receivedAt.getD (utcNow now)) "received_at" false)
  let version ← Txn.lift (callerExpectedVersion expectedVersion)
  Txn.atomically do
    match ← Txn.query (fun db => findReceipt db.inbox consumerId messageId) with
    | some row => replayInbox cfg row
    | none =>
      let (stored, _) ← appendInTransaction cfg snap version none
      insertReceipt ⟨consumerId, messageId, receivedAt, stored.event.eventId, stored.globalPosition,
        result.encoded⟩
      pure ⟨stored, ⟨consumerId, messageId, receivedAt, stored.event.eventId, stored.globalPosition,
        result.value⟩, false⟩

/-! ## What a call that returned did -/

theorem rowToInbox_ok {cfg : StoreConfig} {row : InboxRow} {receipt : InboxReceipt} :
    rowToInbox cfg row = .ok receipt ↔
      TimestampOk cfg.py row.receivedAt ∧
      (isBlank row.consumerId = false ∧ isBlank row.messageId = false ∧
        isBlank row.eventId = false) ∧
      (1 ≤ row.eventGlobalPosition ∧ row.eventGlobalPosition ≤ maxSqliteInteger) ∧
      ∃ result, decodeJsonObject cfg.maxJsonBytes row.resultJson "inbox result" = .ok result ∧
        receipt = ⟨row.consumerId, row.messageId, row.receivedAt, row.eventId,
          row.eventGlobalPosition, result⟩ := by
  simp only [rowToInbox, asMalformed_ok, except_bind_ok, persistedText_ok, persistedInteger_ok,
    Except.ok.injEq, true_implies]
  constructor
  · rintro ⟨_, ⟨-, rfl⟩, _, hts, _, ⟨hc, rfl⟩, _, ⟨hm, rfl⟩, _, ⟨he, rfl⟩, _, ⟨hp, rfl⟩, result, hr,
      rfl⟩
    exact ⟨normalizeTimestamp_accepts.mp ⟨_, hts⟩, ⟨hc, hm, he⟩, hp, result, hr, rfl⟩
  · rintro ⟨hts, ⟨hc, hm, he⟩, hp, result, hr, rfl⟩
    obtain ⟨text, htext⟩ := normalizeTimestamp_accepts.mpr hts
    exact ⟨_, ⟨timestampOk_nonBlank hts, rfl⟩, text, htext, _, ⟨hc, rfl⟩, _, ⟨hm, rfl⟩, _,
      ⟨he, rfl⟩, _, ⟨hp, rfl⟩, result, hr, rfl⟩

/-- What the first call for a pair writes, and returns. -/
structure FirstReceipt (cfg : StoreConfig) (db db' : Db) (row : InboxRow)
    (reply : InboxAppendResult) : Prop where
  fresh : findReceipt db.inbox row.consumerId row.messageId = none
  inbox : db'.inbox = db.inbox ++ [row]
  others : db' = { db with events := db'.events, inbox := db'.inbox }
  pair : isBlank row.consumerId = false ∧ isBlank row.messageId = false
  event : row.eventId = reply.event.event.eventId ∧
    row.eventGlobalPosition = reply.event.globalPosition
  decodes : ∀ field, decodeJsonObject cfg.maxJsonBytes row.resultJson field = .ok reply.receipt.result
  receipt : reply.receipt = ⟨row.consumerId, row.messageId, row.receivedAt, row.eventId,
    row.eventGlobalPosition, reply.receipt.result⟩
  first : reply.duplicate = false

theorem insertReceipt_ok {row : InboxRow} {u : Unit} {db db' : Db} :
    insertReceipt row db = (.ok u, db') ↔
      findReceipt db.inbox row.consumerId row.messageId = none ∧
        db' = { db with inbox := db.inbox ++ [row] } := by
  simp only [insertReceipt, Txn.bind_ok, Txn.query_ok, Txn.ensure_ok, Txn.update_ok]
  constructor
  · rintro ⟨_, _, ⟨rfl, rfl⟩, _, _, ⟨hfresh, rfl⟩, rfl⟩
    exact ⟨hfresh, rfl⟩
  · rintro ⟨hfresh, rfl⟩
    exact ⟨_, _, ⟨rfl, rfl⟩, (), _, ⟨hfresh, rfl⟩, rfl⟩

theorem replayInbox_ok {cfg : StoreConfig} {row : InboxRow} {reply : InboxAppendResult} {db db' : Db} :
    replayInbox cfg row db = (.ok reply, db') ↔
      db' = db ∧ ∃ receipt r event, rowToInbox cfg row = .ok receipt ∧
        eventAt db.events receipt.eventGlobalPosition = some r ∧ rowToEvent cfg r = .ok event ∧
        reply = ⟨event, receipt, true⟩ := by
  simp only [replayInbox, Txn.bind_ok, Txn.lift_ok, Txn.query_ok]
  constructor
  · rintro ⟨receipt, _, ⟨hrow, rfl⟩, found, _, ⟨hfound, rfl⟩, h⟩
    cases found with
    | none => simp at h
    | some r =>
      simp only [Txn.bind_ok, Txn.lift_ok, Txn.pure_ok] at h
      obtain ⟨event, _, ⟨hevent, rfl⟩, rfl, rfl⟩ := h
      exact ⟨rfl, receipt, r, event, hrow, hfound, hevent, rfl⟩
  · rintro ⟨rfl, receipt, r, event, hrow, hfound, hevent, rfl⟩
    refine ⟨receipt, _, ⟨hrow, rfl⟩, some r, _, ⟨hfound, rfl⟩, ?_⟩
    simp only [Txn.bind_ok, Txn.lift_ok, Txn.pure_ok]
    exact ⟨event, _, ⟨hevent, rfl⟩, rfl, rfl⟩

/-- A call replayed the receipt the pair has, or appended the event and the
pair's first receipt. -/
theorem appendInbox_ok {cfg : StoreConfig} {consumerId messageId : String} {event : DomainEvent}
    {result : Option Value} {receivedAt : Option String} {expectedVersion : Option Int}
    {now : UtcMoment} {reply : InboxAppendResult} {db db' : Db}
    (h : appendInbox cfg consumerId messageId event result receivedAt expectedVersion now db =
      (.ok reply, db')) :
    ∃ snap, snapshotEvent cfg event = .ok snap ∧
      ((∃ row, findReceipt db.inbox consumerId messageId = some row ∧
          replayInbox cfg row db = (.ok reply, db')) ∨
        ∃ row db₁ inserted, row.consumerId = consumerId ∧ row.messageId = messageId ∧
          row.receivedAt = receivedAt.getD (utcNow now) ∧
          appendInTransaction cfg snap expectedVersion none db =
            (.ok (reply.event, inserted), db₁) ∧
          db'.events = db₁.events ∧ FirstReceipt cfg db db' row reply) := by
  simp only [appendInbox, Txn.bind_ok, Txn.lift_ok, Txn.atomically_ok, Txn.query_ok,
    callerText_ok, true_implies] at h
  obtain ⟨c, _, ⟨⟨hc, hceq⟩, rfl⟩, m, _, ⟨⟨hm, hmeq⟩, rfl⟩, snap, _, ⟨hsnap, rfl⟩, res, _,
    ⟨hres, rfl⟩, _, _, ⟨⟨-, rfl⟩, rfl⟩, version, _, ⟨hv, rfl⟩, found, _, ⟨hfound, rfl⟩, h⟩ := h
  obtain rfl := callerExpectedVersion_ok hv
  subst hceq hmeq
  refine ⟨snap, hsnap, ?_⟩
  cases found with
  | some row => exact .inl ⟨row, hfound, h⟩
  | none =>
    simp only [Txn.bind_ok, Txn.pure_ok, Prod.exists, insertReceipt_ok] at h
    obtain ⟨stored, inserted, db₁, happ, _, _, ⟨hfresh, rfl⟩, rfl, rfl⟩ := h
    have hsame : db₁ = { db with events := db₁.events } := by
      rcases appendInTransaction_ok happ with ⟨-, -, -, -, -, hins⟩ | ⟨-, rfl, -⟩
      · obtain ⟨-, -, -, rfl⟩ := insertEvent_ok.mp hins
        rfl
      · rfl
    refine .inr ⟨⟨c, m, receivedAt.getD (utcNow now), stored.event.eventId, stored.globalPosition,
      res.encoded⟩, db₁, inserted, rfl, rfl, rfl, happ, rfl, hfound, ?_, ?_, ⟨hc, hm⟩, ⟨rfl, rfl⟩, fun field => decode_snapshot hres field, rfl, rfl⟩
    · rw [hsame]
    · rw [hsame]

/-- **A second call with acceptable arguments answers from the stored
receipt.** -/
theorem appendInbox_retry {cfg : StoreConfig} {consumerId messageId : String} {event : DomainEvent}
    {result : Option Value} {receivedAt : Option String} {expectedVersion : Option Int}
    {now : UtcMoment} {row : InboxRow} {db : Db} {snap : EventWriteSnapshot}
    {res : JsonObjectSnapshot} {version : Option Int}
    (hpair : isBlank consumerId = false ∧ isBlank messageId = false)
    (hsnap : snapshotEvent cfg event = .ok snap)
    (hres : snapshotJsonObject cfg.maxJsonBytes (result.getD (.dict [])) "inbox result" = .ok res)
    (hversion : callerExpectedVersion expectedVersion = .ok version)
    (hrow : findReceipt db.inbox consumerId messageId = some row) (reply : InboxAppendResult) :
    appendInbox cfg consumerId messageId event result receivedAt expectedVersion now db =
        (.ok reply, db) ↔ replayInbox cfg row db = (.ok reply, db) := by
  simp only [appendInbox, Txn.bind_ok, Txn.lift_ok, Txn.atomically_ok, Txn.query_ok,
    callerText_ok]
  constructor
  · rintro ⟨_, _, ⟨⟨-, rfl⟩, rfl⟩, _, _, ⟨⟨-, rfl⟩, rfl⟩, _, _, ⟨-, rfl⟩, _, _, ⟨-, rfl⟩, _, _,
      ⟨⟨-, rfl⟩, rfl⟩, _, _, ⟨-, rfl⟩, found, _, ⟨hfound, rfl⟩, h⟩
    rw [hrow] at hfound
    subst hfound
    exact h
  · intro h
    exact ⟨_, _, ⟨⟨fun _ => hpair.1, rfl⟩, rfl⟩, _, _, ⟨⟨fun _ => hpair.2, rfl⟩, rfl⟩, _, _,
      ⟨hsnap, rfl⟩, _, _, ⟨hres, rfl⟩, _, _, ⟨⟨by simp, rfl⟩, rfl⟩, _, _, ⟨hversion, rfl⟩, _, _,
      ⟨hrow, rfl⟩, h⟩

end QuantumEntanglement
