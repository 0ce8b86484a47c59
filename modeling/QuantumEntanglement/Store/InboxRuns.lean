import QuantumEntanglement.Store.LogRuns

/-
  Runs of the inbox — any consumers, any order of calls

  A label of `inboxSystem` is a call of `append_inbox`, or any other write to
  the log, which leaves the receipts alone. The first call for a pair writes
  its receipt as it was given; a later call answers from what the row reader
  makes of it. The reader checks the time of receipt and the event's identifier
  and timestamp, which the first call did not.

  What is proved:
    1. `step_keeps`, `reachable_inv` — receipts are only added, one a pair, and
       each names an event of the log.
    2. `first_commits` — the first call commits the event and the receipt.
    3. `retry_answers_iff` — when a later call returns the original.
    4. `unreadable_receipt` — a receipt that makes every later call raise.
-/

namespace QuantumEntanglement.Inbox

open Transaction TransitionSystem PyJson PyText Log

variable {cfg : StoreConfig}

/-! ## The system -/

/-- A call that writes to the inbox, or to the log beside it. -/
inductive InboxCall where
  | receive (consumerId messageId : String) (event : DomainEvent) (result : Option Value)
      (receivedAt : Option String) (expectedVersion : Option Int) (now : UtcMoment)
  | other (events : List DomainEvent)

/-- What a call may do, whether it returns or raises. -/
inductive InboxStep (cfg : StoreConfig) (db : Db) : InboxCall → Db → Prop where
  | receive {c m : String} {e : DomainEvent} {result : Option Value} {receivedAt : Option String}
      {ev : Option Int} {now : UtcMoment} {reply : Except StoreError InboxAppendResult} {db' : Db} :
      appendInbox cfg c m e result receivedAt ev now db = (reply, db') →
      InboxStep cfg db (.receive c m e result receivedAt ev now) db'
  | other {es : List DomainEvent} {db' : Db} :
      Records cfg es db db' → db'.inbox = db.inbox → InboxStep cfg db (.other es) db'

/-- The inbox as a system: one call at a time, by anyone. -/
def inboxSystem (cfg : StoreConfig) : System Db InboxCall :=
  ⟨fun db => db = Db.empty, fun db call db' => InboxStep cfg db call db'⟩

/-! ## Receipts are only added -/

/-- Two receipts of one pair. -/
def SamePair (a b : InboxRow) : Prop := a.consumerId = b.consumerId ∧ a.messageId = b.messageId

/-- One receipt a pair, each with an event of the log. -/
structure InboxInv (db : Db) : Prop where
  log : LogInv db.events
  pairs : db.inbox.Pairwise (fun a b => ¬SamePair a b)
  events : ∀ receipt ∈ db.inbox, ∃ row ∈ db.events,
    row.globalPosition = receipt.eventGlobalPosition ∧ row.eventId = receipt.eventId

/-- The log grew and receipts were added. -/
structure Keeps (cfg : StoreConfig) (db db' : Db) : Prop where
  grows : LogGrows cfg db.events db'.events
  receipts : ∃ new, db'.inbox = db.inbox ++ new

theorem Keeps.refl (db : Db) : Keeps cfg db db := ⟨.refl, [], by simp⟩

theorem Keeps.trans {a b c : Db} (h : Keeps cfg a b) (h' : Keeps cfg b c) : Keeps cfg a c := by
  obtain ⟨new, hnew⟩ := h.receipts
  obtain ⟨more, hmore⟩ := h'.receipts
  exact ⟨h.grows.trans h'.grows, new ++ more, by rw [hmore, hnew, List.append_assoc]⟩

/-- A call that raises changes nothing. -/
theorem appendInbox_restores (cfg : StoreConfig) (c m : String) (e : DomainEvent)
    (result : Option Value) (receivedAt : Option String) (ev : Option Int) (now : UtcMoment) :
    Txn.Restores (appendInbox cfg c m e result receivedAt ev now) :=
  .bind (by simp) fun _ => .bind (by simp) fun _ => .bind (by simp) fun _ => .bind (by simp) fun _ =>
    .bind (by simp) fun _ => .bind (by simp) fun _ => .atomically _

theorem findReceipt_none {rows : List InboxRow} {c m : String} :
    findReceipt rows c m = none ↔ ∀ r ∈ rows, ¬(r.consumerId = c ∧ r.messageId = m) := by
  simp [findReceipt]

/-- What a row that was read shows. -/
theorem read_columns {row : EventRow} {stored : StoredEvent} (h : rowToEvent cfg row = .ok stored) :
    stored.globalPosition = row.globalPosition ∧ stored.event.eventId = row.eventId ∧
      isBlank row.eventId = false := by
  obtain ⟨-, hid, ⟨payload, e, -, hmake, rfl⟩, -⟩ := rowToEvent_ok.mp h
  unfold DomainEvent.make at hmake
  split at hmake
  · obtain rfl := Except.ok.inj hmake
    exact ⟨rfl, rfl, hid⟩
  · cases hmake

theorem idempotentRow_mem {rows : List EventRow} {e : DomainEvent} {row : EventRow}
    (h : idempotentRow rows e = some row) : row ∈ rows := by
  unfold idempotentRow at h
  split at h
  · cases h
  · exact (findKey_mem h).1

/-- The event a call returned stands in the log it left. -/
theorem appended_row {snap : EventWriteSnapshot} {ev egp : Option Int} {stored : StoredEvent}
    {inserted : Bool} {db db' : Db}
    (h : appendInTransaction cfg snap ev egp db = (.ok (stored, inserted), db')) :
    ∃ row ∈ db'.events, row.globalPosition = stored.globalPosition ∧
      row.eventId = stored.event.eventId := by
  rcases appendInTransaction_ok h with ⟨-, -, -, -, hst, hins⟩ | ⟨-, rfl, row, hrow, hread⟩
  · obtain ⟨-, -, -, rfl⟩ := insertEvent_ok.mp hins
    refine ⟨snap.row stored.sequence stored.globalPosition, by simp, rfl, ?_⟩
    rw [hst]
    rfl
  · obtain ⟨hposition, hid, -⟩ := read_columns hread
    exact ⟨row, idempotentRow_mem hrow, hposition.symm, hid.symm⟩

/-- **The first call for a pair commits the event and the receipt.** -/
structure FirstCommit (cfg : StoreConfig) (e : DomainEvent) (db db' : Db) (row : InboxRow)
    (reply : InboxAppendResult) : Prop where
  records : Records cfg [e] db db'
  receipt : FirstReceipt cfg db db' row reply
  event : ∃ r ∈ db'.events, r.globalPosition = row.eventGlobalPosition ∧ r.eventId = row.eventId

theorem first_commits {c m : String} {e : DomainEvent} {result : Option Value}
    {receivedAt : Option String} {ev : Option Int} {now : UtcMoment} {reply : InboxAppendResult}
    {db db' : Db} (h : appendInbox cfg c m e result receivedAt ev now db = (.ok reply, db')) :
    db' = db ∨ ∃ row, row.consumerId = c ∧ row.messageId = m ∧
      row.receivedAt = receivedAt.getD (utcNow now) ∧ FirstCommit cfg e db db' row reply := by
  obtain ⟨snap, hsnap, ⟨row, -, hreplay⟩ | ⟨row, db₁, inserted, hc, hm, hat, happ, hevents, hfirst⟩⟩ :=
    appendInbox_ok h
  · exact .inl (replayInbox_ok.mp hreplay).1
  · have hrecords := records_append hsnap happ
    obtain ⟨r, hr, hposition, hid⟩ := appended_row happ
    refine .inr ⟨row, hc, hm, hat, ⟨?_, ?_⟩, hfirst, r, by rw [hevents]; exact hr, ?_, ?_⟩
    · rw [hevents]; exact hrecords.grows
    · rw [hevents]; exact hrecords.made
    · rw [hposition, hfirst.event.2]
    · rw [hid, hfirst.event.1]

/-- **A call only adds to the log and to the receipts.** -/
theorem step_keeps {call : InboxCall} {db db' : Db} (h : InboxStep cfg db call db') :
    Keeps cfg db db' := by
  cases h with
  | @receive c m e result receivedAt ev now reply _ hrun =>
    cases reply with
    | ok reply =>
      rcases first_commits hrun with rfl | ⟨row, -, -, -, hfirst⟩
      · exact Keeps.refl _
      · exact ⟨hfirst.records.grows, [row], hfirst.receipt.inbox⟩
    | error err =>
      rw [appendInbox_restores cfg c m e result receivedAt ev now _ _ _ hrun]
      exact Keeps.refl _
  | other hrecords hinbox => exact ⟨hrecords.grows, [], by rw [hinbox, List.append_nil]⟩

theorem run_keeps {calls : List InboxCall} {db db' : Db} (h : Run (inboxSystem cfg) db calls db') :
    Keeps cfg db db' :=
  h.relates Keeps.refl (fun _ _ _ => Keeps.trans) (fun _ _ _ => step_keeps)

/-- A log that grew holds the events the receipts name. -/
theorem InboxInv.grown {db db' : Db} (h : InboxInv db) (hgrows : LogGrows cfg db.events db'.events)
    (hinbox : db'.inbox = db.inbox) : InboxInv db' := by
  refine ⟨hgrows.inv h.log, hinbox ▸ h.pairs, fun receipt hreceipt => ?_⟩
  obtain ⟨row, hrow, hcolumns⟩ := h.events receipt (hinbox ▸ hreceipt)
  exact ⟨row, hgrows.mem hrow, hcolumns⟩

theorem step_inv {call : InboxCall} {db db' : Db} (hi : InboxInv db) (h : InboxStep cfg db call db') :
    InboxInv db' := by
  cases h with
  | @receive c m e result receivedAt ev now reply _ hrun =>
    cases reply with
    | ok reply =>
      rcases first_commits hrun with rfl | ⟨row, -, -, -, hfirst⟩
      · exact hi
      · refine ⟨hfirst.records.grows.inv hi.log, ?_, ?_⟩
        · rw [hfirst.receipt.inbox, List.pairwise_append]
          refine ⟨hi.pairs, List.pairwise_singleton _ _, fun a ha b hb hsame => ?_⟩
          rw [List.mem_singleton] at hb
          subst hb
          exact findReceipt_none.mp hfirst.receipt.fresh a ha hsame
        · intro receipt hreceipt
          rw [hfirst.receipt.inbox] at hreceipt
          rcases List.mem_append.mp hreceipt with hold | hnew
          · obtain ⟨r, hr, hcolumns⟩ := hi.events receipt hold
            exact ⟨r, hfirst.records.grows.mem hr, hcolumns⟩
          · rw [List.mem_singleton] at hnew
            subst hnew
            exact hfirst.event
    | error err =>
      rw [appendInbox_restores cfg c m e result receivedAt ev now _ _ _ hrun]
      exact hi
  | other hrecords hinbox => exact hi.grown hrecords.grows hinbox

theorem inboxInv_empty : InboxInv Db.empty :=
  ⟨logInv_nil, .nil, fun _ h => absurd h List.not_mem_nil⟩

/-- **In every reachable state a pair has one receipt, and it names an event.** -/
theorem reachable_inv {db : Db} (h : Reachable (inboxSystem cfg) db) : InboxInv db :=
  invariant_of_reachable (fun _ hstart => hstart ▸ inboxInv_empty) (fun _ _ _ => step_inv) h

/-! ## What a later call answers -/

theorem findReceipt_kept {rows new : List InboxRow} {row : InboxRow} {c m : String}
    (h : findReceipt rows c m = some row) : findReceipt (rows ++ new) c m = some row := by
  rw [findReceipt, List.find?_append]
  rw [findReceipt] at h
  rw [h, Option.some_or]

theorem findReceipt_first {rows : List InboxRow} {row : InboxRow}
    (h : findReceipt rows row.consumerId row.messageId = none) :
    findReceipt (rows ++ [row]) row.consumerId row.messageId = some row := by
  rw [findReceipt] at h
  rw [findReceipt, List.find?_append, h, Option.none_or, List.find?_cons_of_pos (by simp)]

/-- The event at the position of a row. -/
theorem eventAt_of_mem {rows : List EventRow} (h : LogInv rows) {r : EventRow} (hr : r ∈ rows) :
    eventAt rows r.globalPosition = some r := by
  have hfound : ∃ q, eventAt rows r.globalPosition = some q := by
    rw [← Option.isSome_iff_exists, eventAt, List.find?_isSome]
    exact ⟨r, hr, by simp⟩
  obtain ⟨q, hq⟩ := hfound
  rw [hq, h.position_inj (List.mem_of_find?_eq_some hq) hr (by simpa using List.find?_some hq)]

/-- When the first call's event can be read back: it was in the log and was
read there, or it can be read. -/
theorem event_reads_iff {e : DomainEvent} {snap : EventWriteSnapshot} {ev egp : Option Int}
    {stored : StoredEvent} {inserted : Bool} {db db₁ : Db} (hi : LogInv db₁.events)
    (hsnap : snapshotEvent cfg e = .ok snap)
    (h : appendInTransaction cfg snap ev egp db = (.ok (stored, inserted), db₁)) :
    ∃ r ∈ db₁.events, r.globalPosition = stored.globalPosition ∧ r.eventId = stored.event.eventId ∧
      (rowToEvent cfg r = .ok stored ↔
        (idempotentRow db.events e = none → ReadableEvent cfg e)) ∧
      ((idempotentRow db.events e = none → ReadableEvent cfg e) → isBlank r.eventId = false) := by
  have hfind : idempotentRow db.events snap.event = idempotentRow db.events e := by
    rw [(snapshotEvent_ok hsnap).1]
    rfl
  rcases appendInTransaction_ok h with ⟨-, hnone, -, -, hst, hins⟩ | ⟨-, rfl, row, hrow, hread⟩
  · obtain ⟨-, -, -, rfl⟩ := insertEvent_ok.mp hins
    have hmem : snap.row stored.sequence stored.globalPosition ∈
        db.events ++ [snap.row stored.sequence stored.globalPosition] := by simp
    have hmade : Recorded cfg e (snap.row stored.sequence stored.globalPosition) := ⟨snap, hsnap, rfl⟩
    have hreads := @Recorded.reads cfg e _ stored hmade
      ⟨hi.sequence_pos hmem, hi.sequence_range hmem⟩ (hi.range _ hmem)
    have hevent : stored.event = e.normalized := by
      rw [hst]
      exact (snapshotEvent_ok hsnap).1
    have hid : snap.event.eventId = e.eventId := by rw [(snapshotEvent_ok hsnap).1]
    rw [hfind] at hnone
    refine ⟨_, hmem, rfl, by rw [hst]; rfl, ?_, fun hcond => ?_⟩
    · rw [hreads]
      constructor
      · exact fun hok _ => hok.1
      · intro hcond
        refine ⟨hcond hnone, ?_⟩
        rw [← hevent]
        rfl
    · show isBlank snap.event.eventId = false
      rw [hid]
      exact (hcond hnone).1
  · obtain ⟨hposition, hid, hblank⟩ := read_columns hread
    rw [hfind] at hrow
    refine ⟨row, idempotentRow_mem hrow, hposition.symm, hid.symm, ?_, fun _ => hblank⟩
    simp [hread, hrow]

/-- When the receipt and the event of a first call answer a later one. -/
theorem replay_iff {row : InboxRow} {r : EventRow} {reply : InboxAppendResult} {db : Db}
    (hlog : LogInv db.events) (hr : r ∈ db.events)
    (hposition : r.globalPosition = row.eventGlobalPosition)
    (hpair : isBlank row.consumerId = false ∧ isBlank row.messageId = false)
    (hdecodes : ∀ field, decodeJsonObject cfg.maxJsonBytes row.resultJson field =
      .ok reply.receipt.result)
    (hreceipt : reply.receipt = ⟨row.consumerId, row.messageId, row.receivedAt, row.eventId,
      row.eventGlobalPosition, reply.receipt.result⟩) :
    replayInbox cfg row db = (.ok ⟨reply.event, reply.receipt, true⟩, db) ↔
      TimestampOk cfg.py row.receivedAt ∧ isBlank row.eventId = false ∧
        rowToEvent cfg r = .ok reply.event := by
  have hat : eventAt db.events row.eventGlobalPosition = some r := by
    rw [← hposition]
    exact eventAt_of_mem hlog hr
  have hrange := hlog.range r hr
  rw [hposition] at hrange
  rw [replayInbox_ok]
  constructor
  · rintro ⟨-, receipt, q, event, hread, hq, hevent, heq⟩
    obtain ⟨hts, ⟨-, -, hid⟩, -, result, -, rfl⟩ := rowToInbox_ok.mp hread
    rw [hat] at hq
    obtain rfl := Option.some.inj hq
    rw [InboxAppendResult.mk.injEq] at heq
    exact ⟨hts, hid, by rw [hevent, heq.1]⟩
  · rintro ⟨hts, hid, hevent⟩
    refine ⟨rfl, reply.receipt, r, reply.event, ?_, ?_, hevent, rfl⟩
    · exact rowToInbox_ok.mpr ⟨hts, ⟨hpair.1, hpair.2, hid⟩, hrange, _, hdecodes _, hreceipt⟩
    · rw [hreceipt]
      exact hat

/-- **A pair is answered once.** Receipts are one a pair; the first call that
returns commits its receipt with the event; and a later call with acceptable
arguments returns the original event and receipt, and changes nothing, exactly
when the first call's time of receipt is one the row reader accepts, and so are
the identifier and the timestamp of the event, if the call inserted it. -/
theorem retry_answers_iff {c m : String} {e : DomainEvent} {result result' : Option Value}
    {receivedAt receivedAt' : Option String} {ev ev' : Option Int} {now now' : UtcMoment}
    {reply : InboxAppendResult} {calls : List InboxCall} {db db₁ db₂ : Db}
    (hreach : Reachable (inboxSystem cfg) db) (hnew : findReceipt db.inbox c m = none)
    (hfirst : appendInbox cfg c m e result receivedAt ev now db = (.ok reply, db₁))
    (hrun : Run (inboxSystem cfg) db₁ calls db₂)
    (hresult : ∃ res, snapshotJsonObject cfg.maxJsonBytes (result'.getD (.dict [])) "inbox result" =
      .ok res)
    (hversion : ∃ v, callerExpectedVersion ev' = .ok v) :
    db₂.inbox.Pairwise (fun a b => ¬SamePair a b) ∧ reply.duplicate = false ∧
      (∃ row, row.consumerId = c ∧ row.messageId = m ∧ row ∈ db₂.inbox ∧
        FirstCommit cfg e db db₁ row reply) ∧
      (appendInbox cfg c m e result' receivedAt' ev' now' db₂ =
          (.ok ⟨reply.event, reply.receipt, true⟩, db₂) ↔
        TimestampOk cfg.py (receivedAt.getD (utcNow now)) ∧
          (idempotentRow db.events e = none → ReadableEvent cfg e)) := by
  have hinv := reachable_inv hreach
  have hinv₁ := step_inv hinv (.receive hfirst)
  have hinv₂ := Run.invariant (S := inboxSystem cfg) (I := InboxInv) (fun _ _ _ => step_inv) hrun hinv₁
  have hkeeps := run_keeps hrun
  obtain ⟨new, hreceipts⟩ := hkeeps.receipts
  obtain ⟨snap, hsnap, ⟨row, hfound, -⟩ | ⟨row, mid, inserted, rfl, rfl, hat, happ, hevents, hreceipt⟩⟩ :=
    appendInbox_ok hfirst
  · rw [hnew] at hfound
    cases hfound
  · obtain ⟨r, hr, hposition, hid, hreads, hblank⟩ :=
      event_reads_iff (hevents ▸ hinv₁.log) hsnap happ
    rw [← hevents] at hr
    have hrecords := records_append hsnap happ
    have hcommit : FirstCommit cfg e db db₁ row reply :=
      ⟨⟨hevents ▸ hrecords.grows, fun q hq => hrecords.made q (hevents ▸ hq)⟩, hreceipt, r, hr,
        by rw [hposition, hreceipt.event.2], by rw [hid, hreceipt.event.1]⟩
    have hfound : findReceipt db₂.inbox row.consumerId row.messageId = some row := by
      rw [hreceipts, hreceipt.inbox]
      exact findReceipt_kept (findReceipt_first hreceipt.fresh)
    refine ⟨hinv₂.pairs, hreceipt.first, ⟨row, rfl, rfl, ?_, hcommit⟩, ?_⟩
    · rw [hreceipts, hreceipt.inbox]
      simp
    · obtain ⟨res, hres⟩ := hresult
      obtain ⟨version, hversion⟩ := hversion
      rw [appendInbox_retry hreceipt.pair hsnap hres hversion hfound,
        replay_iff hinv₂.log (hkeeps.grows.mem hr) (by rw [hposition, hreceipt.event.2]) hreceipt.pair
          hreceipt.decodes hreceipt.receipt, hat, hreads, hreceipt.event.1, ← hid]
      exact ⟨fun h => ⟨h.1, h.2.2⟩, fun h => ⟨h.1, hblank h.2, h.2⟩⟩

namespace FirstCall

def config : StoreConfig := ⟨1000, .py311⟩

def event : DomainEvent :=
  ⟨"session:s", "message.received", .dict [], "consumer", "evt-1", "2024-01-01T00:00:00+00:00", none,
    none, none, rfl⟩

theorem now_inRange : IsoTime.InRange 63839664000000000 := by decide

def now : UtcMoment := ⟨63839664000000000, now_inRange⟩

def row : EventRow :=
  ⟨1, "session:s", 1, "evt-1", "message.received", "consumer", "2024-01-01T00:00:00+00:00",
    "\x7b\x7d", none, none, none⟩

/-- What the first call for a pair leaves and returns. -/
def left (receivedAt : String) : Db :=
  { Db.empty with
    events := [row]
    inbox := [⟨"consumer", "message", receivedAt, "evt-1", 1, "\x7b\x7d"⟩] }

def reply (receivedAt : String) : InboxAppendResult :=
  ⟨⟨event, 1, 1⟩, ⟨"consumer", "message", receivedAt, "evt-1", 1, .dict []⟩, false⟩

theorem first (receivedAt : String) :
    appendInbox config "consumer" "message" event none (some receivedAt) none now Db.empty =
      (.ok (reply receivedAt), left receivedAt) := by rfl

end FirstCall

open FirstCall

theorem retry_answers_iff_first :
    appendInbox FirstCall.config "consumer" "message" FirstCall.event none none none FirstCall.now
      (left "2024-01-01T00:00:00Z") =
        (.ok ⟨(reply "2024-01-01T00:00:00Z").event, (reply "2024-01-01T00:00:00Z").receipt, true⟩,
          left "2024-01-01T00:00:00Z") := by
  have hstart : (inboxSystem FirstCall.config).start Db.empty := rfl
  have hanswer := @retry_answers_iff _ _ _ _ _ none _ none _ none _ FirstCall.now _ [] _ _ _
    (Reachable.start hstart) rfl (first "2024-01-01T00:00:00Z") (.done _) ⟨_, rfl⟩ ⟨none, rfl⟩
  exact hanswer.2.2.2.mpr ⟨by decide, fun _ => by decide⟩

/-- **A time of receipt that is no timestamp makes every later call raise.** -/
theorem unreadable_receipt :
    appendInbox FirstCall.config "consumer" "message" FirstCall.event none (some "soon") none FirstCall.now
        Db.empty = (.ok (reply "soon"), left "soon") ∧
      (appendInbox FirstCall.config "consumer" "message" FirstCall.event none (some "soon") none FirstCall.now
        (left "soon")).1.isOk = false :=
  ⟨by rfl, by rfl⟩

end QuantumEntanglement.Inbox
