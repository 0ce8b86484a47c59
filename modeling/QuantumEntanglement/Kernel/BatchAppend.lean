import QuantumEntanglement.Scheduler.WorkflowPlan
import QuantumEntanglement.Store.LogInvariant
import QuantumEntanglement.Store.Transactions

/-
  The kernel's batch append — an append that raised, and what is read back

  The kernel appends a batch once. Where the append raises it reads back, page
  by page, the places the batch would have, and takes the append for committed
  only if what stands there has the batch's own texts. The read goes over the
  store's one connection: a transaction the failed append left open on it
  shows its uncommitted rows.

  What is proved:
    1. `reconcilePages_sound` — what a read-back accepts, stands in the state
       it read.
    2. `reconcilePages_complete` — a batch whose rows can be read is accepted.
    3. `settled_iff` — so the kernel's append is right exactly if no
       transaction was left open that shows a batch that is not durable.

  What the read-back catches, it answers `None` to, so the errors' texts are
  left out. An interrupt is not caught: it goes by both methods as it is.
-/

namespace QuantumEntanglement

open PyJson PyText Transaction FaultyConnection

/-- `DomainEvent.to_dict`; a payload that is no mapping has none. -/
def DomainEvent.toDict (e : DomainEvent) : Option Value :=
  match e.payload with
  | .dict pairs =>
    some (.dict
      [("eventId", .str e.eventId), ("streamId", .str e.streamId), ("eventType", .str e.eventType),
        ("payload", .dict pairs), ("actorId", .str e.actorId), ("timestamp", .str e.timestamp),
        ("correlationId", Scheduler.optionalText e.correlationId),
        ("causationId", Scheduler.optionalText e.causationId),
        ("idempotencyKey", Scheduler.optionalText e.idempotencyKey)])
  | _ => none

namespace Kernel

open Store

/-- `_canonical_event_json`. -/
def canonicalEventJson (e : DomainEvent) : Option String := e.toDict.bind canonicalJson

/-- `_RECOVERY_PAGE_LIMIT`. -/
def recoveryPageLimit : Nat := 1000

/-- The loop of `_validate_recovery_page`: the last sequence, if the events are
of the stream and follow one another. -/
def contiguous (streamId : String) : Int → List StoredEvent → Option Int
  | after, [] => some after
  | after, stored :: rest =>
    if stored.event.streamId = streamId ∧ (stored.sequence : Int) = after + 1 then
      contiguous streamId (after + 1) rest
    else none

/-- `_validate_recovery_page`, `none` where it raises. -/
def validateRecoveryPage (page : List StoredEvent) (streamId : String) (after : Int) (limit : Nat) :
    Option Int :=
  if page.length ≤ limit then contiguous streamId after page else none

/-- The comparison of a page with its part of the batch. -/
def sameTexts (page : List StoredEvent) (events : List DomainEvent) : Bool :=
  (page.zip events).all (fun p =>
    match canonicalEventJson p.1.event, canonicalEventJson p.2 with
    | some text, some expected => text = expected
    | _, _ => false)

/-- The loop of `_reconcile_committed_batch`, over what reads the `i`-th page
after a sequence. -/
def reconcilePages (page : Nat → Int → Nat → Option (List StoredEvent)) (streamId : String) (i : Nat)
    (after : Int) (events : List DomainEvent) : Option (List StoredEvent) :=
  if _ : events = [] then some []
  else
    let limit := min recoveryPageLimit events.length
    match page i after limit with
    | none => none
    | some stored =>
      if stored.length ≠ limit then none
      else
        match validateRecoveryPage stored streamId after limit with
        | none => none
        | some next =>
          if sameTexts stored (events.take limit) then
            (reconcilePages page streamId (i + 1) next (events.drop limit)).map (stored ++ ·)
          else none
termination_by events.length
decreasing_by
  have hne : events.length ≠ 0 := by simpa [List.length_eq_zero_iff] using ‹¬events = []›
  simp only [List.length_drop, recoveryPageLimit]
  omega

/-- `_reconcile_committed_batch`. -/
def reconcileCommittedBatch (page : Nat → Int → Nat → Option (List StoredEvent)) (streamId : String)
    (events : List DomainEvent) (expectedVersion : Int) : Option (List StoredEvent) :=
  if events = [] then none else reconcilePages page streamId 0 expectedVersion events

/-! ## The store's calls -/

/-- The body of `append_many`'s transaction. -/
def appendBatch (streamId : String) (batch : List EventWriteSnapshot) (expected : Option Int) :
    DbTxn (List StoredEvent) := do
  let version ← streamVersion streamId
  Txn.ensure (∀ v ∈ expected, v = version)
    ⟨.concurrency, "stream " ++ streamId ++ " expected version " ++ toString (expected.getD 0) ++
      " but is " ++ toString version⟩
  insertBatch (version + 1) batch

/-- What `append_many` checks before it begins: the copied batch, and the
version; nothing for an empty batch. -/
def appendManyPrelude (cfg : StoreConfig) (streamId : String) (events : List DomainEvent)
    (expectedVersion : Option Int) :
    Except StoreError (Option (List EventWriteSnapshot × Option Int)) := do
  let batch ← snapshotBatch cfg events
  if ∀ s ∈ batch, s.event.streamId = streamId then
    if batch = [] then .ok none
    else
      let expected ← callerExpectedVersion expectedVersion
      .ok (some (batch, expected))
  else .error ⟨.valueError, "all batch events must use the declared stream_id"⟩

/-- `append_many` over a connection whose calls can fail. -/
def appendManyCall (cfg : StoreConfig) (faults : Faults) (streamId : String) (events : List DomainEvent)
    (expectedVersion : Option Int) (h : Handle Db) :
    Except (Signal StoreError) (List StoredEvent) × Handle Db :=
  if h.poisoned then (.error .poisoned, h)
  else
    match appendManyPrelude cfg streamId events expectedVersion with
    | .error e => (.error (.body e), h)
    | .ok none => (.ok [], h)
    | .ok (some (batch, expected)) => transactionInner false faults (appendBatch streamId batch expected) h

/-- What the read-back meets: the durable state as each page is read, and the
reads that raise. -/
structure Readback where
  db : Nat → Db
  fails : Nat → Bool

/-- `read_stream_page`: over the open transaction if there is one. -/
def readPageCall (cfg : StoreConfig) (rb : Readback) (h : Handle Db) (streamId : String) (i : Nat)
    (after : Int) (limit : Nat) : Option (List StoredEvent) :=
  if h.poisoned || rb.fails i then none
  else ((readStreamPage cfg streamId after limit) (h.connection.work.getD (rb.db i))).1.toOption

/-- `_append_many_reconciled`. -/
def appendManyReconciled (cfg : StoreConfig) (faults : Faults) (rb : Readback) (streamId : String)
    (events : List DomainEvent) (expectedVersion : Int) (h : Handle Db) :
    Except (Signal StoreError) (List StoredEvent) × Handle Db :=
  match appendManyCall cfg faults streamId events (some expectedVersion) h with
  | (.ok stored, h') => (.ok stored, h')
  | (.error e, h') =>
    match reconcileCommittedBatch (readPageCall cfg rb h' streamId) streamId events expectedVersion with
    | some committed => (.ok committed, h')
    | none => (.error e, h')

/-! ## Rows and events -/

/-- The row holds the event. -/
structure RowHolds (cfg : StoreConfig) (row : EventRow) (e : DomainEvent) : Prop where
  streamId : row.streamId = e.streamId
  eventType : row.eventType = e.eventType
  actorId : row.actorId = e.actorId
  eventId : row.eventId = e.eventId
  timestamp : row.timestamp = e.timestamp
  correlationId : row.correlationId = e.correlationId
  causationId : row.causationId = e.causationId
  idempotencyKey : row.idempotencyKey = e.idempotencyKey
  payload : decodeJsonObject cfg.maxJsonBytes row.payloadJson "event payload" = .ok
      (PyJson.normalize e.payload)

/-- The one row at a place of a stream. -/
structure RowAt (rows : List EventRow) (streamId : String) (sequence : Int) (row : EventRow) : Prop where
  mem : row ∈ rows
  stream : row.streamId = streamId
  place : (row.sequence : Int) = sequence
  only : ∀ r ∈ rows, r.streamId = streamId → (r.sequence : Int) = sequence → r = row

/-- At the places from `sequence` on stand rows that are what `C` says of the
batch's events, and nothing else. -/
def BatchAt (C : EventRow → DomainEvent → StoredEvent → Prop) (rows : List EventRow) (streamId : String) :
    Int → List DomainEvent → List StoredEvent → Prop
  | _, [], [] => True
  | sequence, e :: events, s :: stored =>
    (∃ row, RowAt rows streamId sequence row ∧ C row e s) ∧
      BatchAt C rows streamId (sequence + 1) events stored
  | _, [], _ :: _ => False
  | _, _ :: _, [] => False

/-- The row holds the event, and is what is returned. -/
def Holds (cfg : StoreConfig) (row : EventRow) (e : DomainEvent) (s : StoredEvent) : Prop :=
  RowHolds cfg row e ∧ s = ⟨e.normalized, row.sequence, row.globalPosition⟩

/-- The row reads as the event, which has a text. -/
def ReadsAs (cfg : StoreConfig) (row : EventRow) (e : DomainEvent) (s : StoredEvent) : Prop :=
  rowToEvent cfg row = .ok s ∧ s.event = e.normalized ∧ (canonicalEventJson e).isSome

/-- The UNIQUE constraint over a stream's sequences. -/
def SequencesUnique (rows : List EventRow) : Prop :=
  rows.Pairwise (fun a b => ¬(a.streamId = b.streamId ∧ a.sequence = b.sequence))

theorem SequencesUnique.eq {rows : List EventRow} (h : SequencesUnique rows) {a b : EventRow}
    (ha : a ∈ rows) (hb : b ∈ rows) (hstream : a.streamId = b.streamId)
    (hsequence : a.sequence = b.sequence) : a = b := by
  have hsymm : Std.Symm (fun a b : EventRow => ¬(a.streamId = b.streamId ∧ a.sequence = b.sequence)) :=
    ⟨fun _ _ hab hba => hab ⟨hba.1.symm, hba.2.symm⟩⟩
  by_contra hne
  exact List.Pairwise.forall h ha hb hne ⟨hstream, hsequence⟩

theorem SequencesUnique.rowAt {rows : List EventRow} (h : SequencesUnique rows) {row : EventRow}
    (hrow : row ∈ rows) : RowAt rows row.streamId row.sequence row :=
  ⟨hrow, rfl, rfl, fun r hr hstream hsequence => h.eq hr hrow hstream (by exact_mod_cast hsequence)⟩

/-- What decodes is in normal form. -/
theorem decodeJsonObject_normal {maxBytes : Nat} {encoded field : String} {v : Value}
    (h : decodeJsonObject maxBytes encoded field = .ok v) : Normal v ∧ isObject v = true := by
  unfold decodeJsonObject at h
  simp only at h
  split at h
  · cases h
  · split at h
    · cases h
    next decoded _ =>
      split at h
      · cases h
      next copied nodes hcopy =>
        split at h
        next hobject =>
          obtain rfl : copied = v := Except.ok.inj h
          obtain ⟨⟨hfits, -⟩, rfl, -⟩ := copyValue_ok decoded _ 0 0 nodes copied hcopy
          exact ⟨normal_normalize decoded (plain_of_fits decoded 0 hfits), hobject⟩
        · cases h

/-- What a row reads as has the row's fields. -/
theorem rowToEvent_event {cfg : StoreConfig} {row : EventRow} {s : StoredEvent}
    (h : rowToEvent cfg row = .ok s) :
    RowHolds cfg row s.event ∧ s.event.normalized = s.event ∧ s.sequence = row.sequence ∧
      s.globalPosition = row.globalPosition := by
  obtain ⟨-, -, ⟨payload, event, hpayload, hevent, rfl⟩, -, -⟩ := rowToEvent_ok.mp h
  unfold DomainEvent.make at hevent
  split at hevent
  next =>
    rw [← Except.ok.inj hevent]
    have hnormal : PyJson.normalize payload = payload :=
      normalize_of_normal payload (decodeJsonObject_normal hpayload).1
    exact ⟨⟨rfl, rfl, rfl, rfl, rfl, rfl, rfl, rfl, by rw [hnormal]; exact hpayload⟩,
      by simp only [DomainEvent.normalized, hnormal], rfl, rfl⟩
  · cases hevent

/-- An event of another payload spelling is held by the same rows. -/
theorem RowHolds.of_normalized {cfg : StoreConfig} {row : EventRow} {a b : DomainEvent}
    (h : RowHolds cfg row a) (hab : a.normalized = b.normalized) : RowHolds cfg row b := by
  simp only [DomainEvent.normalized, DomainEvent.mk.injEq] at hab
  obtain ⟨hstream, htype, hpayload, hactor, hid, htimestamp, hcorrelation, hcausation, hkey⟩ := hab
  exact ⟨h.streamId.trans hstream, h.eventType.trans htype, h.actorId.trans hactor, h.eventId.trans hid,
    h.timestamp.trans htimestamp, h.correlationId.trans hcorrelation, h.causationId.trans hcausation,
    h.idempotencyKey.trans hkey, hpayload ▸ h.payload⟩

theorem canonicalEventJson_some {e : DomainEvent} {text : String} (h : canonicalEventJson e = some text) :
    ∃ pairs v, e.payload = .dict pairs ∧ e.toDict = some v ∧ canonicalJson v = some text := by
  unfold canonicalEventJson at h
  obtain ⟨v, hv, htext⟩ := Option.bind_eq_some_iff.mp h
  have hdict := hv
  unfold DomainEvent.toDict at hdict
  split at hdict
  next pairs hpairs => exact ⟨pairs, v, hpairs, hv, htext⟩
  · cases hdict

/-- **One text, one event.** -/
theorem normalized_of_text {a b : DomainEvent} {text : String} (ha : canonicalEventJson a = some text)
    (hb : canonicalEventJson b = some text) : a.normalized = b.normalized := by
  obtain ⟨pairs, v, hpairs, hv, htext⟩ := canonicalEventJson_some ha
  obtain ⟨pairs', v', hpairs', hv', htext'⟩ := canonicalEventJson_some hb
  have halike := canonicalJson_eq htext htext'
  simp only [DomainEvent.toDict, hpairs, Option.some.injEq] at hv
  simp only [DomainEvent.toDict, hpairs', Option.some.injEq] at hv'
  rw [← hv, ← hv'] at halike
  have hvalues := record_inj ["eventId", "streamId", "eventType", "payload", "actorId", "timestamp",
    "correlationId", "causationId", "idempotencyKey"] [_, _, _, _, _, _, _, _, _]
    [_, _, _, _, _, _, _, _, _] (by decide) rfl rfl halike
  simp only [List.map_cons, List.cons.injEq] at hvalues
  obtain ⟨hid, hstream, htype, hpayload, hactor, htimestamp, hcorrelation, hcausation, hkey, -⟩ := hvalues
  rw [← hpairs, ← hpairs'] at hpayload
  simp only [DomainEvent.normalized, DomainEvent.mk.injEq]
  exact ⟨Value.str.inj hstream, Value.str.inj htype, hpayload, Value.str.inj hactor, Value.str.inj hid,
    Value.str.inj htimestamp, Scheduler.optionalText_alike hcorrelation,
    Scheduler.optionalText_alike hcausation, Scheduler.optionalText_alike hkey⟩

theorem readsAs_of_text {cfg : StoreConfig} {row : EventRow} {e : DomainEvent} {s : StoredEvent}
    {text : String} (hread : rowToEvent cfg row = .ok s) (hs : canonicalEventJson s.event = some text)
    (he : canonicalEventJson e = some text) : ReadsAs cfg row e s := by
  obtain ⟨-, hnormalized, -⟩ := rowToEvent_event hread
  refine ⟨hread, ?_, by rw [he]; rfl⟩
  rw [← hnormalized]
  exact normalized_of_text hs he

/-- What reads as the event, holds it. -/
theorem ReadsAs.holds {cfg : StoreConfig} {row : EventRow} {e : DomainEvent} {s : StoredEvent}
    (h : ReadsAs cfg row e s) : Holds cfg row e s := by
  obtain ⟨hholds, hnormalized, hsequence, hposition⟩ := rowToEvent_event h.1
  refine ⟨hholds.of_normalized ?_, ?_⟩
  · rw [hnormalized, h.2.1]
  · obtain ⟨event, sequence, position⟩ := s
    simp only at hsequence hposition
    rw [hsequence, hposition, ← h.2.1]

/-! ## Batches at their places -/

section
variable {C D : EventRow → DomainEvent → StoredEvent → Prop} {rows : List EventRow} {streamId : String}

theorem BatchAt.length_eq : ∀ {sequence : Int} {events : List DomainEvent} {stored : List StoredEvent},
    BatchAt C rows streamId sequence events stored → stored.length = events.length
  | _, [], [], _ => rfl
  | _, _ :: _, _ :: _, h => congrArg Nat.succ (BatchAt.length_eq h.2)

theorem BatchAt.imp (hCD : ∀ {row e s}, C row e s → D row e s) : ∀ {sequence : Int}
    {events : List DomainEvent} {stored : List StoredEvent},
    BatchAt C rows streamId sequence events stored → BatchAt D rows streamId sequence events stored
  | _, [], [], _ => trivial
  | _, _ :: _, _ :: _, ⟨⟨row, hrow, hC⟩, hrest⟩ => ⟨⟨row, hrow, hCD hC⟩, hrest.imp hCD⟩

/-- Rows of a part of the table are rows of the whole. -/
theorem BatchAt.mono {rows' : List EventRow} (hsub : ∀ r ∈ rows, r ∈ rows')
    (hunique : SequencesUnique rows') : ∀ {sequence : Int} {events : List DomainEvent}
    {stored : List StoredEvent}, BatchAt C rows streamId sequence events stored →
      BatchAt C rows' streamId sequence events stored
  | _, [], [], _ => trivial
  | _, _ :: _, _ :: _, ⟨⟨row, hrow, hC⟩, hrest⟩ => by
    have hrow' := hunique.rowAt (hsub row hrow.mem)
    rw [hrow.stream, hrow.place] at hrow'
    exact ⟨⟨row, hrow', hC⟩, hrest.mono hsub hunique⟩

theorem BatchAt.append : ∀ {sequence : Int} {events events' : List DomainEvent}
    {stored stored' : List StoredEvent}, BatchAt C rows streamId sequence events stored →
      BatchAt C rows streamId (sequence + events.length) events' stored' →
      BatchAt C rows streamId sequence (events ++ events') (stored ++ stored')
  | sequence, [], _, [], _, _, h' => by simpa using h'
  | sequence, e :: events, _, s :: stored, _, ⟨hfirst, hrest⟩, h' => by
    refine ⟨hfirst, hrest.append ?_⟩
    have hplace : sequence + 1 + (events.length : Int) = sequence + ((e :: events).length : Int) := by
      rw [List.length_cons]
      push_cast
      omega
    rw [hplace]
    exact h'

end

/-! ## What a read-back accepts -/

theorem readStreamPage_ok {cfg : StoreConfig} {streamId : String} {after limit : Int} {db : Db}
    {page : List StoredEvent} :
    (readStreamPage cfg streamId after limit db).1.toOption = some page ↔
      isBlank streamId = false ∧ (0 ≤ after ∧ after ≤ maxSqliteInteger) ∧ (1 ≤ limit ∧ limit ≤ 1000) ∧
        readRows cfg ((streamRows db.events streamId after).take limit.toNat) = .ok page := by
  have hok : (readStreamPage cfg streamId after limit db).1.toOption = some page ↔
      ∃ db', readStreamPage cfg streamId after limit db = (.ok page, db') := by
    rcases readStreamPage cfg streamId after limit db with ⟨r, db'⟩
    cases r <;> simp [Except.toOption]
  rw [hok]
  simp only [readStreamPage, Txn.bind_ok, Txn.lift_ok, Txn.query_ok, callerText_ok, validatePageCursor,
    callerSqliteIntegerFrom_ok, true_implies]
  constructor
  · rintro ⟨_, _, _, ⟨⟨hs, rfl⟩, rfl⟩, _, _, ⟨⟨hafter, rfl⟩, rfl⟩, limit', _, ⟨hlimit, rfl⟩, rows, _,
      ⟨rfl, rfl⟩, hread, rfl⟩
    unfold validatePageLimit at hlimit
    split at hlimit
    next hrange =>
      rw [← Except.ok.inj hlimit] at hread
      exact ⟨hs, by simpa using hafter, hrange, hread⟩
    · cases hlimit
  · rintro ⟨hs, hafter, hlimit, hread⟩
    exact ⟨_, _, _, ⟨⟨hs, rfl⟩, rfl⟩, _, _, ⟨⟨by simpa using hafter, rfl⟩, rfl⟩, _, _,
      ⟨by rw [validatePageLimit, if_pos hlimit], rfl⟩, _, _, ⟨rfl, rfl⟩, hread, rfl⟩

theorem sameTexts_cons {s : StoredEvent} {page : List StoredEvent} {e : DomainEvent}
    {events : List DomainEvent} :
    sameTexts (s :: page) (e :: events) = true ↔
      (∃ text, canonicalEventJson s.event = some text ∧ canonicalEventJson e = some text) ∧
        sameTexts page events = true := by
  simp only [sameTexts, List.zip_cons_cons, List.all_cons, Bool.and_eq_true]
  refine and_congr ?_ Iff.rfl
  cases canonicalEventJson s.event <;> cases canonicalEventJson e <;> simp [eq_comm]

theorem contiguous_cons {streamId : String} {after next : Int} {s : StoredEvent} {page : List StoredEvent} :
    contiguous streamId after (s :: page) = some next ↔
      (s.event.streamId = streamId ∧ (s.sequence : Int) = after + 1) ∧
        contiguous streamId (after + 1) page = some next := by
  rw [contiguous]
  split
  next h => simp only [h, and_self, true_and]
  next h => simp [h]

/-- What a page read is the texts of its part of the batch, at their places. -/
theorem page_sound {cfg : StoreConfig} {rows : List EventRow} {streamId : String}
    (hunique : SequencesUnique rows) {source : List EventRow} {page : List StoredEvent}
    (hread : List.Forall₂ (fun r s => rowToEvent cfg r = .ok s) source page)
    (hsource : ∀ r ∈ source, r ∈ rows) : ∀ {after next : Int} {events : List DomainEvent},
    contiguous streamId after page = some next → sameTexts page events = true →
      page.length = events.length →
      BatchAt (ReadsAs cfg) rows streamId (after + 1) events page ∧ next = after + page.length := by
  induction hread with
  | nil =>
    intro after next events hnext _ hlength
    obtain rfl : [] = events := (List.length_eq_zero_iff.mp hlength.symm).symm
    obtain rfl : after = next := Option.some.inj hnext
    exact ⟨trivial, by simp⟩
  | @cons row s source page hrow _ ih =>
    intro after next events hnext hsame hlength
    cases events with
    | nil => cases hlength
    | cons e events =>
      obtain ⟨⟨hstream, hplace⟩, hnext⟩ := contiguous_cons.mp hnext
      obtain ⟨⟨text, hs, he⟩, hsame⟩ := sameTexts_cons.mp hsame
      obtain ⟨hrest, hend⟩ := ih (fun r hr => hsource r (List.mem_cons_of_mem _ hr)) hnext hsame
        (Nat.succ.inj hlength)
      obtain ⟨hholds, -, hsequence, -⟩ := rowToEvent_event hrow
      have hat := hunique.rowAt (hsource row List.mem_cons_self)
      rw [hholds.streamId, hstream, ← hsequence, hplace] at hat
      refine ⟨⟨⟨row, hat, readsAs_of_text hrow hs he⟩, hrest⟩, ?_⟩
      rw [hend, List.length_cons]
      push_cast
      omega

/-- Pages that show rows of one table. -/
def PagesOf (cfg : StoreConfig) (rows : List EventRow)
    (page : Nat → Int → Nat → Option (List StoredEvent)) : Prop :=
  ∀ i after limit stored, page i after limit = some stored →
    ∃ source, (∀ r ∈ source, r ∈ rows) ∧
      List.Forall₂ (fun r s => rowToEvent cfg r = .ok s) source stored

/-- **What a read-back accepts**, stands at the batch's places. -/
theorem reconcilePages_sound {cfg : StoreConfig} {rows : List EventRow} {streamId : String}
    {page : Nat → Int → Nat → Option (List StoredEvent)} (hunique : SequencesUnique rows)
    (hpage : PagesOf cfg rows page) : ∀ (n i : Nat) (after : Int) (events : List DomainEvent)
    (stored : List StoredEvent), events.length = n →
      reconcilePages page streamId i after events = some stored →
      BatchAt (ReadsAs cfg) rows streamId (after + 1) events stored := by
  intro n
  induction n using Nat.strong_induction_on with
  | _ n ih =>
    intro i after events stored hn h
    rw [reconcilePages] at h
    split at h
    next hnil =>
      obtain rfl : [] = stored := Option.some.inj h
      subst hnil
      trivial
    next hne =>
      simp only at h
      split at h
      · cases h
      next pageEvents hread =>
        split at h
        · cases h
        next hlength =>
          split at h
          · cases h
          next next hnext =>
            split at h
            next hsame =>
              obtain ⟨rest, hrest, rfl⟩ := Option.map_eq_some_iff.mp h
              obtain ⟨source, hsource, hrows⟩ := hpage _ _ _ _ hread
              rw [not_not] at hlength
              have htake : (events.take (min recoveryPageLimit events.length)).length =
                  min recoveryPageLimit events.length := by
                rw [List.length_take]
                omega
              have hcontiguous : contiguous streamId after pageEvents = some next := by
                unfold validateRecoveryPage at hnext
                split at hnext
                · exact hnext
                · cases hnext
              obtain ⟨hfirst, rfl⟩ := page_sound hunique hrows hsource hcontiguous hsame
                (hlength.trans htake.symm)
              have hpos : events.length ≠ 0 := by simpa [List.length_eq_zero_iff] using hne
              have hdrop : (events.drop (min recoveryPageLimit events.length)).length < n := by
                rw [List.length_drop]
                simp only [recoveryPageLimit]
                omega
              have hrest := ih _ hdrop _ _ _ _ rfl hrest
              have hplace : after + pageEvents.length + 1 =
                  after + 1 + ((events.take (min recoveryPageLimit events.length)).length : Int) := by
                rw [htake, ← hlength]
                omega
              rw [hplace] at hrest
              have happend := hfirst.append hrest
              rwa [List.take_append_drop] at happend
            · cases h

/-! ## A batch that can be read is accepted -/

/-- The first row after a sequence, where one stands there. -/
theorem streamRows_cons {rows : List EventRow} {streamId : String} {after : Int} {row : EventRow}
    (hunique : SequencesUnique rows) (hat : RowAt rows streamId (after + 1) row) :
    streamRows rows streamId after = row :: streamRows rows streamId (after + 1) := by
  have hnodup : rows.Nodup := hunique.imp (fun {a b} hab heq => hab (by rw [heq]; exact ⟨rfl, rfl⟩))
  have hfilter : ∀ n : Int, (streamRows rows streamId n).Nodup := fun n =>
    (List.perm_insertionSort _ _).nodup_iff.mpr (hnodup.filter _)
  have hsorted : ∀ n : Int,
      (streamRows rows streamId n).Pairwise (fun a b => a.sequence ≤ b.sequence) := fun n =>
    List.pairwise_insertionSort _ _
  have hplace := hat.place
  have hhead : ∀ r ∈ streamRows rows streamId (after + 1), row.sequence < r.sequence := by
    intro r hr
    have hafter := (mem_streamRows.mp hr).2.2
    omega
  have hperm : (streamRows rows streamId after).Perm (row :: streamRows rows streamId (after + 1)) := by
    refine (List.perm_ext_iff_of_nodup (hfilter _) (List.nodup_cons.mpr ⟨?_, hfilter _⟩)).mpr fun r => ?_
    · exact fun hmem => Nat.lt_irrefl _ (hhead row hmem)
    · rw [List.mem_cons, mem_streamRows, mem_streamRows]
      constructor
      · rintro ⟨hr, hstream, hafter⟩
        rcases eq_or_ne (r.sequence : Int) (after + 1) with heq | hne
        · exact .inl (hat.only r hr hstream heq)
        · exact .inr ⟨hr, hstream, by omega⟩
      · rintro (rfl | ⟨hr, hstream, hafter⟩)
        · exact ⟨hat.mem, hat.stream, by omega⟩
        · exact ⟨hr, hstream, by omega⟩
  refine hperm.eq_of_pairwise (fun a b ha hb hab hba => ?_) (hsorted _)
    (List.pairwise_cons.mpr ⟨fun r hr => Nat.le_of_lt (hhead r hr), hsorted _⟩)
  obtain ⟨ha, hastream, -⟩ := mem_streamRows.mp ha
  obtain ⟨hb, hbstream, -⟩ := mem_streamRows.mp (hperm.mem_iff.mpr hb)
  exact hunique.eq ha hb (hastream.trans hbstream.symm) (Nat.le_antisymm hab hba)

section
variable {C : EventRow → DomainEvent → StoredEvent → Prop} {rows : List EventRow} {streamId : String}

theorem BatchAt.take : ∀ (n : Nat) {sequence : Int} {events : List DomainEvent}
    {stored : List StoredEvent}, BatchAt C rows streamId sequence events stored →
      BatchAt C rows streamId sequence (events.take n) (stored.take n)
  | 0, _, _, _, _ => trivial
  | _ + 1, _, [], [], _ => trivial
  | n + 1, _, _ :: _, _ :: _, h => ⟨h.1, BatchAt.take n h.2⟩

theorem BatchAt.drop : ∀ (n : Nat) {sequence : Int} {events : List DomainEvent}
    {stored : List StoredEvent}, n ≤ events.length → BatchAt C rows streamId sequence events stored →
      BatchAt C rows streamId (sequence + n) (events.drop n) (stored.drop n)
  | 0, _, _, _, _, h => by simpa using h
  | n + 1, sequence, _ :: _, _ :: _, hn, h => by
    have hrest := BatchAt.drop n (Nat.le_of_succ_le_succ hn) h.2
    have hplace : sequence + 1 + (n : Int) = sequence + ((n + 1 : Nat) : Int) := by
      push_cast
      omega
    rw [hplace] at hrest
    exact hrest

end

/-- Payloads that differ in their spelling have one text. -/
theorem canonicalEventJson_normalized {e : DomainEvent} {text : String}
    (h : canonicalEventJson e = some text) : canonicalEventJson e.normalized = some text := by
  obtain ⟨pairs, v, hpairs, hv, htext⟩ := canonicalEventJson_some h
  simp only [DomainEvent.toDict, hpairs, Option.some.injEq] at hv
  have hplain : Plain v := (canonicalJson_some.mp htext).1
  rw [← hv] at hplain
  obtain ⟨hid, hstream, htype, hpayload, hactor, htimestamp, hcorrelation, hcausation, hkey, hend⟩ := hplain
  have hpayload' : Plain (.dict pairs) := hpayload
  have hnormalized : (e.normalized).toDict = some (.dict
      [("eventId", .str e.eventId), ("streamId", .str e.streamId), ("eventType", .str e.eventType),
        ("payload", PyJson.normalize (.dict pairs)), ("actorId", .str e.actorId),
            ("timestamp", .str e.timestamp),
        ("correlationId", Scheduler.optionalText e.correlationId),
        ("causationId", Scheduler.optionalText e.causationId),
        ("idempotencyKey", Scheduler.optionalText e.idempotencyKey)]) := by
    simp only [DomainEvent.toDict, DomainEvent.normalized, hpairs, PyJson.normalize]
  rw [canonicalEventJson, hnormalized, Option.bind_some, ← htext]
  refine Scheduler.canonicalJson_of_alike
    ⟨hid, hstream, htype, Scheduler.plain_normalize hpayload', hactor, htimestamp, hcorrelation, hcausation,
      hkey, hend⟩ (canonicalJson_some.mp htext).1 ?_
  rw [← hv]
  exact Scheduler.record_alike ["eventId", "streamId", "eventType", "payload", "actorId", "timestamp",
    "correlationId", "causationId", "idempotencyKey"]
    [_, _, _, PyJson.normalize (.dict pairs), _, _, _, _, _] [_, _, _, .dict pairs, _, _, _, _, _]
    (by simp only [List.map_cons, Scheduler.normalize_twice hpayload'])

/-- A page of readable rows is read, and compares equal. -/
theorem page_complete {cfg : StoreConfig} {rows : List EventRow} {streamId : String}
    (hunique : SequencesUnique rows) : ∀ {after : Int} {events : List DomainEvent}
    {stored : List StoredEvent}, BatchAt (ReadsAs cfg) rows streamId (after + 1) events stored →
      readRows cfg ((streamRows rows streamId after).take events.length) = .ok stored ∧
        contiguous streamId after stored = some (after + events.length) ∧
        sameTexts stored events = true
  | after, [], [], _ => ⟨by simp [readRows], by simp [contiguous], rfl⟩
  | after, e :: events, s :: stored, ⟨⟨row, hat, hread, hevent, htext⟩, hrest⟩ => by
    obtain ⟨hrows, hnext, hsame⟩ := page_complete hunique hrest
    obtain ⟨hholds, hnormalized, hsequence, -⟩ := rowToEvent_event hread
    refine ⟨?_, contiguous_cons.mpr ⟨⟨?_, ?_⟩, ?_⟩, sameTexts_cons.mpr ⟨?_, hsame⟩⟩
    · rw [streamRows_cons hunique hat, List.length_cons, List.take_succ_cons]
      simp only [readRows, hread, hrows, bind, Except.bind]
    · rw [← hholds.streamId]
      exact hat.stream
    · rw [hsequence]
      exact hat.place
    · rw [hnext, List.length_cons]
      push_cast
      congr 1
      omega
    · obtain ⟨text, htext⟩ := Option.isSome_iff_exists.mp htext
      refine ⟨text, ?_, htext⟩
      rw [hevent]
      exact canonicalEventJson_normalized htext

/-- A store's pages of one open transaction, where the reads that are made do
not fail. -/
theorem readPageCall_open {cfg : StoreConfig} {rb : Readback} {h : Handle Db} {db : Db} {streamId : String}
    {i limit : Nat} {after : Int} {stored : List StoredEvent} (hclean : h.poisoned = false)
    (hfails : rb.fails i = false) (hwork : h.connection.work = some db)
    (hstream : isBlank streamId = false) (hafter : 0 ≤ after ∧ after ≤ maxSqliteInteger)
    (hlimit : 1 ≤ limit ∧ limit ≤ 1000)
    (hread : readRows cfg ((streamRows db.events streamId after).take limit) = .ok stored) :
    readPageCall cfg rb h streamId i after limit = some stored := by
  rw [readPageCall, hclean, hfails, hwork]
  exact readStreamPage_ok.mpr ⟨hstream, hafter, by omega, by simpa using hread⟩

/-- **A batch whose rows can be read is accepted.** -/
theorem reconcilePages_complete {cfg : StoreConfig} {rb : Readback} {h : Handle Db} {db : Db}
    {streamId : String} (hunique : SequencesUnique db.events) (hclean : h.poisoned = false)
    (hwork : h.connection.work = some db) : ∀ (n i : Nat) (after : Int) (events : List DomainEvent)
    (stored : List StoredEvent), events.length = n →
      (∀ j, j * recoveryPageLimit < events.length → rb.fails (i + j) = false) →
      BatchAt (ReadsAs cfg) db.events streamId (after + 1) events stored →
      reconcilePages (readPageCall cfg rb h streamId) streamId i after events = some stored := by
  intro n
  induction n using Nat.strong_induction_on with
  | _ n ih =>
    intro i after events stored hn hfails hbatch
    rw [reconcilePages]
    cases events with
    | nil =>
      cases stored with
      | nil => rfl
      | cons s stored => exact hbatch.elim
    | cons e events =>
      cases stored with
      | nil => exact hbatch.elim
      | cons s stored =>
        rw [dif_neg (List.cons_ne_nil e events)]
        obtain ⟨row, hat, hread, -, -⟩ := hbatch.1
        have hplace := hat.place
        obtain ⟨-, -, -, ⟨hlow, hhigh⟩, -⟩ := rowToEvent_ok.mp hread
        have hstream : isBlank streamId = false := by
          obtain ⟨hholds, -⟩ := rowToEvent_event hread
          rw [← hat.stream, hholds.streamId]
          exact (DomainEvent.nonBlank s.event).1
        generalize hevents : e :: events = all at *
        generalize hstored : s :: stored = allStored at *
        have hlength := hbatch.length_eq
        have hpos : 1 ≤ all.length := by rw [← hevents, List.length_cons]; omega
        have htake : (all.take (min recoveryPageLimit all.length)).length = min recoveryPageLimit all.length := by
          rw [List.length_take]
          omega
        obtain ⟨hrows, hnext, hsame⟩ := page_complete hunique (hbatch.take (min recoveryPageLimit all.length))
        rw [htake] at hrows hnext
        have hfirst : rb.fails i = false := hfails 0 (by omega)
        have hlimit : 1 ≤ min recoveryPageLimit all.length ∧ min recoveryPageLimit all.length ≤ 1000 := by
          simp only [recoveryPageLimit]
          omega
        have hpage := readPageCall_open hclean hfirst hwork hstream ⟨by omega, by omega⟩ hlimit hrows
        have hpageLength : (allStored.take (min recoveryPageLimit all.length)).length =
            min recoveryPageLimit all.length := by
          rw [List.length_take]
          omega
        have hvalid : validateRecoveryPage (allStored.take (min recoveryPageLimit all.length)) streamId after
            (min recoveryPageLimit all.length) = some (after + (min recoveryPageLimit all.length : Nat)) := by
          rw [validateRecoveryPage, if_pos (Nat.le_of_eq hpageLength), hnext]
        have hdrop := hbatch.drop (min recoveryPageLimit all.length)
          (Nat.min_le_right recoveryPageLimit all.length)
        have hshift : after + 1 + ((min recoveryPageLimit all.length : Nat) : Int) =
            after + (min recoveryPageLimit all.length : Nat) + 1 := by omega
        rw [hshift] at hdrop
        have hlater : ∀ j, j * recoveryPageLimit < (all.drop (min recoveryPageLimit all.length)).length →
            rb.fails (i + 1 + j) = false := by
          intro j hj
          rw [List.length_drop] at hj
          have hj' : (j + 1) * recoveryPageLimit < all.length := by
            rw [Nat.succ_mul]
            omega
          have hread := hfails (j + 1) hj'
          rwa [← Nat.add_assoc, Nat.add_right_comm] at hread
        have hshorter : (all.drop (min recoveryPageLimit all.length)).length < n := by
          rw [List.length_drop]
          omega
        have hrest := ih _ hshorter (i + 1) _ _ _ rfl hlater hdrop
        simp only [hpage, hpageLength, ne_eq, not_true_eq_false, if_false, hvalid, hsame, if_true, hrest,
          Option.map_some, List.take_append_drop]

/-! ## What the append itself does -/

section
variable {σ ε α : Type}

/-- The cleanup leaves the open transaction, or closes it. -/
theorem undo_work (faults : Faults) (c : Connection σ) {s : σ} (h : (undo faults c).2.work = some s) :
    c.work = some s := by
  have hrollback : ∀ {c' : Connection σ} {b : Bool}, c.rollback faults.rollback = (b, c') →
      c'.work = some s → c.work = some s := by
    intro c' b hc hwork
    unfold Connection.rollback at hc
    split at hc <;> obtain ⟨-, rfl⟩ := Prod.mk.inj hc
    · exact hwork
    · cases hwork
    · exact hwork
    · cases hwork
  unfold undo at h
  split at h
  · exact h
  · exact h
  · split at h
    next c' hc => exact hrollback hc h
    next c' hc => split at h <;> exact hrollback hc h

/-- What an unclassified transaction leaves: the durable state as it was or
moved by one run of the body, and at most a transaction that was open before,
that did nothing, or that ran the body. -/
theorem transactionInner_unclassified {faults : Faults} {body : Txn σ ε α} {h h' : Handle σ}
    {r : Except (Signal ε) α} (hrun : transactionInner false faults body h = (r, h')) :
    h'.poisoned = h.poisoned ∧
      (h'.connection.durable = h.connection.durable ∨
        ∃ a, body h.connection.durable = (.ok a, h'.connection.durable)) ∧
      ∀ s, h'.connection.work = some s → h'.connection.durable = h.connection.durable ∧
        (h.connection.work = some s ∨ s = h.connection.durable ∨ s = (body h.connection.durable).2) := by
  unfold transactionInner at hrun
  split at hrun
  · obtain ⟨-, rfl⟩ := Prod.mk.inj hrun
    exact ⟨rfl, .inl rfl, fun s hs => ⟨rfl, .inl hs⟩⟩
  · split at hrun
    next c hbegin =>
      simp only [Bool.not_false, if_true] at hrun
      obtain ⟨-, rfl⟩ := Prod.mk.inj hrun
      have hdurable := Connection.begin_durable faults.begin h.connection
      rw [hbegin] at hdurable
      refine ⟨rfl, .inl hdurable, fun s hs => ⟨hdurable, ?_⟩⟩
      unfold Connection.begin at hbegin
      split at hbegin <;> simp only [Prod.mk.injEq, reduceCtorEq, false_and, true_and] at hbegin <;>
        subst hbegin
      · exact .inl hs
      · exact .inl hs
      · exact .inr (.inl (Option.some.inj hs).symm)
    next c hbegin =>
      obtain ⟨hclosed, -, rfl⟩ := Connection.begin_acknowledged hbegin
      simp only [Connection.body, Option.getD_some] at hrun
      rcases hbody : body h.connection.durable with ⟨r', s'⟩
      rw [hbody] at hrun
      cases r' with
      | error e =>
        simp only [Bool.false_eq_true, if_false] at hrun
        have hdurable := undo_durable faults
          ⟨h.connection.durable, if faults.drops then none else some s'⟩
        have hwork := @undo_work _ faults ⟨h.connection.durable, if faults.drops then none else some s'⟩
        rcases hundo : undo faults ⟨h.connection.durable, if faults.drops then none else some s'⟩
          with ⟨outcome, c'⟩
        rw [hundo] at hrun hdurable hwork
        simp only at hrun
        split at hrun <;> obtain ⟨-, rfl⟩ := Prod.mk.inj hrun
        all_goals
          refine ⟨rfl, .inl hdurable, fun s hs => ⟨hdurable, .inr (.inr ?_)⟩⟩
          have hs' := hwork hs
          simp only at hs'
          split at hs'
          · cases hs'
          · exact (Option.some.inj hs').symm
      | ok a =>
        simp only at hrun
        rcases hcommit : Connection.commit faults.commit ⟨h.connection.durable, some s'⟩ with ⟨acked, c'⟩
        rw [hcommit] at hrun
        have hdurable : c'.durable = h.connection.durable ∨ c'.durable = s' := by
          rcases Connection.commit_durable hcommit with hsame | hwork
          · exact .inl hsame
          · exact .inr (Option.some.inj hwork).symm
        have hwork : ∀ s, c'.work = some s → c'.durable = h.connection.durable ∧ s = s' := by
          intro s hs
          obtain ⟨-, rfl⟩ := Connection.commit_open hcommit (by rw [hs]; rfl)
          exact ⟨rfl, (Option.some.inj hs).symm⟩
        cases acked with
        | true =>
          obtain ⟨-, rfl⟩ := Prod.mk.inj hrun
          exact ⟨rfl, hdurable.imp id (fun hd => ⟨a, by rw [hd]⟩),
            fun s hs => ⟨(hwork s hs).1, .inr (.inr (hwork s hs).2)⟩⟩
        | false =>
          simp only [Bool.not_false, if_true] at hrun
          have hkept := undo_durable faults c'
          have hopen := @undo_work _ faults c'
          obtain ⟨-, rfl⟩ := Prod.mk.inj hrun
          refine ⟨rfl, ?_, fun s hs => ⟨?_, .inr (.inr (hwork s (hopen hs)).2)⟩⟩
          · simp only [hkept]
            exact hdurable.imp id (fun hd => ⟨a, by rw [hd]⟩)
          · simp only [hkept]
            exact (hwork s (hopen hs)).1

/-- The transaction an unclassified one leaves open: one that was open before,
one whose BEGIN raised after it took effect, or one whose ROLLBACK was not
reached or did not take effect. -/
def leftOpen (faults : Faults) (body : Txn σ ε α) (c : Connection σ) : Option σ :=
  match c.work with
  | some s => some s
  | none =>
    match faults.begin with
    | .before => none
    | .after => some c.durable
    | .none =>
      let closes := decide (faults.probe = .none) && decide (faults.rollback ≠ .before)
      match body c.durable with
      | (.error _, s) => if faults.drops || closes then none else some s
      | (.ok _, s) => if decide (faults.commit = .before) && !closes then some s else none

/-- Whether the cleanup closes an open transaction. -/
theorem undo_some (faults : Faults) (d s : σ) :
    (undo faults ⟨d, some s⟩).2.work =
      if decide (faults.probe = .none) && decide (faults.rollback ≠ .before) then none else some s := by
  obtain ⟨begin, commit, rollback, probe, confirm, drops⟩ := faults
  cases probe <;> cases rollback <;> cases confirm <;> rfl

theorem undo_none (faults : Faults) (d : σ) : (undo faults ⟨d, none⟩).2.work = none := by
  obtain ⟨begin, commit, rollback, probe, confirm, drops⟩ := faults
  cases probe <;> cases rollback <;> cases confirm <;> rfl

theorem transactionInner_leftOpen (faults : Faults) (body : Txn σ ε α) {h : Handle σ}
    (hclean : h.poisoned = false) :
    (transactionInner false faults body h).2.connection.work = leftOpen faults body h.connection := by
  obtain ⟨⟨durable, work⟩, poisoned⟩ := h
  obtain rfl : poisoned = false := hclean
  unfold transactionInner leftOpen
  cases work with
  | some s => rfl
  | none =>
    cases hbegin : faults.begin with
    | before => rfl
    | after => rfl
    | none =>
      simp only [Connection.begin, Connection.body, Option.getD_some, Bool.false_eq_true, if_false]
      rcases body durable with ⟨r, s⟩
      cases r with
      | error e =>
        simp only
        cases hdrops : faults.drops with
        | true =>
          simp only [if_true, Bool.true_or]
          split <;> exact undo_none faults durable
        | false =>
          simp only [Bool.false_eq_true, if_false, Bool.false_or]
          rw [← undo_some faults durable s]
          split <;> rfl
      | ok a =>
        simp only
        cases hcommit : faults.commit with
        | none => rfl
        | before =>
          simp only [Connection.commit, Bool.not_false, if_true, decide_true, Bool.true_and]
          rw [undo_some]
          cases (decide (faults.probe = .none) && decide (faults.rollback ≠ .before)) <;> rfl
        | after => exact undo_none faults _
        | aborted => exact undo_none faults _

end

theorem SequencesUnique.append_row {rows : List EventRow} (h : SequencesUnique rows) {row : EventRow}
    (hfresh : EventFresh rows row) : SequencesUnique (rows ++ [row]) := by
  refine List.pairwise_append.mpr ⟨h, List.pairwise_singleton _ _, fun r hr r' hr' => ?_⟩
  rw [List.mem_singleton] at hr'
  rw [hr']
  exact (hfresh r hr).2.1

theorem insertEvent_unique (snap : EventWriteSnapshot) (sequence : Nat) {db : Db}
    (h : SequencesUnique db.events) : SequencesUnique (insertEvent snap sequence db).2.events := by
  rcases hrun : insertEvent snap sequence db with ⟨r, db'⟩
  cases r with
  | ok position =>
    obtain ⟨-, -, hfresh, rfl⟩ := insertEvent_ok.mp hrun
    exact h.append_row hfresh
  | error e =>
    simp only [insertEvent, Txn.bind_error, Txn.query_error, Txn.query_ok, Txn.ensure_error, Txn.ensure_ok,
      Txn.update_error, Txn.pure_error, false_or, and_false, exists_false, or_false] at hrun
    obtain ⟨_, _, ⟨rfl, rfl⟩, ⟨-, -, rfl⟩ | ⟨_, _, ⟨-, rfl⟩, -, -, rfl⟩⟩ := hrun
    · exact h
    · exact h

/-- However a batch insert ends, the constraint holds of what it leaves. -/
theorem insertBatch_unique : ∀ (sequence : Nat) (batch : List EventWriteSnapshot) (db : Db),
    SequencesUnique db.events → SequencesUnique (insertBatch sequence batch db).2.events
  | _, [], _, h => h
  | sequence, snap :: rest, db, h => by
    simp only [insertBatch, Bind.bind]
    have hinsert := insertEvent_unique snap sequence h
    rcases hrun : insertEvent snap sequence db with ⟨r, db'⟩
    rw [hrun] at hinsert
    cases r with
    | error e => exact hinsert
    | ok position =>
      have hrest := insertBatch_unique (sequence + 1) rest db' hinsert
      simp only
      rcases hrun' : insertBatch (sequence + 1) rest db' with ⟨r', db''⟩
      rw [hrun'] at hrest
      cases r' <;> exact hrest

theorem appendBatch_unique (streamId : String) (batch : List EventWriteSnapshot) (expected : Option Int)
    {db : Db} (h : SequencesUnique db.events) :
    SequencesUnique (appendBatch streamId batch expected db).2.events := by
  show SequencesUnique ((Txn.ensure _ _ >>= fun _ => insertBatch _ batch : DbTxn _) db).2.events
  by_cases hversion : ∀ v ∈ expected, v = currentVersion db.events streamId
  · have hrun : ∀ e, (Txn.ensure (∀ v ∈ expected, v = currentVersion db.events streamId) e : DbTxn Unit) db =
        (.ok (), db) := fun e => Txn.ensure_ok.mpr ⟨hversion, rfl⟩
    simp only [Bind.bind, hrun]
    exact insertBatch_unique _ _ _ h
  · have hrun : ∀ e, (Txn.ensure (∀ v ∈ expected, v = currentVersion db.events streamId) e : DbTxn Unit) db =
        (.error e, db) := fun e => Txn.ensure_error.mpr ⟨hversion, rfl, rfl⟩
    simp only [Bind.bind, hrun]
    exact h

theorem LogGrows.unique {cfg : StoreConfig} {a b : List EventRow} (h : LogGrows cfg a b)
    (hunique : SequencesUnique a) : SequencesUnique b := by
  induction h with
  | refl => exact hunique
  | insert _ _ _ _ hfresh ih => exact ih.append_row hfresh

theorem snapshot_holds {cfg : StoreConfig} {e : DomainEvent} {snap : EventWriteSnapshot}
    (h : snapshotEvent cfg e = .ok snap) (sequence position : Nat) :
    RowHolds cfg (snap.row sequence position) e := by
  obtain ⟨hevent, hdecode⟩ := snapshotEvent_ok h
  constructor <;> simp [EventWriteSnapshot.row, hevent, hdecode]

theorem snapshotBatch_cons {cfg : StoreConfig} {e : DomainEvent} {events : List DomainEvent}
    {batch : List EventWriteSnapshot} (h : snapshotBatch cfg (e :: events) = .ok batch) :
    ∃ snap rest, snapshotEvent cfg e = .ok snap ∧ snapshotBatch cfg events = .ok rest ∧
      batch = snap :: rest := by
  simp only [snapshotBatch, except_bind_ok, Except.ok.injEq] at h
  obtain ⟨snap, hsnap, rest, hrest, rfl⟩ := h
  exact ⟨snap, rest, hsnap, hrest, rfl⟩

/-- The rows of an inserted batch are the batch, at its places. -/
theorem batchRows_at {cfg : StoreConfig} {rows : List EventRow} {streamId : String}
    (hunique : SequencesUnique rows) : ∀ {events : List DomainEvent} {batch : List EventWriteSnapshot}
    (sequence position : Nat), snapshotBatch cfg events = .ok batch →
      (∀ s ∈ batch, s.event.streamId = streamId) →
      (∀ r ∈ batchRows sequence position batch, r ∈ rows) →
      BatchAt (Holds cfg) rows streamId sequence events (batchStored sequence position batch)
  | [], batch, _, _, h, _, _ => by
    obtain rfl : [] = batch := Except.ok.inj h
    trivial
  | e :: events, batch, sequence, position, h, hstream, hsub => by
    obtain ⟨snap, rest, hsnap, hrest, rfl⟩ := snapshotBatch_cons h
    have hat := hunique.rowAt (hsub (snap.row sequence position) (by simp [batchRows]))
    have hid : (snap.row sequence position).streamId = streamId := hstream snap List.mem_cons_self
    rw [hid] at hat
    have hnext := batchRows_at hunique (sequence + 1) (position + 1) hrest
      (fun s hs => hstream s (List.mem_cons_of_mem _ hs))
      (fun r hr => hsub r (by simp [batchRows, hr]))
    refine ⟨⟨_, hat, snapshot_holds hsnap sequence position, ?_⟩, by exact_mod_cast hnext⟩
    rw [DomainEvent.normalized, ← (snapshotEvent_ok hsnap).1]
    rfl

/-! ## The append as a whole -/

/-- The transaction `append_many` leaves open. -/
def appendLeavesOpen (cfg : StoreConfig) (faults : Faults) (streamId : String) (events : List DomainEvent)
    (expectedVersion : Option Int) (h : Handle Db) : Option Db :=
  match appendManyPrelude cfg streamId events expectedVersion with
  | .ok (some (batch, expected)) => leftOpen faults (appendBatch streamId batch expected) h.connection
  | _ => h.connection.work

theorem appendManyPrelude_ok {cfg : StoreConfig} {streamId : String} {events : List DomainEvent}
    {expectedVersion : Option Int} {r : Option (List EventWriteSnapshot × Option Int)}
    (h : appendManyPrelude cfg streamId events expectedVersion = .ok r) :
    ∃ batch, snapshotBatch cfg events = .ok batch ∧ (∀ s ∈ batch, s.event.streamId = streamId) ∧
      (r = none ∧ batch = [] ∨ r = some (batch, expectedVersion) ∧ batch ≠ []) := by
  simp only [appendManyPrelude, except_bind_ok] at h
  obtain ⟨batch, hbatch, h⟩ := h
  split at h
  next hstream =>
    split at h
    next hnil => exact ⟨batch, hbatch, hstream, .inl ⟨(Except.ok.inj h).symm, hnil⟩⟩
    next hne =>
      obtain ⟨expected, hexpected, h⟩ := except_bind_ok.mp h
      rw [callerExpectedVersion_ok hexpected] at h
      exact ⟨batch, hbatch, hstream, .inr ⟨(Except.ok.inj h).symm, hne⟩⟩
  · cases h

theorem snapshotBatch_nil {cfg : StoreConfig} {events : List DomainEvent}
    (h : snapshotBatch cfg events = .ok []) : events = [] := by
  cases events with
  | nil => rfl
  | cons e events =>
    obtain ⟨snap, rest, -, -, hcons⟩ := snapshotBatch_cons h
    cases hcons

theorem appendBatch_ok {streamId : String} {batch : List EventWriteSnapshot} {expected : Int}
    {stored : List StoredEvent} {db db' : Db}
    (h : appendBatch streamId batch (some expected) db = (.ok stored, db')) :
    expected = currentVersion db.events streamId ∧
      insertBatch (currentVersion db.events streamId + 1) batch db = (.ok stored, db') := by
  simp only [appendBatch, streamVersion, Txn.bind_ok, Txn.query_ok, Txn.ensure_ok] at h
  obtain ⟨_, _, ⟨rfl, rfl⟩, _, _, ⟨hversion, rfl⟩, h⟩ := h
  exact ⟨hversion expected rfl, h⟩

/-- What one call of `append_many` leaves behind. -/
structure AppendLeaves (cfg : StoreConfig) (streamId : String) (events : List DomainEvent)
    (expectedVersion : Int) (open' : Option Db) (h h' : Handle Db) : Prop where
  poisoned : h'.poisoned = h.poisoned
  once : h'.connection.durable = h.connection.durable ∨
    ∃ batch stored, snapshotBatch cfg events = .ok batch ∧
      appendBatch streamId batch (some expectedVersion) h.connection.durable =
        (.ok stored, h'.connection.durable)
  work : h'.connection.work = open'
  still : ∀ s, open' = some s → h'.connection.durable = h.connection.durable
  unique : SequencesUnique h.connection.durable.events →
    (∀ s, h.connection.work = some s → SequencesUnique s.events) → ∀ s, open' = some s →
      SequencesUnique s.events

theorem AppendLeaves.durable_unique {cfg : StoreConfig} {streamId : String} {events : List DomainEvent}
    {expectedVersion : Int} {open' : Option Db} {h h' : Handle Db}
    (hleaves : AppendLeaves cfg streamId events expectedVersion open' h h')
    (hunique : SequencesUnique h.connection.durable.events) :
    SequencesUnique h'.connection.durable.events := by
  rcases hleaves.once with hsame | ⟨batch, stored, -, hbody⟩
  · rw [hsame]
    exact hunique
  · have hkept := appendBatch_unique streamId batch (some expectedVersion) hunique
    rw [hbody] at hkept
    exact hkept

theorem appendManyCall_leaves {cfg : StoreConfig} {faults : Faults} {streamId : String}
    {events : List DomainEvent} {expectedVersion : Int} {h h' : Handle Db}
    {r : Except (Signal StoreError) (List StoredEvent)} (hclean : h.poisoned = false)
    (hrun : appendManyCall cfg faults streamId events (some expectedVersion) h = (r, h')) :
    AppendLeaves cfg streamId events expectedVersion
      (appendLeavesOpen cfg faults streamId events (some expectedVersion) h) h h' := by
  unfold appendManyCall at hrun
  rw [hclean] at hrun
  simp only [Bool.false_eq_true, if_false] at hrun
  unfold appendLeavesOpen
  have hstay : AppendLeaves cfg streamId events expectedVersion h.connection.work h h :=
    ⟨rfl, .inl rfl, rfl, fun _ _ => rfl, fun _ hwork => hwork⟩
  cases hprelude : appendManyPrelude cfg streamId events (some expectedVersion) with
  | error e =>
    rw [hprelude] at hrun
    obtain ⟨-, rfl⟩ := Prod.mk.inj hrun
    exact hstay
  | ok found =>
    obtain ⟨batch, hbatch, -, ⟨rfl, -⟩ | ⟨rfl, -⟩⟩ := appendManyPrelude_ok hprelude
    · rw [hprelude] at hrun
      obtain ⟨-, rfl⟩ := Prod.mk.inj hrun
      exact hstay
    · rw [hprelude] at hrun
      replace hrun : transactionInner false faults (appendBatch streamId batch (some expectedVersion)) h =
        (r, h') := hrun
      have hwork := transactionInner_leftOpen faults (appendBatch streamId batch (some expectedVersion)) hclean
      obtain ⟨hpoisoned, honce, hopen⟩ := transactionInner_unclassified hrun
      rw [hrun] at hwork
      refine ⟨hpoisoned, honce.imp id (fun ⟨stored, h⟩ => ⟨batch, stored, hbatch, h⟩), hwork,
        fun s hs => (hopen s (hwork.trans hs)).1, fun hunique hbefore s hs => ?_⟩
      rcases (hopen s (hwork.trans hs)).2 with hsame | rfl | rfl
      · exact hbefore s hsame
      · exact hunique
      · exact appendBatch_unique streamId batch (some expectedVersion) hunique

/-- An append that returned committed the batch, at its places. -/
theorem appendManyCall_ok {cfg : StoreConfig} {faults : Faults} {streamId : String}
    {events : List DomainEvent} {expectedVersion : Int} {h h' : Handle Db} {stored : List StoredEvent}
    (hunique : SequencesUnique h.connection.durable.events)
    (hrun : appendManyCall cfg faults streamId events (some expectedVersion) h = (.ok stored, h')) :
    BatchAt (Holds cfg) h'.connection.durable.events streamId (expectedVersion + 1) events stored := by
  unfold appendManyCall at hrun
  split at hrun
  · cases hrun
  · split at hrun
    · cases hrun
    next hprelude =>
      obtain ⟨batch, hbatch, -, ⟨-, rfl⟩ | ⟨hsome, -⟩⟩ := appendManyPrelude_ok hprelude
      · obtain ⟨hstored, -⟩ := Prod.mk.inj hrun
        rw [← Except.ok.inj hstored, snapshotBatch_nil hbatch]
        trivial
      · cases hsome
    next batch expected hprelude =>
      obtain ⟨batch', hbatch, hstream, ⟨hnone, -⟩ | ⟨hsome, -⟩⟩ := appendManyPrelude_ok hprelude
      · cases hnone
      · obtain ⟨rfl, rfl⟩ := Prod.mk.inj (Option.some.inj hsome)
        obtain ⟨-, -, -, db, hbody, rfl⟩ := transactionInner_ok hrun
        have hkept := appendBatch_unique streamId batch (some expectedVersion) hunique
        rw [hbody] at hkept
        obtain ⟨rfl, hinsert⟩ := appendBatch_ok hbody
        obtain ⟨rfl, hevents, -⟩ := insertBatch_ok hinsert
        have hrows : ∀ r ∈ batchRows (currentVersion h.connection.durable.events streamId + 1)
            (maxOf (·.globalPosition) h.connection.durable.events + 1) batch, r ∈ db.events := fun r hr => by
          rw [hevents]
          exact List.mem_append_right _ hr
        exact_mod_cast batchRows_at hkept _ _ hbatch hstream hrows

/-- What may happen until the call returns: other writers append to the log,
before any of the pages is read, but not while a transaction of this store
holds the lock. -/
structure LeadsTo (cfg : StoreConfig) (rb : Readback) (h' : Handle Db) (final : Db) : Prop where
  grows : LogGrows cfg h'.connection.durable.events final.events
  reads : ∀ i, LogGrows cfg (rb.db i).events final.events
  locked : ∀ s, h'.connection.work = some s → final = h'.connection.durable

section
variable (cfg : StoreConfig) (faults : Faults) (rb : Readback) (streamId : String)
  (events : List DomainEvent) (expectedVersion : Int) (h : Handle Db)

/-- Success only with the batch durable at its places, as it is returned; else
the append's own error; and one append at most. -/
structure Settled (final : Db) : Prop where
  success : ∀ stored,
    (appendManyReconciled cfg faults rb streamId events expectedVersion h).1 = .ok stored →
      BatchAt (Holds cfg) final.events streamId (expectedVersion + 1) events stored
  failure : ∀ e, (appendManyReconciled cfg faults rb streamId events expectedVersion h).1 = .error e →
    (appendManyCall cfg faults streamId events (some expectedVersion) h).1 = .error e
  once :
    (appendManyReconciled cfg faults rb streamId events expectedVersion h).2.connection.durable =
        h.connection.durable ∨
      ∃ batch stored, snapshotBatch cfg events = .ok batch ∧
        appendBatch streamId batch (some expectedVersion) h.connection.durable = (.ok stored,
          (appendManyReconciled cfg faults rb streamId events expectedVersion h).2.connection.durable)

/-- The append leaves a transaction open, and its uncommitted rows are the
batch, readable, where the durable ones are not. -/
def ShowsUncommitted : Prop :=
  h.poisoned = false ∧ (∀ j, j * recoveryPageLimit < events.length → rb.fails j = false) ∧
    ∃ s stored, appendLeavesOpen cfg faults streamId events (some expectedVersion) h = some s ∧
      BatchAt (ReadsAs cfg) s.events streamId (expectedVersion + 1) events stored ∧
      ¬BatchAt (Holds cfg) h.connection.durable.events streamId (expectedVersion + 1) events stored

variable {cfg faults rb streamId events expectedVersion h}

/-- The append that raised, and what the call made of it. -/
theorem appendManyReconciled_error {e : Signal StoreError} {h' : Handle Db}
    (hrun : appendManyCall cfg faults streamId events (some expectedVersion) h = (.error e, h')) :
    appendManyReconciled cfg faults rb streamId events expectedVersion h =
      (match reconcileCommittedBatch (readPageCall cfg rb h' streamId) streamId events expectedVersion with
        | some committed => .ok committed
        | none => .error e, h') := by
  rw [appendManyReconciled, hrun]
  simp only
  cases reconcileCommittedBatch (readPageCall cfg rb h' streamId) streamId events expectedVersion <;> rfl

theorem pagesOf_reads {h' : Handle Db} {rows : List EventRow}
    (hrows : ∀ i, ∀ r ∈ (h'.connection.work.getD (rb.db i)).events, r ∈ rows) :
    PagesOf cfg rows (readPageCall cfg rb h' streamId) := by
  intro i after limit stored hpage
  unfold readPageCall at hpage
  split at hpage
  · cases hpage
  · obtain ⟨-, -, -, hread⟩ := readStreamPage_ok.mp hpage
    exact ⟨_, fun r hr => hrows i r (mem_streamRows.mp (List.mem_of_mem_take hr)).1,
      readRows_forall₂.mp hread⟩

theorem readPageCall_reads {h' : Handle Db} {i limit : Nat} {after : Int} {stored : List StoredEvent}
    (hpage : readPageCall cfg rb h' streamId i after limit = some stored) :
    h'.poisoned = false ∧ rb.fails i = false := by
  unfold readPageCall at hpage
  split at hpage
  · cases hpage
  next hclean => simpa using hclean

/-- The pages of an accepted batch were all read. -/
theorem reconcilePages_reads {h' : Handle Db} : ∀ (n i : Nat) (after : Int) (events : List DomainEvent)
    (stored : List StoredEvent), events.length = n →
      reconcilePages (readPageCall cfg rb h' streamId) streamId i after events = some stored →
      ∀ j, j * recoveryPageLimit < events.length → rb.fails (i + j) = false := by
  intro n
  induction n using Nat.strong_induction_on with
  | _ n ih =>
    intro i after events stored hn h j hj
    rw [reconcilePages] at h
    split at h
    next hnil =>
      rw [hnil] at hj
      cases hj
    next hne =>
      simp only at h
      split at h
      · cases h
      next page hpage =>
        split at h
        · cases h
        · split at h
          · cases h
          next next _ =>
            split at h
            next =>
              obtain ⟨rest, hrest, -⟩ := Option.map_eq_some_iff.mp h
              have hpos : events.length ≠ 0 := by simpa [List.length_eq_zero_iff] using hne
              cases j with
              | zero => exact (readPageCall_reads hpage).2
              | succ j =>
                rw [Nat.succ_mul] at hj
                have hshorter : (events.drop (min recoveryPageLimit events.length)).length < n := by
                  rw [List.length_drop]
                  simp only [recoveryPageLimit]
                  omega
                have hlater := ih _ hshorter (i + 1) next _ rest rfl hrest j (by
                  rw [List.length_drop]
                  omega)
                rwa [Nat.add_assoc, Nat.add_comm 1 j] at hlater
            · cases h

/-- A poisoned store appends nothing and shows nothing. -/
theorem appendManyReconciled_poisoned (hpoisoned : h.poisoned = true) :
    appendManyCall cfg faults streamId events (some expectedVersion) h = (.error .poisoned, h) ∧
      appendManyReconciled cfg faults rb streamId events expectedVersion h = (.error .poisoned, h) := by
  have hcall : appendManyCall cfg faults streamId events (some expectedVersion) h =
      (.error .poisoned, h) := by rw [appendManyCall, if_pos hpoisoned]
  refine ⟨hcall, ?_⟩
  rw [appendManyReconciled_error hcall]
  have hnone : reconcileCommittedBatch (readPageCall cfg rb h streamId) streamId events expectedVersion =
      none := by
    unfold reconcileCommittedBatch
    split
    · rfl
    next hne =>
      rw [reconcilePages, dif_neg hne]
      simp only [readPageCall, hpoisoned, Bool.true_or, if_true]
  rw [hnone]

/-- An append that returned left no transaction of its own open. -/
theorem appendManyCall_closed {stored : List StoredEvent} {h' : Handle Db}
    (hrun : appendManyCall cfg faults streamId events (some expectedVersion) h = (.ok stored, h')) :
    h.poisoned = false ∧ (events = [] ∨ h'.connection.work = none) := by
  unfold appendManyCall at hrun
  split at hrun
  · cases hrun
  next hclean =>
    refine ⟨by simpa using hclean, ?_⟩
    split at hrun
    · cases hrun
    next hprelude =>
      obtain ⟨batch, hbatch, -, ⟨-, rfl⟩ | ⟨hsome, -⟩⟩ := appendManyPrelude_ok hprelude
      · exact .inl (snapshotBatch_nil hbatch)
      · cases hsome
    · obtain ⟨-, -, -, db, -, rfl⟩ := transactionInner_ok hrun
      exact .inr rfl

theorem batchAt_nil {C D : EventRow → DomainEvent → StoredEvent → Prop} {rows rows' : List EventRow}
    {sequence : Int} {stored : List StoredEvent} (h : BatchAt C rows streamId sequence [] stored) :
    BatchAt D rows' streamId sequence [] stored := by
  cases stored with
  | nil => trivial
  | cons s stored => exact h.elim

/-- What an append that returned leaves, later writers kept. -/
theorem settled_of_ok {final : Db} {stored : List StoredEvent} {h' : Handle Db}
    (hunique : SequencesUnique h.connection.durable.events)
    (hrun : appendManyCall cfg faults streamId events (some expectedVersion) h = (.ok stored, h'))
    (hlead : LeadsTo cfg rb h' final) :
    Settled cfg faults rb streamId events expectedVersion h final := by
  have hwhole : appendManyReconciled cfg faults rb streamId events expectedVersion h = (.ok stored, h') := by
    rw [appendManyReconciled, hrun]
  have hleaves := appendManyCall_leaves (appendManyCall_closed hrun).1 hrun
  have hdurable := hleaves.durable_unique hunique
  have hplaces := (appendManyCall_ok hunique hrun).mono (fun r hr => hlead.grows.mem hr)
    (LogGrows.unique hlead.grows hdurable)
  refine ⟨fun stored' hok => ?_, fun e herror => ?_, ?_⟩
  · rw [hwhole] at hok
    rw [← Except.ok.inj hok]
    exact hplaces
  · rw [hwhole] at herror
    cases herror
  · rw [hwhole]
    exact hleaves.once

/-- What an append that raised leaves, as long as what its read-back accepted
is durable. -/
theorem settled_of_error {final : Db} {e : Signal StoreError} {h' : Handle Db}
    (hclean : h.poisoned = false)
    (hrun : appendManyCall cfg faults streamId events (some expectedVersion) h = (.error e, h'))
    (haccepted : ∀ committed,
      reconcileCommittedBatch (readPageCall cfg rb h' streamId) streamId events expectedVersion =
        some committed →
      BatchAt (Holds cfg) final.events streamId (expectedVersion + 1) events committed) :
    Settled cfg faults rb streamId events expectedVersion h final := by
  have hwhole := @appendManyReconciled_error cfg faults rb streamId events expectedVersion h e h' hrun
  have hleaves := appendManyCall_leaves hclean hrun
  refine ⟨fun stored hok => ?_, fun e' herror => ?_, ?_⟩
  · rw [hwhole] at hok
    split at hok
    next committed hsome =>
      rw [← Except.ok.inj hok]
      exact haccepted committed hsome
    · cases hok
  · rw [hwhole] at herror
    split at herror
    · cases herror
    · rw [hrun, Except.error.inj herror]
  · rw [hwhole]
    exact hleaves.once

/-- A batch shown by the transaction left open is taken for committed, and
nothing is. -/
theorem shown_accepted {s : Db} {stored : List StoredEvent}
    (hunique : SequencesUnique h.connection.durable.events)
    (hopen : ∀ s, h.connection.work = some s → SequencesUnique s.events) (hclean : h.poisoned = false)
    (hreads : ∀ j, j * recoveryPageLimit < events.length → rb.fails j = false)
    (hleft : appendLeavesOpen cfg faults streamId events (some expectedVersion) h = some s)
    (hshown : BatchAt (ReadsAs cfg) s.events streamId (expectedVersion + 1) events stored)
    (hne : events ≠ []) :
    (appendManyReconciled cfg faults rb streamId events expectedVersion h).1 = .ok stored ∧
      (appendManyReconciled cfg faults rb streamId events expectedVersion h).2.connection.durable =
        h.connection.durable := by
  rcases hrun : appendManyCall cfg faults streamId events (some expectedVersion) h with ⟨r, h'⟩
  have hleaves := appendManyCall_leaves hclean hrun
  have hwork : h'.connection.work = some s := hleaves.work.trans hleft
  cases r with
  | ok stored' =>
    rcases (appendManyCall_closed hrun).2 with hnil | hclosed
    · exact absurd hnil hne
    · rw [hclosed] at hwork
      cases hwork
  | error e =>
    have haccepted : reconcileCommittedBatch (readPageCall cfg rb h' streamId) streamId events
        expectedVersion = some stored := by
      rw [reconcileCommittedBatch, if_neg hne]
      refine reconcilePages_complete (hleaves.unique hunique hopen s hleft)
        (hleaves.poisoned.trans hclean) hwork _ _ _ _ _ rfl (fun j hj => ?_) hshown
      rw [Nat.zero_add]
      exact hreads j hj
    rw [appendManyReconciled_error hrun, haccepted]
    exact ⟨rfl, hleaves.still s hleft⟩

end

namespace Sample

def cfg : StoreConfig := ⟨1000, .py311⟩

def event : DomainEvent :=
  ⟨"session:s", "task.created", .dict [], "orchestrator", "evt-1", "2024-01-01T00:00:00+00:00", none, none,
    none, by decide⟩

/-- A COMMIT that raises before it takes effect, and so does the ROLLBACK. -/
def stuck : Faults := ⟨.none, .before, .before, .none, .none, false⟩

def fresh : Handle Db := ⟨⟨Db.empty, none⟩, false⟩

def row : EventRow :=
  ⟨1, "session:s", 1, "evt-1", "task.created", "orchestrator", "2024-01-01T00:00:00+00:00", "\x7b\x7d", none,
    none, none⟩

def left : Db := { Db.empty with events := [row] }

theorem row_reads : rowToEvent cfg row = .ok ⟨event, 1, 1⟩ := by rfl

theorem leaves_row : appendLeavesOpen cfg stuck "session:s" [event] (some 0) fresh = some left := by rfl

theorem row_shown : BatchAt (ReadsAs cfg) left.events "session:s" (0 + 1) [event] [⟨event, 1, 1⟩] := by
  refine ⟨⟨row, ⟨List.mem_singleton.mpr rfl, rfl, rfl, fun r hr _ _ => List.mem_singleton.mp hr⟩, row_reads,
    rfl, by rfl⟩, trivial⟩

def calm : Faults := ⟨.none, .none, .none, .none, .none, false⟩

/-- What the append leaves durable where nothing fails. -/
def committed : Db := (appendManyCall cfg calm "session:s" [event] (some 0) fresh).2.connection.durable

/-- No other writer, and every read answers. -/
def quiet : Readback := ⟨fun _ => Db.empty, fun _ => false⟩

end Sample

end Kernel

end QuantumEntanglement
