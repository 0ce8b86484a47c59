import QuantumEntanglement.Artifacts.Recording

/-
  Consistency — the live state of a ledger equals its replay

  A run of an instance is a list of its calls; what the other instances and
  writers do is the world it runs in. After every call, whether it returned
  or raised, the ledger is the one a fresh instance would build from the
  prefix of the log at its position (`ledger_equals_replay`).

  A call that raises need not leave the ledger as it found it: a conflict
  makes it rebuild, and it may raise after that (`raising_record_advances`).
  What it leaves is then the replay of a longer prefix.
-/

namespace QuantumEntanglement.Artifacts

open Transaction PyJson PyText PositionedLog

variable {cfg : LedgerConfig}

/-! ## Runs -/

/-- A call of an instance that may write. -/
inductive LedgerCall where
  | record (call : RecordCall)
  | restore (sessionId name : String) (targetVersion : Int) (taskId actorId : String)

def LedgerCall.exec (w : World cfg) : LedgerCall → LedgerTxn ArtifactVersion
  | .record call => Artifacts.record w call
  | .restore sessionId name target taskId actorId =>
    Artifacts.restore w sessionId name target taskId actorId

/-- The key a call is about. -/
def LedgerCall.key : LedgerCall → ArtifactKey
  | .record call => (call.sessionId, call.output.name)
  | .restore sessionId name _ _ _ => (sessionId, name)

/-- The instance after a list of calls, whatever each of them reported. -/
def runLedger (w : World cfg) : List LedgerCall → Machine → Machine
  | [], s => s
  | call :: rest, s => runLedger w rest (call.exec w s).2

theorem exec_run {w : World cfg} {call : LedgerCall} {s s' : Machine}
    {r : Except StoreError ArtifactVersion} (hs : Sound cfg s) (h : call.exec w s = (r, s')) :
    RecordOutcome w call.key s s' r := by
  cases call with
  | record call => exact record_run hs h
  | restore => exact restore_run hs h

theorem RecordOutcome.kept {w : World cfg} {key : ArtifactKey} {s s' : Machine}
    {r : Except StoreError ArtifactVersion} (h : RecordOutcome w key s s' r) : Kept w s s' := by
  cases r with
  | ok v => exact h.1
  | error e => exact h.1

/-- **Every run keeps the ledger replayed.** -/
theorem runLedger_kept {w : World cfg} : ∀ (calls : List LedgerCall) {s : Machine}, Sound cfg s →
    Kept w s (runLedger w calls s)
  | [], _, hs => .refl hs
  | call :: rest, s, hs => by
    rcases h : call.exec w s with ⟨r, s₁⟩
    have hk := (exec_run hs h).kept
    have hrest : Kept w s₁ (runLedger w rest s₁) := runLedger_kept rest hk.sound
    simp only [runLedger, h]
    exact hk.trans hrest

/-- A new instance is sound. -/
theorem newLedger_sound {w : World cfg} {db : Db} {tick : Nat} {s : Machine}
    (hi : LogInv db.events) (h : newLedger w db tick = (.ok (), s)) : Sound cfg s := by
  obtain ⟨hp, hrep, -⟩ := rebuild_run h hi
  exact ⟨hp.grows.inv hi, hrep⟩

/-! ## Worlds to run in -/

/-- An event another client writes. -/
def otherEvent : DomainEvent :=
  ⟨"notes", "note.added", .dict [], "someone", "other", "2024-01-01T00:00:00Z", none, none, none,
    by decide⟩

/-- The length of the longest identifier in use. -/
def longestId (cfg : LedgerConfig) (rows : List EventRow) : Nat :=
  maxOf (fun row => max row.eventId.length
    ((rowArtifact cfg row).elim 0 (·.item.ref.artifactId.length))) rows

/-- An identifier longer than those in use. -/
def freshHex (cfg : LedgerConfig) (rows : List EventRow) : String :=
  String.ofList (List.replicate (longestId cfg rows) 'a')

theorem append_new_rows {e : DomainEvent} {ev egp : Option Int} {stored : StoredEvent}
    {db db' : Db} (h : append cfg e ev egp db = (.ok stored, db')) :
    ∀ row ∈ db'.events, row ∈ db.events ∨ row.eventId = e.eventId := by
  obtain ⟨snap, inserted, hsnap, happ⟩ := append_ok h
  have hevent := (snapshotEvent_ok hsnap).1
  rcases appendInTransaction_ok happ with ⟨-, -, -, -, -, hins⟩ | ⟨-, rfl, -⟩
  · obtain ⟨-, -, -, rfl⟩ := insertEvent_ok.mp hins
    intro row hrow
    rcases List.mem_append.mp hrow with hmem | hmem
    · exact .inl hmem
    · rw [List.mem_singleton] at hmem
      exact .inr (by simp [hmem, EventWriteSnapshot.row, hevent])
  · exact fun row hrow => .inl hrow

theorem freshHex_event (cfg : LedgerConfig) (clock : UtcMoment) (db : Db) : ∀ row ∈ db.events,
    row.eventId ≠ (⟨freshHex cfg db.events, freshHex cfg db.events, clock, clock⟩ : Draw).eventId := by
  intro row hrow
  intro h
  have hlen := congrArg String.length h
  have hle := @le_maxOf _ (fun row : EventRow => max row.eventId.length
    ((rowArtifact cfg row).elim 0 (·.item.ref.artifactId.length))) _ _ hrow
  simp only [Draw.eventId, freshHex, String.length_append, String.length_ofList,
    List.length_replicate, longestId] at hlen
  have hprefix : "evt_".length = 4 := by decide
  omega

theorem freshHex_artifact (cfg : LedgerConfig) (clock : UtcMoment) (db : Db) : ∀ row ∈ db.events, ∀ d,
    rowArtifact cfg row = some d → d.item.ref.artifactId ≠
      (⟨freshHex cfg db.events, freshHex cfg db.events, clock, clock⟩ : Draw).artifactId := by
  intro row hrow d hd
  intro h
  have hlen := congrArg String.length h
  have hle := @le_maxOf _ (fun row : EventRow => max row.eventId.length
    ((rowArtifact cfg row).elim 0 (·.item.ref.artifactId.length))) _ _ hrow
  simp only [hd, Option.elim_some] at hle
  simp only [Draw.artifactId, freshHex, String.length_append, String.length_ofList,
    List.length_replicate, longestId] at hlen
  have hprefix : "art_".length = 4 := by decide
  omega

/-- A world where another client appends `otherEvent` before the accesses
chosen, and the accesses chosen fail. -/
def sharedWorld (cfg : LedgerConfig) (clock : UtcMoment) (busy : Nat → Bool) (fault : Nat → Fault) :
    World cfg where
  before n db := if busy n then (append cfg otherEvent none none db).2 else db
  fault := fault
  draw _ db := ⟨freshHex cfg db.events, freshHex cfg db.events, clock, clock⟩
  mine id := id ≠ "other"
  grows n db := by
    split
    · rcases h : append cfg otherEvent none none db with ⟨r, db'⟩
      cases r with
      | ok stored => exact append_grows h
      | error e =>
        rw [append_restores _ _ _ _ _ _ _ h]
        exact .refl
    · exact .refl
  foreign n db row hrow := by
    split at hrow
    · rcases h : append cfg otherEvent none none db with ⟨r, db'⟩
      rw [h] at hrow
      cases r with
      | ok stored =>
        rcases append_new_rows h row hrow with hmem | hid
        · exact .inl hmem
        · exact .inr (by simp [hid, otherEvent])
      | error e =>
        rw [append_restores _ _ _ _ _ _ _ h] at hrow
        exact .inl hrow
    · exact .inl hrow
  drawnMine n db := by
    intro h
    have hhead := congrArg (fun t : String => t.toList.head?) h
    simp [Draw.eventId] at hhead
  freshEvent _ db := freshHex_event cfg clock db
  freshArtifact _ db := freshHex_artifact cfg clock db

/-- A world where nobody else writes and nothing fails. -/
def quietWorld (cfg : LedgerConfig) (clock : UtcMoment) : World cfg :=
  sharedWorld cfg clock (fun _ => false) (fun _ => .none)

/-- Nobody else writes and nothing fails. -/
structure Quiet (w : World cfg) : Prop where
  alone : ∀ n db, w.before n db = db
  works : ∀ n, w.fault n = .none

theorem quietWorld_quiet (cfg : LedgerConfig) (clock : UtcMoment) : Quiet (quietWorld cfg clock) :=
  ⟨fun _ _ => rfl, fun _ => rfl⟩

/-! ## Fresh instances -/

theorem nextEvent_quiet {w : World cfg} (hw : Quiet w) {db : Db} (held : LedgerState) (tick : Nat)
    (hi : LogInv db.events) {after : Nat} {found : Option EventRow}
    (hnext : next EventRow.globalPosition after db.events = found) :
    access w (nextEvent cfg after) ⟨db, held, tick⟩ =
      (found.elim (.ok none) (fun row => (rowToEvent cfg row).map some), ⟨db, held, tick + 1⟩) := by
  simp only [access, hw.works, hw.alone, nextEvent, Bind.bind, Txn.query, orderBy_filter hi,
    List.head?_filter]
  rw [next] at hnext
  cases found with
  | none => simp [hnext, pure]
  | some row =>
    simp only [hnext, Txn.lift, Option.elim_some]
    cases rowToEvent cfg row <;> simp [Except.map, pure]

/-- **Undisturbed, reading on gives the fold of the whole log.** -/
theorem replayFrom_quiet {w : World cfg} (hw : Quiet w) {db : Db} (held : LedgerState)
    (hi : LogInv db.events) {whole : LedgerState} (hwhole : replayRows cfg db.events = .ok whole) :
    ∀ (n tick : Nat) (l : LedgerState), Replayed cfg db.events l →
      (beyond EventRow.globalPosition l.replayPosition db.events).length ≤ n →
        ∃ tick', replayFrom w n l ⟨db, held, tick⟩ = (.ok whole, ⟨db, held, tick'⟩)
  | n, tick, l, hl, hn => by
    cases hnext : next EventRow.globalPosition l.replayPosition db.events with
    | none =>
      have hacc := nextEvent_quiet hw held tick hi hnext
      simp only [Option.elim_none] at hacc
      have hdone : l = whole := by
        have hfold := hl.fold
        rw [upTo_all (le_of_next_none hnext), hwhole] at hfold
        exact (Except.ok.inj hfold).symm
      refine ⟨tick + 1, ?_⟩
      rw [← hdone]
      cases n <;> simp [replayFrom, Bind.bind, hacc, pure]
    | some row =>
      have hbeyond := beyond_next hi.positions hnext
      cases n with
      | zero => simp [hbeyond] at hn
      | succ n =>
        -- the whole fold goes through this row, so this row folds in
        have hsplit := upTo_beyond (p := l.replayPosition) hi.positions
        rw [hbeyond] at hsplit
        have hthrough := hwhole
        rw [replayRows, hsplit, List.foldlM_append] at hthrough
        have hfold := hl.fold
        rw [replayRows] at hfold
        rw [hfold] at hthrough
        simp only [List.foldlM_cons, except_bind_ok, Except.ok.injEq, exists_eq_left'] at hthrough
        obtain ⟨l', hrow, -⟩ := hthrough
        obtain ⟨stored, hstored, hstep⟩ := except_bind_ok.mp hrow
        have hpos := replayRow_position hrow
        have hlen : (beyond EventRow.globalPosition l'.replayPosition db.events).length ≤ n := by
          rw [hpos]
          simp only [hbeyond, List.length_cons] at hn
          omega
        obtain ⟨tick', hrest⟩ :=
          replayFrom_quiet hw held hi hwhole n (tick + 1) l' (hl.next hi hnext hrow) hlen
        refine ⟨tick', ?_⟩
        have hacc := nextEvent_quiet hw held tick hi hnext
        simp only [Option.elim_some, hstored, Except.map] at hacc
        simp only [replayFrom, Bind.bind, hacc, Txn.lift, hstep]
        exact hrest

/-- A fresh instance over a store nobody else uses. -/
def freshLedger (cfg : LedgerConfig) (clock : UtcMoment) (db : Db) : Except StoreError Unit × Machine :=
  newLedger (quietWorld cfg clock) db 0

/-- **A fresh instance holds the fold of the log.** -/
theorem freshLedger_eq {db : Db} {l : LedgerState} (clock : UtcMoment) (hi : LogInv db.events)
    (hlen : db.events.length ≤ cfg.limits.maxReplayEvents) (h : replayRows cfg db.events = .ok l) :
    (freshLedger cfg clock db).1 = .ok () ∧ (freshLedger cfg clock db).2.ledger = l := by
  have hle : (beyond EventRow.globalPosition LedgerState.empty.replayPosition db.events).length ≤
      cfg.limits.maxReplayEvents := Nat.le_trans (List.length_filter_le _ _) hlen
  obtain ⟨tick', hrun⟩ := replayFrom_quiet (quietWorld_quiet cfg clock) .empty hi h
    cfg.limits.maxReplayEvents 0 .empty (.empty hi) hle
  simp only [freshLedger, newLedger, rebuild, Bind.bind, hrun, Txn.update, and_self]

/-! ## The live state -/

/-- The store as it was at a position of the log. -/
def dbUpTo (db : Db) (position : Nat) : Db :=
  { db with events := upTo EventRow.globalPosition position db.events }

theorem logInv_upTo {rows : List EventRow} (h : LogInv rows) (position : Nat) :
    LogInv (upTo EventRow.globalPosition position rows) := by
  rw [upTo_beyond (p := position) h.positions] at h
  exact h.prefix_inv

/-- Two ledgers replayed from one log up to one position are the same. -/
theorem Replayed.unique {rows : List EventRow} {l l' : LedgerState} (h : Replayed cfg rows l)
    (h' : Replayed cfg rows l') (hpos : l.replayPosition = l'.replayPosition) : l = l' := by
  have hfold := h.fold
  rw [hpos, h'.fold] at hfold
  exact (Except.ok.inj hfold).symm

/-- A run that keeps the ledger replayed leaves it, or reads further. -/
theorem Kept.unchanged_or_further {w : World cfg} {s s' : Machine} (hs : Sound cfg s)
    (h : Kept w s s') :
    s'.ledger = s.ledger ∨ s.ledger.replayPosition < s'.ledger.replayPosition := by
  rcases Nat.lt_or_eq_of_le h.forward with hlt | heq
  · exact .inr hlt
  · exact .inl (h.sound.replayed.unique (hs.replayed.grows hs.log h.grows) heq.symm)

/-- **The live state of a ledger equals its replay.** After any calls of an
instance, in any world: the ledger is the fold of the log up to its position,
which is what a fresh instance builds from that prefix, and its versions are
numbered 1, 2, ..., n. A call that raises leaves the ledger as it was or
replayed from a longer prefix, and no row of its own unless by a lost
commit. -/
theorem ledger_equals_replay (w : World cfg) (clock : UtcMoment) (db : Db) (tick : Nat)
    (start : Machine) (hlog : LogInv db.events) (hstart : newLedger w db tick = (.ok (), start))
    (calls : List LedgerCall) :
    let s := runLedger w calls start
    let stored := dbUpTo s.db s.ledger.replayPosition
    replayRows cfg stored.events = .ok s.ledger ∧
      (stored.events.length ≤ cfg.limits.maxReplayEvents →
        (freshLedger cfg clock stored).1 = .ok () ∧
          (freshLedger cfg clock stored).2.ledger = s.ledger) ∧
      (∀ key, (s.ledger.history key).map (·.ref.version) =
        List.range' 1 (s.ledger.history key).length) ∧
      ∀ (call : LedgerCall) (e : StoreError) (s' : Machine), call.exec w s = (.error e, s') →
        (s'.ledger = s.ledger ∨ s.ledger.replayPosition < s'.ledger.replayPosition) ∧
          NoTrace w s s' := by
  intro s stored
  have hsound : Sound cfg s := (runLedger_kept calls (newLedger_sound hlog hstart)).sound
  have hfold : replayRows cfg stored.events = .ok s.ledger := hsound.replayed.fold
  refine ⟨hfold, ?_, hsound.replayed.consecutive, ?_⟩
  · intro hlen
    exact freshLedger_eq clock (logInv_upTo hsound.log _) hlen hfold
  · intro call e s' hcall
    obtain ⟨hkept, htrace⟩ := exec_run hsound hcall
    exact ⟨hkept.unchanged_or_further hsound, htrace⟩

/-! ## A call that raises and moves the ledger -/

def sampleConfig : LedgerConfig := ⟨⟨1048576, .py311⟩, defaultLimits⟩

/-- The midnight that begins 2024. -/
def sampleClock : UtcMoment := ⟨63839664000000000, by unfold IsoTime.InRange; decide⟩

def sampleOutput (content : String) : ArtifactOutput :=
  ⟨"report.md", content, "text/markdown", .dict [], by decide⟩

def sampleCall (taskId content : String) : RecordCall :=
  ⟨"s1", taskId, "writer", sampleOutput content, none, none, none⟩

/-- Another client writes before the first access of a call, and the access
after the rebuild fails. -/
def busyWorld : World sampleConfig :=
  sharedWorld sampleConfig sampleClock (fun n => n == 1)
    (fun n => if n = 6 then .before ⟨.sqliteOperational, "disk I/O error"⟩ else .none)

theorem newLedger_busy : newLedger busyWorld Db.empty 0 = (.ok (), ⟨Db.empty, .empty, 1⟩) := rfl

/-- Whether a call raised and left another ledger than it found. -/
def raisedAndMoved (w : World cfg) (call : RecordCall) (s : Machine) : Bool :=
  match record w call s with
  | (.ok _, _) => false
  | (.error _, s') => decide (s'.ledger ≠ s.ledger)

theorem raisedAndMoved_spec {w : World cfg} {call : RecordCall} {s : Machine}
    (h : raisedAndMoved w call s = true) :
    ∃ e s', record w call s = (.error e, s') ∧ s'.ledger ≠ s.ledger := by
  unfold raisedAndMoved at h
  split at h
  · simp at h
  next e s' hrun => exact ⟨e, s', hrun, of_decide_eq_true h⟩

def sampleRequest : ArtifactRecordRequest :=
  ⟨"s1", "t1", "writer", "report.md", "v1", "text/markdown", .dict [], none, none, none⟩

/-- The log after the other client's write. -/
def busyDb : Db := (append sampleConfig otherEvent none none Db.empty).2

def busyDraw : Draw := busyWorld.draw 2 busyDb

/-- The event the first attempt tries to append. -/
def busyEvent : DomainEvent :=
  ⟨sampleRequest.streamId, artifactEventType,
    versionPayload "s1" (sampleRequest.version [] busyDraw), "writer", busyDraw.eventId,
    utcNow busyDraw.timestamp, none, none, some sampleRequest.idempotencyKey, by decide⟩

theorem busyEvent_eq : sampleRequest.event [] busyDraw = .ok busyEvent := rfl

/-- No event of the log is in the session's stream. -/
theorem busy_noKey (key : String) : findKey busyDb.events sampleRequest.streamId key = none := by
  have hrows : busyDb.events.all
      (fun row => !decide (row.streamId = sampleRequest.streamId)) = true := by
    decide +kernel
  rw [findKey, List.find?_eq_none]
  intro row hrow
  have hother := List.all_eq_true.mp hrows row hrow
  simp only [Bool.not_eq_true', decide_eq_false_iff_not] at hother
  simp [hother]

theorem busy_lookup {key : String} (hkey : isBlank key = false) :
    getIdempotentEvent sampleConfig sampleRequest.streamId key busyDb = (.ok none, busyDb) := by
  have hstream : callerText sampleRequest.streamId "stream_id" true = .ok sampleRequest.streamId := by
    decide +kernel
  have hcaller : callerText key "idempotency_key" true = .ok key := by simp [callerText, hkey]
  simp only [getIdempotentEvent, hstream, hcaller, Bind.bind, Txn.lift, Txn.query, busy_noKey]
  rfl

/-- The others write nothing after the first access, and until the sixth none
fails. -/
theorem busy_access {α : Type} {m : DbTxn α} {r : Except StoreError α} (l : LedgerState)
    {tick : Nat} (hbusy : tick ≠ 1) (hfault : tick ≠ 6) (hrun : m busyDb = (r, busyDb)) :
    access busyWorld m ⟨busyDb, l, tick⟩ = (r, ⟨busyDb, l, tick + 1⟩) := by
  have hbefore : busyWorld.before tick busyDb = busyDb := by
    simp [busyWorld, sharedWorld, hbusy]
  have hnone : busyWorld.fault tick = .none := by
    simp [busyWorld, sharedWorld, hfault]
  simp only [access, hbefore, hnone, hrun]

/-- An append that expects another position than the log's last is refused. -/
theorem append_moved {cfg : LedgerConfig} {e : DomainEvent} {p : Nat} {snap : EventWriteSnapshot}
    {db : Db} (hsnap : snapshotEvent cfg e = .ok snap)
    (hkey : idempotentRow db.events snap.event = none)
    (hp : p ≤ maxSqliteInteger) (hmoved : maxOf (·.globalPosition) db.events ≠ p) :
    append cfg e none (some (p : Int)) db =
      (.error ⟨.concurrency, "global event position changed during admission"⟩, db) := by
  have hcursor : validatePageCursor p "expected_global_position" = .ok (p : Int) := by
    simp only [validatePageCursor, callerSqliteIntegerFrom, callerSqliteInteger]
    rw [if_neg (by omega), if_pos (by omega)]
  have hne : ¬∀ q ∈ some (p : Int), q = (maxOf (·.globalPosition) db.events : Nat) := by
    intro h
    have := h p rfl
    omega
  simp only [append, hsnap, callerExpectedVersion, hcursor, Except.map, Txn.lift, Bind.bind,
    Txn.atomically, appendInTransaction, Txn.query, hkey, Txn.ensure, hne, if_false, Txn.raise]

/-- A refused append whose event is not in the log repeats the round after a
rebuild. -/
theorem publish_repeats {w : World cfg} {event : DomainEvent} {message : String}
    {s s₁ s₂ s₃ : Machine}
    (happend : access w (append cfg event none (some s.ledger.replayPosition)) s =
      (.error ⟨.concurrency, message⟩, s₁))
    (hlookup : access w (getIdempotentEvent cfg event.streamId (event.idempotencyKey.getD "")) s₁ =
      (.ok none, s₂))
    (hrebuild : rebuild w s₂ = (.ok (), s₃)) : publish w false event s = (.ok none, s₃) := by
  simp [publish, reconcileCommittedEvent, retry, Bind.bind, Txn.query, Txn.attempt, happend, hlookup,
    hrebuild, pure]

/-- A round whose key is new and whose event is to be published again. -/
theorem admitOnce_repeats {w : World cfg} {request : ArtifactRecordRequest}
    {decoded : DecodedArtifactVersion} {event : DomainEvent} {last : Bool} {s s₁ s₂ : Machine}
    (hlookup : access w (getIdempotentEvent cfg request.streamId request.idempotencyKey) s =
      (.ok none, s₁))
    (hdecoded : request.decoded cfg.py (s.ledger.history request.key) (w.draw s₁.tick s₁.db) =
      .ok decoded)
    (husage : validateReplayUsage cfg.limits (s₁.ledger.usage.include decoded) = .ok ())
    (hevent : request.event (s.ledger.history request.key) (w.draw s₁.tick s₁.db) = .ok event)
    (hpublish : publish w last event s₁ = (.ok none, s₂)) :
    admitOnce w request last s = (.ok none, s₂) := by
  simp [admitOnce, Bind.bind, Txn.query, Txn.lift, hlookup, hdecoded, asRecordError, husage, hevent,
    hpublish, pure]

theorem busy_decodes : (match sampleRequest.decoded .py311 [] busyDraw with
    | .ok d => (validateReplayUsage defaultLimits (LedgerState.empty.usage.include d)).isOk
    | .error _ => false) = true := by
  decide +kernel

theorem busy_encodes :
    (encodeJsonObject sampleConfig.maxJsonBytes busyEvent.payload "event payload").isOk = true := by
  decide +kernel

theorem result_of_isOk {ε α : Type} {x : Except ε α} (h : x.isOk = true) : ∃ a, x = .ok a := by
  cases x with
  | error e => cases h
  | ok a => exact ⟨a, rfl⟩

theorem busy_conflict : append sampleConfig busyEvent none (some ((0 : Nat) : Int)) busyDb =
    (.error ⟨.concurrency, "global event position changed during admission"⟩, busyDb) := by
  obtain ⟨text, henc⟩ := result_of_isOk busy_encodes
  obtain ⟨snap, hsnap⟩ := snapshotEvent_of henc
  have hkey : idempotentRow busyDb.events snap.event = none := by
    rw [(snapshotEvent_ok hsnap).1]
    exact busy_noKey _
  have hlast : maxOf (·.globalPosition) busyDb.events = 1 := by decide +kernel
  exact append_moved hsnap hkey (Nat.zero_le _) (by rw [hlast]; decide)

/-- The rebuild reads the other client's event. -/
theorem busy_rebuilt : ∃ l : LedgerState, l ≠ .empty ∧
    rebuild busyWorld ⟨busyDb, .empty, 4⟩ = (.ok (), ⟨busyDb, l, 6⟩) := by
  have hstate : (rebuild busyWorld ⟨busyDb, .empty, 4⟩).1 = .ok () ∧
      (rebuild busyWorld ⟨busyDb, .empty, 4⟩).2.db = busyDb ∧
      (rebuild busyWorld ⟨busyDb, .empty, 4⟩).2.ledger.replayPosition = 1 ∧
      (rebuild busyWorld ⟨busyDb, .empty, 4⟩).2.tick = 6 := by
    decide +kernel
  rcases hrun : rebuild busyWorld ⟨busyDb, .empty, 4⟩ with ⟨r, db, l, tick⟩
  rw [hrun] at hstate
  obtain ⟨rfl, rfl, hposition, rfl⟩ := hstate
  refine ⟨l, fun hempty => ?_, rfl⟩
  rw [hempty] at hposition
  cases hposition

theorem busy_publish : ∃ l : LedgerState, l ≠ .empty ∧
    publish busyWorld false busyEvent ⟨busyDb, .empty, 2⟩ = (.ok none, ⟨busyDb, l, 6⟩) := by
  obtain ⟨l, hl, hrebuild⟩ := busy_rebuilt
  have happend := busy_access .empty (show 2 ≠ 1 by decide) (by decide) busy_conflict
  have hlookup := busy_access .empty (show 3 ≠ 1 by decide) (by decide)
    (busy_lookup sampleRequest.key_nonBlank)
  exact ⟨l, hl, publish_repeats happend hlookup hrebuild⟩

/-- The first round ends without a version, and with another ledger. -/
theorem busy_round : ∃ l : LedgerState, l ≠ .empty ∧
    admitOnce busyWorld sampleRequest false ⟨Db.empty, .empty, 1⟩ = (.ok none, ⟨busyDb, l, 6⟩) := by
  obtain ⟨l, hl, hpublish⟩ := busy_publish
  have hlookup : access busyWorld (getIdempotentEvent sampleConfig sampleRequest.streamId
      sampleRequest.idempotencyKey) ⟨Db.empty, .empty, 1⟩ = (.ok none, ⟨busyDb, .empty, 2⟩) := by
    have hbefore : busyWorld.before 1 Db.empty = busyDb := rfl
    have hnone : busyWorld.fault 1 = .none := rfl
    simp only [access, hbefore, hnone, busy_lookup sampleRequest.key_nonBlank]
  cases hd : sampleRequest.decoded .py311 [] busyDraw with
  | error e =>
    have hok := busy_decodes
    rw [hd] at hok
    cases hok
  | ok d =>
    have hok := busy_decodes
    rw [hd] at hok
    obtain ⟨_, husage⟩ := result_of_isOk hok
    exact ⟨l, hl, admitOnce_repeats hlookup hd husage busyEvent_eq hpublish⟩

/-- A record call that repeats its first round and fails in its second. -/
theorem record_fails {w : World cfg} {call : RecordCall} {request : ArtifactRecordRequest}
    {e : StoreError} {s s₁ s₂ : Machine} (hcapture : captureRequest call = .ok request)
    (hround : admitOnce w request false s = (.ok none, s₁))
    (hlookup : access w (getIdempotentEvent cfg request.streamId request.idempotencyKey) s₁ =
      (.error e, s₂)) : record w call s = (.error e, s₂) := by
  have hsecond : admitOnce w request false s₁ = (.error e, s₂) := by
    simp [admitOnce, Bind.bind, Txn.query, hlookup]
  simp [record, Bind.bind, Txn.lift, hcapture, maxRecordAdmissionAttempts, admitRounds, hround,
    hsecond]

theorem busy_moved :
    raisedAndMoved busyWorld (sampleCall "t1" "v1") ⟨Db.empty, .empty, 1⟩ = true := by
  obtain ⟨l, hl, hround⟩ := busy_round
  have hfault : busyWorld.fault 6 = .before ⟨.sqliteOperational, "disk I/O error"⟩ := rfl
  have hbefore : busyWorld.before 6 busyDb = busyDb := rfl
  have hlookup : access busyWorld (getIdempotentEvent sampleConfig sampleRequest.streamId
      sampleRequest.idempotencyKey) ⟨busyDb, l, 6⟩ =
        (.error ⟨.sqliteOperational, "disk I/O error"⟩, ⟨busyDb, l, 7⟩) := by
    simp only [access, hfault, hbefore]
  have hcapture : captureRequest (sampleCall "t1" "v1") = .ok sampleRequest := rfl
  rw [raisedAndMoved, record_fails hcapture hround hlookup]
  exact decide_eq_true hl

/-- **A call that raises may leave another ledger than it found.** Its first
append met a conflict, the rebuild read the other client's event, and the next
access failed. -/
theorem raising_record_advances :
    newLedger busyWorld Db.empty 0 = (.ok (), ⟨Db.empty, .empty, 1⟩) ∧
      ∃ e s', record busyWorld (sampleCall "t1" "v1") ⟨Db.empty, .empty, 1⟩ = (.error e, s') ∧
        s'.ledger ≠ LedgerState.empty :=
  ⟨newLedger_busy, raisedAndMoved_spec busy_moved⟩

theorem newLedger_quiet : newLedger (quietWorld sampleConfig sampleClock) Db.empty 0 =
    (.ok (), ⟨Db.empty, .empty, 1⟩) := rfl

/-- The live state after one recorded version. -/
theorem ledger_equals_replay_recorded :
    let s := runLedger (quietWorld sampleConfig sampleClock) [.record (sampleCall "t1" "v1")]
      ⟨Db.empty, .empty, 1⟩
    replayRows sampleConfig (dbUpTo s.db s.ledger.replayPosition).events = .ok s.ledger :=
  (ledger_equals_replay (quietWorld sampleConfig sampleClock) sampleClock Db.empty 0
    ⟨Db.empty, .empty, 1⟩ logInv_nil newLedger_quiet [.record (sampleCall "t1" "v1")]).1

end QuantumEntanglement.Artifacts
