import QuantumEntanglement.Artifacts.Consistency

/-
  Restore — when recording or restoring content makes it current

  One instance alone on its store: nobody else writes, nothing fails. A call
  of `record` whose idempotency key is free, and whose version the checks
  accept, extends the history by that version. A key that is held sends the
  call to the event that holds it, and then nothing is written: the call
  returns that older version or raises.

  The key is made of the task, the name and the digest of the content, so a
  task that restores content it has recorded or restored before holds the
  key already (`restore_own_content`).

  What is proved:
    1. `record_free`, `record_refused`, `record_held` — the three things a
       call can come to.
    2. `restore_takes_effect_iff` — in every state a run can reach, a restore
       takes effect exactly when its key is free and its version accepted.
-/

namespace QuantumEntanglement.Artifacts

open Transaction PyJson PyText PositionedLog

variable {cfg : LedgerConfig} {w : World cfg} {s s₁ s' : Machine}

/-! ## An instance that is up to date -/

/-- The ledger is replayed from the whole log. -/
structure Synced (cfg : LedgerConfig) (s : Machine) : Prop where
  sound : Sound cfg s
  caughtUp : CaughtUp s.db.events s.ledger

theorem Synced.position (hs : Synced cfg s) :
    s.ledger.replayPosition = maxOf (·.globalPosition) s.db.events :=
  hs.sound.replayed.caughtUp_iff.mp hs.caughtUp

theorem afterRead_quiet (hw : Quiet w) (s : Machine) :
    afterRead w s = ⟨s.db, s.ledger, s.tick + 1⟩ := by
  rw [afterRead, hw.alone]

theorem access_quiet {α : Type} (hw : Quiet w) (m : DbTxn α) (s : Machine) :
    access w m s = ((m s.db).1, ⟨(m s.db).2, s.ledger, s.tick + 1⟩) := by
  simp only [access, hw.works, hw.alone]

/-- Reading on, alone, leaves the store as it is. -/
theorem replayFrom_db (hw : Quiet w) : ∀ (n : Nat) (l : LedgerState),
    Txn.Always (fun a b => b.db = a.db) (replayFrom w n l)
  | n, l => by
    have ht : ∀ a b c : Machine, b.db = a.db → c.db = b.db → c.db = a.db :=
      fun _ _ _ hab hbc => hbc.trans hab
    have hread : Txn.Always (fun a b : Machine => b.db = a.db)
        (access w (nextEvent cfg l.replayPosition)) := by
      intro s
      rw [access_reads (nextEvent_reads _), afterRead_quiet hw]
    cases n with
    | zero =>
      refine .bind ht hread fun found => ?_
      cases found with
      | none => exact .of_reads (fun _ => rfl) (by simp)
      | some stored =>
        exact .bind ht (.of_reads (fun _ => rfl) (by simp)) fun _ => .of_reads (fun _ => rfl) (by simp)
    | succ n =>
      refine .bind ht hread fun found => ?_
      cases found with
      | none => exact .of_reads (fun _ => rfl) (by simp)
      | some stored =>
        exact .bind ht (.of_reads (fun _ => rfl) (by simp)) fun l' => replayFrom_db hw n l'

theorem rebuild_db (hw : Quiet w) : Txn.Always (fun a b => b.db = a.db) (rebuild w) :=
  .bind (fun _ _ _ hab hbc => hbc.trans hab) (replayFrom_db hw _ _) fun _ _ => rfl

/-- A run that wrote nothing leaves an up-to-date ledger as it is. -/
theorem Synced.stays (hs : Synced cfg s) (h : Kept w s s') (hdb : s'.db = s.db) :
    s'.ledger = s.ledger := by
  rcases h.unchanged_or_further hs.sound with heq | hlt
  · exact heq
  · rcases h.sound.replayed.reached with hzero | ⟨r, hr, hpos⟩
    · omega
    · rw [hdb] at hr
      have hle := hs.caughtUp r hr
      omega

/-! ## One round, alone -/

/-- No event of the stream holds the request's key. -/
def KeyFree (s : Machine) (r : ArtifactRecordRequest) : Prop :=
  findKey s.db.events r.streamId r.idempotencyKey = none

/-- The checks a version passes before it is inserted: the codec's, the
ledger's limits, the event store's limits on an event, and a position left. -/
def Accepted (cfg : LedgerConfig) (s : Machine) (r : ArtifactRecordRequest) (draw : Draw) : Prop :=
  ∃ d u event snap, r.decoded cfg.py (s.ledger.history r.key) draw = .ok d ∧
    validateReplayUsage cfg.limits (s.ledger.usage.include d) = .ok u ∧
    r.event (s.ledger.history r.key) draw = .ok event ∧ snapshotEvent cfg event = .ok snap ∧
    maxOf (·.globalPosition) s.db.events + 1 ≤ maxSqliteInteger

theorem ArtifactRecordRequest.stream_nonBlank (r : ArtifactRecordRequest) :
    isBlank r.streamId = false := by
  have hprefix : isBlank "session:" = false := by decide
  simp [ArtifactRecordRequest.streamId, isBlank_append, hprefix]

/-- The look-up that begins a round, alone. -/
theorem lookup_quiet (hw : Quiet w) (s : Machine) (r : ArtifactRecordRequest) :
    access w (getIdempotentEvent cfg r.streamId r.idempotencyKey) s =
      ((findKey s.db.events r.streamId r.idempotencyKey).elim (.ok none)
        (fun row => (rowToEvent cfg row).map some), ⟨s.db, s.ledger, s.tick + 1⟩) := by
  rw [access_quiet hw, getIdempotentEvent_eq cfg s.db r.stream_nonBlank r.key_nonBlank]

theorem Synced.tick (hs : Synced cfg s) (t : Nat) : Synced cfg ⟨s.db, s.ledger, t⟩ :=
  ⟨⟨hs.sound.log, hs.sound.replayed⟩, hs.caughtUp⟩

/-- The row a request finds its key at is the one its event finds. -/
theorem idempotentRow_event {r : ArtifactRecordRequest} {history : List ArtifactVersion}
    {draw : Draw} {event : DomainEvent} (h : r.event history draw = .ok event)
    (rows : List EventRow) : idempotentRow rows event = findKey rows r.streamId r.idempotencyKey := by
  obtain ⟨hstream, -, -, -, -, hkey⟩ := ArtifactRecordRequest.event_ok h
  simp only [idempotentRow, hkey, hstream]

/-- The row an append of an event added, and how it is read. -/
structure RowOf (cfg : LedgerConfig) (rows : List EventRow) (event : DomainEvent) (row : EventRow)
    (stored : StoredEvent) : Prop where
  reads : rowToEvent cfg row = .ok stored
  held : stored.event = event
  stream : row.streamId = event.streamId
  key : row.idempotencyKey = event.idempotencyKey
  position : row.globalPosition = maxOf (·.globalPosition) rows + 1

/-- The state a round under a free key leaves. -/
theorem admitOnce_state {request : ArtifactRecordRequest} {d : DecodedArtifactVersion} {u : Unit}
    {event : DomainEvent} {snap : EventWriteSnapshot} (last : Bool) (hw : Quiet w) (hs : Synced cfg s)
    (hm : Normal request.metadata) (hfree : KeyFree s request)
    (hdec : request.decoded cfg.py (s.ledger.history request.key) (w.draw (s.tick + 1) s.db) = .ok d)
    (husage : validateReplayUsage cfg.limits (s.ledger.usage.include d) = .ok u)
    (hev : request.event (s.ledger.history request.key) (w.draw (s.tick + 1) s.db) = .ok event)
    (hsnap : snapshotEvent cfg event = .ok snap)
    (hmax : maxOf (·.globalPosition) s.db.events + 1 ≤ maxSqliteInteger) :
    ∃ row stored, RowOf cfg s.db.events event row stored ∧
      admitOnce w request last s = (.ok (some (request.version (s.ledger.history request.key)
          (w.draw (s.tick + 1) s.db))),
        ⟨{ s.db with events := s.db.events ++ [row] }, s.ledger.extend d stored.globalPosition,
          s.tick + 2⟩) := by
  have hlook := lookup_quiet hw s request
  rw [hfree] at hlook
  simp only [Option.elim_none] at hlook
  have hdrawn : Drawn w ⟨s.db, s.ledger, s.tick + 1⟩ event := drawn_event hm hev
  obtain ⟨-, -, hitem⟩ := ArtifactRecordRequest.decoded_ok hm hdec
  have hnone : idempotentRow s.db.events event = none := by rw [idempotentRow_event hev]; exact hfree
  obtain ⟨stored, db', happ⟩ := append_inserts hs.sound.log hsnap hnone hdrawn.fresh hmax
  rcases append_cases hs.sound.log hdrawn.readable happ with ⟨row, hrow, -⟩ |
    ⟨-, -, row, rfl, -, hread, hnorm, -, hrstream, hrkey, hpos⟩
  · rw [hnone] at hrow
    simp at hrow
  · have hexpected : ((s.ledger.replayPosition : Nat) : Int) =
        (maxOf (·.globalPosition) s.db.events : Nat) := by rw [hs.position]
    have haccess : access w (append cfg event none (some s.ledger.replayPosition))
        ⟨s.db, s.ledger, s.tick + 1⟩ =
          (.ok stored, ⟨{ s.db with events := s.db.events ++ [row] }, s.ledger, s.tick + 2⟩) := by
      rw [access_quiet hw]
      simp only [hexpected, happ]
    have hpublish : publish w last event ⟨s.db, s.ledger, s.tick + 1⟩ =
        (.ok (some stored), ⟨{ s.db with events := s.db.events ++ [row] }, s.ledger, s.tick + 2⟩) := by
      simp only [publish, Bind.bind, Txn.query, Txn.attempt, haccess]
      rfl
    have hevent : stored.event = event := by rw [hnorm, hdrawn.normalized]
    have heq : stored.event.eventId = event.eventId := by rw [hevent]
    have hrun : admitOnce w request last s = (.ok (some d.item),
        ⟨{ s.db with events := s.db.events ++ [row] }, s.ledger.extend d stored.globalPosition,
          s.tick + 2⟩) := by
      simp only [admitOnce, Bind.bind, Txn.query, hlook, Txn.lift, hdec, husage, asRecordError, hev,
        hpublish, settle_own _ _ _ heq]
      rfl
    rw [hitem] at hrun
    exact ⟨row, stored, ⟨hread, hevent, hrstream, hrkey, hpos⟩, hrun⟩

/-- **A round under a free key extends the history by an accepted version.** -/
theorem admitOnce_free {request : ArtifactRecordRequest} (last : Bool) (hw : Quiet w)
    (hs : Synced cfg s) (hm : Normal request.metadata) (hfree : KeyFree s request)
    (haccepted : Accepted cfg s request (w.draw (s.tick + 1) s.db)) :
    ∃ s', admitOnce w request last s = (.ok (some (request.version (s.ledger.history request.key)
        (w.draw (s.tick + 1) s.db))), s') ∧
      Synced cfg s' ∧ s'.ledger.history request.key = s.ledger.history request.key ++
        [request.version (s.ledger.history request.key) (w.draw (s.tick + 1) s.db)] ∧
      ∃ row, s'.db.events = s.db.events ++ [row] ∧ row.streamId = request.streamId ∧
        row.idempotencyKey = some request.idempotencyKey := by
  obtain ⟨d, u, event, snap, hdec, husage, hev, hsnap, hmax⟩ := haccepted
  obtain ⟨hstream, -, -, -, -, hkey⟩ := ArtifactRecordRequest.event_ok hev
  obtain ⟨-, hdkey, hitem⟩ := ArtifactRecordRequest.decoded_ok hm hdec
  obtain ⟨row, stored, hrow, hrun⟩ := admitOnce_state last hw hs hm hfree hdec husage hev hsnap hmax
  have hsound := (admitOnce_run hm hs.sound hrun).1.sound
  have hstored := rowToEvent_position hrow.reads
  refine ⟨_, hrun, ⟨hsound, ?_⟩, ?_, row, rfl, by rw [hrow.stream, hstream], by rw [hrow.key, hkey]⟩
  · intro q hq
    simp only [LedgerState.extend]
    rcases List.mem_append.mp hq with hmem | hmem
    · have hle := hs.caughtUp q hmem
      have hposition := hs.position
      have hpos := hrow.position
      omega
    · rw [List.mem_singleton] at hmem
      rw [hmem, hstored]
  · simp [LedgerState.history_extend, hdkey, hitem]

/-- A round under a free key whose version is not accepted raises. -/
theorem admitOnce_refused {request : ArtifactRecordRequest} (last : Bool) (hw : Quiet w)
    (hs : Synced cfg s) (hfree : KeyFree s request)
    (hrefused : ¬Accepted cfg s request (w.draw (s.tick + 1) s.db)) :
    ∃ e t, admitOnce w request last s = (.error e, ⟨s.db, s.ledger, t⟩) := by
  have hlook := lookup_quiet hw s request
  rw [hfree] at hlook
  simp only [Option.elim_none] at hlook
  cases hdec : request.decoded cfg.py (s.ledger.history request.key) (w.draw (s.tick + 1) s.db) with
  | error e =>
    exact ⟨e, s.tick + 1, by simp only [admitOnce, Bind.bind, Txn.query, hlook, Txn.lift, hdec]⟩
  | ok d =>
    cases husage : validateReplayUsage cfg.limits (s.ledger.usage.include d) with
    | error e =>
      exact ⟨⟨.artifactRecord, "artifact record would exceed ledger safety limits"⟩, s.tick + 1, by
        simp only [admitOnce, Bind.bind, Txn.query, hlook, Txn.lift, hdec, husage, asRecordError,
          recordError]⟩
    | ok u =>
      cases hev : request.event (s.ledger.history request.key) (w.draw (s.tick + 1) s.db) with
      | error e =>
        exact ⟨e, s.tick + 1, by
          simp only [admitOnce, Bind.bind, Txn.query, hlook, Txn.lift, hdec, husage, asRecordError,
            hev]⟩
      | ok event =>
        -- the append cannot have inserted, so it raised, and not for a conflict
        have hnone : idempotentRow s.db.events event = none := by
          rw [idempotentRow_event hev]
          exact hfree
        rcases happ : append cfg event none (some s.ledger.replayPosition) s.db with ⟨r, db'⟩
        cases r with
        | ok stored =>
          obtain ⟨snap, inserted, hsnap, hins⟩ := append_ok happ
          refine absurd ⟨d, u, event, snap, hdec, husage, hev, hsnap, ?_⟩ hrefused
          rcases appendInTransaction_ok hins with ⟨-, -, -, -, -, hins⟩ | ⟨-, -, row, hrow, -⟩
          · obtain ⟨hp, hmax, -⟩ := insertEvent_ok.mp hins
            omega
          · have hsame : idempotentRow s.db.events snap.event = idempotentRow s.db.events event := by
              rw [(snapshotEvent_ok hsnap).1]
              rfl
            rw [hsame, hnone] at hrow
            simp at hrow
        | error e =>
          obtain rfl := append_restores _ _ _ _ _ _ _ happ
          have hkind : e.kind ≠ .concurrency := by
            intro hconflict
            have hne := append_conflict happ hconflict hnone
            rw [hs.position] at hne
            exact hne rfl
          have haccess : access w (append cfg event none (some s.ledger.replayPosition))
              ⟨s.db, s.ledger, s.tick + 1⟩ = (.error e, ⟨s.db, s.ledger, s.tick + 2⟩) := by
            rw [access_quiet hw]
            simp only [happ]
          obtain ⟨hstream, -, -, -, -, hkey⟩ := ArtifactRecordRequest.event_ok hev
          have hback : reconcileCommittedEvent w event s.ledger.replayPosition
              ⟨s.db, s.ledger, s.tick + 2⟩ = (.ok none, ⟨s.db, s.ledger, s.tick + 3⟩) := by
            have hagain := lookup_quiet hw ⟨s.db, s.ledger, s.tick + 2⟩ request
            rw [hfree] at hagain
            simp only [Option.elim_none] at hagain
            simp only [reconcileCommittedEvent, hstream, hkey, Option.getD_some, Bind.bind,
              Txn.attempt, hagain]
            rfl
          refine ⟨e, s.tick + 3, ?_⟩
          simp only [admitOnce, Bind.bind, Txn.query, hlook, Txn.lift, hdec, husage, asRecordError,
            hev, publish, Txn.attempt, haccess, hback, retry, if_neg hkind, Txn.raise]

/-- A round whose key is held writes nothing and is the last. -/
theorem admitOnce_held {request : ArtifactRecordRequest} {last : Bool}
    {r : Except StoreError (Option ArtifactVersion)} (hw : Quiet w) (hs : Synced cfg s)
    (hheld : ¬KeyFree s request) (h : admitOnce w request last s = (r, s')) :
    s'.db = s.db ∧ s'.ledger = s.ledger ∧ r ≠ .ok none := by
  have hlook := lookup_quiet hw s request
  obtain ⟨row, hrow⟩ := Option.ne_none_iff_exists'.mp hheld
  rw [hrow] at hlook
  simp only [Option.elim_some] at hlook
  simp only [admitOnce, Bind.bind, Txn.query, hlook] at h
  cases hread : rowToEvent cfg row with
  | error e =>
    rw [hread] at h
    obtain ⟨rfl, rfl⟩ := Prod.mk.inj h
    exact ⟨rfl, rfl, by simp⟩
  | ok existing =>
    simp only [hread, Except.map] at h
    have hs₁ := hs.tick (s.tick + 1)
    have hadv := resolve_advances w (s.ledger.history request.key) existing request
      ⟨s.db, s.ledger, s.tick + 1⟩ hs₁.sound
    have hdb := resolve_always (R := fun a b => b.db = a.db) (fun _ => rfl)
      (fun _ _ _ hab hbc => hbc.trans hab) (rebuild_db hw)
      (s.ledger.history request.key) existing request ⟨s.db, s.ledger, s.tick + 1⟩
    rcases hrun : resolveIdempotentVersion w (s.ledger.history request.key) existing request
      ⟨s.db, s.ledger, s.tick + 1⟩ with ⟨r₂, s₂⟩
    rw [hrun] at h hadv hdb
    have hledger : s₂.ledger = s.ledger := hs₁.stays hadv.kept hdb
    cases r₂ with
    | error e =>
      obtain ⟨rfl, rfl⟩ := Prod.mk.inj h
      exact ⟨hdb, hledger, by simp⟩
    | ok v =>
      obtain ⟨rfl, rfl⟩ := Prod.mk.inj h
      exact ⟨hdb, hledger, by simp⟩

/-! ## Whole calls, alone -/

/-- A call under a free key whose version is accepted. -/
def Admissible (w : World cfg) (s : Machine) (call : RecordCall) : Prop :=
  ∃ request, captureRequest call = .ok request ∧ KeyFree s request ∧
    Accepted cfg s request (w.draw (s.tick + 1) s.db)

/-- What a call that was recorded did. -/
structure Recorded (cfg : LedgerConfig) (call : RecordCall) (s s' : Machine) (v : ArtifactVersion) :
    Prop where
  synced : Synced cfg s'
  content : v.content = call.output.content
  history : s'.ledger.history (call.sessionId, call.output.name) =
    s.ledger.history (call.sessionId, call.output.name) ++ [v]
  held : ∀ request, captureRequest call = .ok request → ¬KeyFree s' request

/-- The version an admissible call records, and the row it inserts. -/
theorem record_inserts {call : RecordCall} {request : ArtifactRecordRequest} (hw : Quiet w)
    (hs : Synced cfg s) (hcap : captureRequest call = .ok request) (hfree : KeyFree s request)
    (haccepted : Accepted cfg s request (w.draw (s.tick + 1) s.db)) :
    ∃ s' row, record w call s =
        (.ok (request.version (s.ledger.history request.key) (w.draw (s.tick + 1) s.db)), s') ∧
      Synced cfg s' ∧ s'.ledger.history request.key = s.ledger.history request.key ++
        [request.version (s.ledger.history request.key) (w.draw (s.tick + 1) s.db)] ∧
      s'.db.events = s.db.events ++ [row] ∧ row.streamId = request.streamId ∧
      row.idempotencyKey = some request.idempotencyKey := by
  obtain ⟨hm, -⟩ := captureRequest_ok hcap
  obtain ⟨s', hrun, hsynced, hhistory, row, hrow, hstream, hrowkey⟩ :=
    admitOnce_free false hw hs hm hfree haccepted
  refine ⟨s', row, ?_, hsynced, hhistory, hrow, hstream, hrowkey⟩
  simp only [record, Bind.bind, Txn.lift, hcap, maxRecordAdmissionAttempts, admitRounds]
  have hlast : (decide (7 = 0)) = false := rfl
  simp only [hlast, hrun]
  rfl

/-- **An admissible call is recorded.** -/
theorem record_free {call : RecordCall} (hw : Quiet w) (hs : Synced cfg s)
    (h : Admissible w s call) : ∃ v s', record w call s = (.ok v, s') ∧ Recorded cfg call s s' v := by
  obtain ⟨request, hcap, hfree, haccepted⟩ := h
  obtain ⟨-, hkey, hcontent, -⟩ := captureRequest_ok hcap
  obtain ⟨s', row, hrun, hsynced, hhistory, hrow, hstream, hrowkey⟩ :=
    record_inserts hw hs hcap hfree haccepted
  rw [hkey] at hhistory hrun
  refine ⟨_, s', hrun, hsynced, ?_, hhistory, ?_⟩
  · rw [← hcontent]
    rfl
  · intro request' hcap' hfree'
    rw [hcap] at hcap'
    obtain rfl := Except.ok.inj hcap'
    have hmem : row ∈ s'.db.events := by
      rw [hrow]
      exact List.mem_append_right _ (List.mem_singleton.mpr rfl)
    have hfound := hsynced.sound.log.findKey_eq hmem hrowkey
    rw [KeyFree, ← hstream, hfound] at hfree'
    simp at hfree'

/-- **A call that is not admissible writes nothing.** -/
theorem record_inadmissible {call : RecordCall} {r : Except StoreError ArtifactVersion}
    (hw : Quiet w) (hs : Synced cfg s) (hnot : ¬Admissible w s call)
    (h : record w call s = (r, s')) : s'.db = s.db ∧ s'.ledger = s.ledger := by
  cases hcap : captureRequest call with
  | error e =>
    simp only [record, Bind.bind, Txn.lift, hcap] at h
    obtain ⟨rfl, rfl⟩ := Prod.mk.inj h
    exact ⟨rfl, rfl⟩
  | ok request =>
    have hlast : (decide (7 = 0)) = false := rfl
    simp only [record, Bind.bind, Txn.lift, hcap, maxRecordAdmissionAttempts, admitRounds, hlast] at h
    by_cases hfree : KeyFree s request
    · obtain ⟨e, t, hrun⟩ := admitOnce_refused false hw hs hfree
        (fun haccepted => hnot ⟨request, hcap, hfree, haccepted⟩)
      rw [hrun] at h
      obtain ⟨rfl, rfl⟩ := Prod.mk.inj h
      exact ⟨rfl, rfl⟩
    · rcases hrun : admitOnce w request false s with ⟨r₁, s₁⟩
      obtain ⟨hdb, hledger, hlast'⟩ := admitOnce_held hw hs hfree hrun
      rw [hrun] at h
      rcases r₁ with e | _ | v
      · obtain ⟨rfl, rfl⟩ := Prod.mk.inj h
        exact ⟨hdb, hledger⟩
      · exact absurd rfl hlast'
      · obtain ⟨rfl, rfl⟩ := Prod.mk.inj h
        exact ⟨hdb, hledger⟩

/-- An inadmissible call whose key is free raises. -/
theorem record_refused {call : RecordCall} {request : ArtifactRecordRequest} (hw : Quiet w)
    (hs : Synced cfg s) (hcap : captureRequest call = .ok request) (hfree : KeyFree s request)
    (hnot : ¬Admissible w s call) : ∃ e s', record w call s = (.error e, s') := by
  obtain ⟨e, t, hrun⟩ := admitOnce_refused false hw hs hfree
    (fun haccepted => hnot ⟨request, hcap, hfree, haccepted⟩)
  have hlast : (decide (7 = 0)) = false := rfl
  exact ⟨e, ⟨s.db, s.ledger, t⟩, by
    simp only [record, Bind.bind, Txn.lift, hcap, maxRecordAdmissionAttempts, admitRounds, hlast, hrun]⟩

theorem Synced.of_same (hs : Synced cfg s) (hdb : s'.db = s.db) (hl : s'.ledger = s.ledger) :
    Synced cfg s' := by
  obtain ⟨db, ledger, tick⟩ := s'
  simp only at hdb hl
  subst hdb hl
  exact hs.tick tick

theorem record_synced {call : RecordCall} {r : Except StoreError ArtifactVersion} (hw : Quiet w)
    (hs : Synced cfg s) (h : record w call s = (r, s')) : Synced cfg s' := by
  by_cases hadm : Admissible w s call
  · obtain ⟨v, s₂, hrun, hrec⟩ := record_free hw hs hadm
    rw [hrun] at h
    obtain ⟨-, rfl⟩ := Prod.mk.inj h
    exact hrec.synced
  · obtain ⟨hdb, hl⟩ := record_inadmissible hw hs hadm h
    exact hs.of_same hdb hl

/-! ## Restoring -/

/-- The call a restore makes, when the output it builds has a name. -/
def restoreCall (sessionId name : String) (target : Int) (taskId actorId : String)
    (source : ArtifactVersion) : Except StoreError RecordCall := do
  let output ← ArtifactOutput.make name source.content source.ref.mediaType
    (.dict [("restoredFrom", .int target)])
  .ok ⟨sessionId, taskId, actorId, output, none, none, some "rollback"⟩

/-- A restore of an existing version is the recording of its content. -/
theorem restore_eq {sessionId name taskId actorId : String} {target : Int} {source : ArtifactVersion}
    (hat : versionAt (s.ledger.history (sessionId, name)) target = some source) :
    restore w sessionId name target taskId actorId s =
      (Txn.lift (restoreCall sessionId name target taskId actorId source) >>= record w) s := by
  simp only [restore, Bind.bind, Txn.query, Txn.lift, hat, restoreCall, Except.bind]
  cases ArtifactOutput.make name source.content source.ref.mediaType
    (.dict [("restoredFrom", .int target)]) <;> rfl

theorem restoreCall_ok {sessionId name taskId actorId : String} {target : Int}
    {source : ArtifactVersion} {call : RecordCall}
    (h : restoreCall sessionId name target taskId actorId source = .ok call) :
    call.sessionId = sessionId ∧ call.output.name = name ∧ call.output.content = source.content ∧
      call.taskId = taskId := by
  simp only [restoreCall, except_bind_ok, Except.ok.injEq] at h
  obtain ⟨output, hmake, rfl⟩ := h
  obtain ⟨hname, hcontent, -⟩ := ArtifactOutput.make_ok hmake
  exact ⟨rfl, hname, hcontent, rfl⟩

theorem exec_synced (hw : Quiet w) (hs : Synced cfg s) : ∀ call : LedgerCall,
    Synced cfg (call.exec w s).2 := by
  intro call
  cases call with
  | record call =>
    rcases h : record w call s with ⟨r, s'⟩
    have hsynced := record_synced hw hs h
    simp only [LedgerCall.exec, h]
    exact hsynced
  | restore sessionId name target taskId actorId =>
    simp only [LedgerCall.exec]
    cases hat : versionAt (s.ledger.history (sessionId, name)) target with
    | none =>
      simp only [restore, Bind.bind, Txn.query, hat, Txn.raise]
      exact hs
    | some source =>
      rw [restore_eq hat]
      simp only [Bind.bind, Txn.lift]
      cases restoreCall sessionId name target taskId actorId source with
      | error e => exact hs
      | ok call =>
        rcases h : record w call s with ⟨r, s'⟩
        have hsynced := record_synced hw hs h
        simpa only [h] using hsynced

/-- **Alone on its store, an instance stays up to date.** -/
theorem runLedger_synced (hw : Quiet w) : ∀ (calls : List LedgerCall) {s : Machine}, Synced cfg s →
    Synced cfg (runLedger w calls s)
  | [], _, hs => hs
  | call :: rest, _, hs => runLedger_synced hw rest (exec_synced hw hs call)

theorem newLedger_synced {db : Db} {tick : Nat} (hi : LogInv db.events)
    (h : newLedger w db tick = (.ok (), s)) : Synced cfg s := by
  obtain ⟨hp, hrep, hcaught⟩ := rebuild_run h hi
  exact ⟨⟨hp.grows.inv hi, hrep⟩, hcaught⟩

/-- A restore takes effect: it returns a version with the source's content,
which is the new last of a history that is otherwise what it was. -/
def RestoreTakesEffect (w : World cfg) (s : Machine) (sessionId name : String) (target : Int)
    (taskId actorId : String) (source : ArtifactVersion) : Prop :=
  ∃ v s', restore w sessionId name target taskId actorId s = (.ok v, s') ∧
    v.content = source.content ∧ s'.ledger.current (sessionId, name) = some v ∧
    s'.ledger.history (sessionId, name) = s.ledger.history (sessionId, name) ++ [v]

/-- **A restore takes effect exactly when it is admissible, and a recorded
content is current exactly when its key was free or it was current before.**
In every state the calls of an instance alone on its store can reach. -/
theorem restore_takes_effect_iff (w : World cfg) (hw : Quiet w) (db : Db) (tick : Nat)
    (start : Machine) (hlog : LogInv db.events) (hstart : newLedger w db tick = (.ok (), start))
    (calls : List LedgerCall) :
    let s := runLedger w calls start
    (∀ (sessionId name : String) (target : Int) (taskId actorId : String) (source : ArtifactVersion),
      versionAt (s.ledger.history (sessionId, name)) target = some source →
        (RestoreTakesEffect w s sessionId name target taskId actorId source ↔
          ∃ call, restoreCall sessionId name target taskId actorId source = .ok call ∧
            Admissible w s call)) ∧
      ∀ (call : RecordCall) (v : ArtifactVersion) (s' : Machine), record w call s = (.ok v, s') →
        ((s'.ledger.current (call.sessionId, call.output.name)).map (·.content) =
            some call.output.content ↔
          (∃ request, captureRequest call = .ok request ∧ KeyFree s request) ∨
            (s.ledger.current (call.sessionId, call.output.name)).map (·.content) =
              some call.output.content) := by
  intro s
  have hs : Synced cfg s := runLedger_synced hw calls (newLedger_synced hlog hstart)
  clear_value s
  constructor
  · intro sessionId name target taskId actorId source hat
    constructor
    · rintro ⟨v, s', hrun, -, -, hhistory⟩
      rw [restore_eq hat, Txn.bind_ok] at hrun
      obtain ⟨call, s₁, hlift, hrun⟩ := hrun
      obtain ⟨hcall, rfl⟩ := Txn.lift_ok.mp hlift
      refine ⟨call, hcall, ?_⟩
      -- a call that is not admissible leaves the history as long as it was
      by_contra hnot
      obtain ⟨-, hledger⟩ := record_inadmissible hw hs hnot hrun
      rw [hledger] at hhistory
      have hlen := congrArg List.length hhistory
      simp at hlen
    · rintro ⟨call, hcall, hadm⟩
      obtain ⟨hsession, hname, hcontent, -⟩ := restoreCall_ok hcall
      obtain ⟨v, s', hrun, hrec⟩ := record_free hw hs hadm
      have hhistory := hrec.history
      rw [hsession, hname] at hhistory
      refine ⟨v, s', ?_, by rw [hrec.content, hcontent], ?_, hhistory⟩
      · rw [restore_eq hat, Txn.bind_ok]
        exact ⟨call, s, Txn.lift_ok.mpr ⟨hcall, rfl⟩, hrun⟩
      · rw [LedgerState.current, hhistory]
        simp
  · intro call v s' hrun
    obtain ⟨request, _, hlift, -⟩ := Txn.bind_ok.mp hrun
    obtain ⟨hcap, -⟩ := Txn.lift_ok.mp hlift
    by_cases hfree : KeyFree s request
    · have hadm : Admissible w s call := by
        by_contra hnot
        obtain ⟨e, s₂, herror⟩ := record_refused hw hs hcap hfree hnot
        rw [herror] at hrun
        simp at hrun
      obtain ⟨v', s₂, hrun', hrec⟩ := record_free hw hs hadm
      rw [hrun'] at hrun
      obtain ⟨-, rfl⟩ := Prod.mk.inj hrun
      refine iff_of_true ?_ (.inl ⟨request, hcap, hfree⟩)
      rw [LedgerState.current, hrec.history]
      simp [hrec.content]
    · have hnot : ¬Admissible w s call := by
        rintro ⟨request', hcap', hfree', -⟩
        rw [hcap] at hcap'
        obtain rfl := Except.ok.inj hcap'
        exact hfree hfree'
      obtain ⟨-, hledger⟩ := record_inadmissible hw hs hnot hrun
      rw [hledger]
      constructor
      · exact .inr
      · rintro (⟨request', hcap', hfree'⟩ | h)
        · rw [hcap] at hcap'
          obtain rfl := Except.ok.inj hcap'
          exact absurd hfree' hfree
        · exact h

/-- The equivalence on the state one recording leaves. -/
theorem restore_takes_effect_iff_alone :
    let w := quietWorld sampleConfig sampleClock
    let s := runLedger w [.record (sampleCall "t1" "v1")] ⟨Db.empty, .empty, 1⟩
    ∀ (sessionId name : String) (target : Int) (taskId actorId : String) (source : ArtifactVersion),
      versionAt (s.ledger.history (sessionId, name)) target = some source →
        (RestoreTakesEffect w s sessionId name target taskId actorId source ↔
          ∃ call, restoreCall sessionId name target taskId actorId source = .ok call ∧
            Admissible w s call) :=
  (restore_takes_effect_iff _ (quietWorld_quiet sampleConfig sampleClock) Db.empty 0 _ logInv_nil
    newLedger_quiet [.record (sampleCall "t1" "v1")]).1

/-! ## Content a task has recorded before -/

/-- Whether a call is admissible, computed. -/
def admits (w : World cfg) (s : Machine) (call : RecordCall) : Bool :=
  match captureRequest call with
  | .error _ => false
  | .ok r =>
    match r.decoded cfg.py (s.ledger.history r.key) (w.draw (s.tick + 1) s.db) with
    | .error _ => false
    | .ok d => (findKey s.db.events r.streamId r.idempotencyKey).isNone &&
        (validateReplayUsage cfg.limits (s.ledger.usage.include d)).isOk &&
        (r.event (s.ledger.history r.key) (w.draw (s.tick + 1) s.db)).isOk &&
        (encodeJsonObject cfg.maxJsonBytes (versionPayload r.sessionId
          (r.version (s.ledger.history r.key) (w.draw (s.tick + 1) s.db))) "event payload").isOk &&
        decide (maxOf (·.globalPosition) s.db.events + 1 ≤ maxSqliteInteger)

theorem isOk_iff {α : Type} {x : Except StoreError α} : x.isOk = true ↔ ∃ a, x = .ok a := by
  cases x <;> simp [Except.isOk, Except.toBool]

theorem admits_sound {call : RecordCall} (h : admits w s call = true) : Admissible w s call := by
  unfold admits at h
  split at h
  · simp at h
  next r hcap =>
    split at h
    · simp at h
    next d hdec =>
      simp only [Bool.and_eq_true, isOk_iff, Option.isNone_iff_eq_none, decide_eq_true_eq] at h
      obtain ⟨⟨⟨⟨hfree, u, husage⟩, event, hev⟩, text, henc⟩, hmax⟩ := h
      obtain ⟨-, -, hpayload, -⟩ := ArtifactRecordRequest.event_ok hev
      have hsnapshot : ∃ snap, snapshotEvent cfg event = .ok snap :=
        snapshotEvent_of (by rw [hpayload]; exact henc)
      obtain ⟨snap, hsnap⟩ := hsnapshot
      exact ⟨r, hcap, hfree, d, u, event, snap, hdec, husage, hev, hsnap, hmax⟩

/-- Whether a value is stored as a text of few letters. -/
def storesShort (maxBytes : Nat) (value : Value) : Bool :=
  match copyValue "event payload" 0 0 value with
  | .error _ => false
  | .ok (copied, _) => isObject copied && decide (4 * (render (PyJson.normalize copied)).length ≤ maxBytes)

theorem storesShort_sound {maxBytes : Nat} {value : Value} (h : storesShort maxBytes value = true) :
    (encodeJsonObject maxBytes value "event payload").isOk = true := by
  unfold storesShort at h
  split at h
  · simp at h
  next copied n hcopy =>
    simp only [Bool.and_eq_true, decide_eq_true_eq] at h
    have hbytes : (dumps copied).utf8ByteSize ≤ maxBytes := (utf8ByteSize_le _).trans h.2
    simp only [encodeJsonObject, hcopy, bind, Except.bind, h.1, Bool.not_true, Bool.false_eq_true, if_false,
      if_neg (Nat.not_lt.mpr hbytes)]
    exact rfl

/-- Whether a call whose event is short is admissible: its text is not built. -/
def admitsShort (w : World cfg) (s : Machine) (call : RecordCall) : Bool :=
  match captureRequest call with
  | .error _ => false
  | .ok r =>
    match r.decoded cfg.py (s.ledger.history r.key) (w.draw (s.tick + 1) s.db) with
    | .error _ => false
    | .ok d => (findKey s.db.events r.streamId r.idempotencyKey).isNone &&
        (validateReplayUsage cfg.limits (s.ledger.usage.include d)).isOk &&
        (r.event (s.ledger.history r.key) (w.draw (s.tick + 1) s.db)).isOk &&
        storesShort cfg.maxJsonBytes (versionPayload r.sessionId
          (r.version (s.ledger.history r.key) (w.draw (s.tick + 1) s.db))) &&
        decide (maxOf (·.globalPosition) s.db.events + 1 ≤ maxSqliteInteger)

theorem admits_of_short {call : RecordCall} (h : admitsShort w s call = true) :
    admits w s call = true := by
  unfold admitsShort at h
  unfold admits
  split at h
  · simp at h
  next r hcap =>
    split at h
    · simp at h
    next d hdec =>
      simp only [Bool.and_eq_true] at h
      simp only [Bool.and_eq_true]
      exact ⟨⟨h.1.1, storesShort_sound h.1.2⟩, h.2⟩

theorem admits_sample : admits (quietWorld sampleConfig sampleClock) ⟨Db.empty, .empty, 1⟩
    (sampleCall "t1" "v1") = true := by
  apply admits_of_short
  decide +kernel

/-- Requests of one task for the same content under the same name ask for one
key. -/
theorem KeyFree.congr {r r' : ArtifactRecordRequest} (hkey : r.key = r'.key)
    (htask : r.taskId = r'.taskId) (hcontent : r.content = r'.content) :
    KeyFree s r ↔ KeyFree s r' := by
  obtain ⟨hsession, hname⟩ := Prod.mk.inj hkey
  simp only [KeyFree, ArtifactRecordRequest.streamId, ArtifactRecordRequest.idempotencyKey, hsession,
    hname, htask, hcontent]

/-- **A task that records content cannot restore it.** Whatever the version it
restores says beside its content. -/
theorem restore_recorded {call : RecordCall} {v : ArtifactVersion} {k : Nat} {actorId : String}
    {source : ArtifactVersion} (hw : Quiet w) (hs : Synced cfg s) (hadm : Admissible w s call)
    (hrun : record w call s = (.ok v, s'))
    (hat : versionAt (s'.ledger.history (call.sessionId, call.output.name)) k = some source)
    (hsource : source.content = call.output.content) :
    ¬RestoreTakesEffect w s' call.sessionId call.output.name k call.taskId actorId source := by
  obtain ⟨v', s₂, hrun', hrec⟩ := record_free hw hs hadm
  rw [hrun] at hrun'
  obtain ⟨-, rfl⟩ := Prod.mk.inj hrun'
  obtain ⟨first, hfirst, -⟩ := hadm
  rintro ⟨v₂, s₂, hrestore, -, -, hgrown⟩
  rw [restore_eq hat, Txn.bind_ok] at hrestore
  obtain ⟨again, s₃, hlift, hrestore⟩ := hrestore
  obtain ⟨hcall, rfl⟩ := Txn.lift_ok.mp hlift
  obtain ⟨hsession, hname, hcontent, htask⟩ := restoreCall_ok hcall
  -- the restore asks for the key the recording holds
  have hnot : ¬Admissible w s' again := by
    rintro ⟨request, hcap, hfree, -⟩
    obtain ⟨-, hkey, hcont, htask'⟩ := captureRequest_ok hcap
    obtain ⟨-, hkey', hcont', htask''⟩ := captureRequest_ok hfirst
    have hcongr : KeyFree s' request ↔ KeyFree s' first := by
      apply KeyFree.congr
      · rw [hkey, hkey', hsession, hname]
      · rw [htask', htask'', htask]
      · rw [hcont, hcont', hcontent, hsource]
    exact hrec.held first hfirst (hcongr.mp hfree)
  obtain ⟨-, hledger⟩ := record_inadmissible hw hrec.synced hnot hrestore
  rw [hledger] at hgrown
  have hlen := congrArg List.length hgrown
  simp at hlen

/-- A first version that is recorded and cannot be restored by its task. -/
theorem restore_first {call : RecordCall} {tick : Nat} (hw : Quiet w)
    (hstart : newLedger w Db.empty 0 = (.ok (), ⟨Db.empty, .empty, tick⟩))
    (hadm : Admissible w ⟨Db.empty, .empty, tick⟩ call) (actorId : String) :
    ∃ source, versionAt ((runLedger w [.record call] ⟨Db.empty, .empty, tick⟩).ledger.history
        (call.sessionId, call.output.name)) 1 = some source ∧
      ¬RestoreTakesEffect w (runLedger w [.record call] ⟨Db.empty, .empty, tick⟩) call.sessionId
        call.output.name 1 call.taskId actorId source := by
  have hs := newLedger_synced logInv_nil hstart
  obtain ⟨v, s', hrun, hrec⟩ := record_free hw hs hadm
  have hstate : runLedger w [.record call] ⟨Db.empty, .empty, tick⟩ = s' := by
    simp only [runLedger, LedgerCall.exec, hrun]
  rw [hstate]
  have hhistory : s'.ledger.history (call.sessionId, call.output.name) = [v] := hrec.history
  have hat : versionAt (s'.ledger.history (call.sessionId, call.output.name)) 1 = some v := by
    rw [hhistory]
    rfl
  exact ⟨v, hat, restore_recorded hw hs hadm hrun hat hrec.content⟩

/-- The first version of a report: its task cannot restore it. -/
theorem restore_own_content :
    let w := quietWorld sampleConfig sampleClock
    let s := runLedger w [.record (sampleCall "t1" "v1")] ⟨Db.empty, .empty, 1⟩
    newLedger w Db.empty 0 = (.ok (), ⟨Db.empty, .empty, 1⟩) ∧
      ∃ source, versionAt (s.ledger.history ("s1", "report.md")) 1 = some source ∧
        ¬RestoreTakesEffect w s "s1" "report.md" 1 "t1" "owner" source :=
  ⟨newLedger_quiet, restore_first (quietWorld_quiet sampleConfig sampleClock) newLedger_quiet
    (admits_sound admits_sample) "owner"⟩

end QuantumEntanglement.Artifacts
