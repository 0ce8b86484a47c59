import QuantumEntanglement.Projections.Leases

/-
  Projections, exactly once — what a run of the offset store adds up to

  `apply_event` presents an event to its handler and writes the handler's
  tables, the receipt and the checkpoint in one transaction. What keeps them
  together is that the transaction is still open when the handler is done, and
  nothing looks: a statement that fails under the conflict clause ROLLBACK ends
  it, and what is executed then is committed statement by statement.

  What is proved:
    1. `runHandler_keeps` — a handler that keeps its transaction raises and has
       committed nothing, or returns with its effect on the tables.
    2. `applyEvent_keeps` — an `apply_event` that meets the condition ends in
       one of two ways: it applied its event, or it changed nothing.
    3. `step_laws` — what one call does to a checkpoint, an epoch, the receipts
       and the tables.
    4. `exactly_once` — over a run of such calls the receipts are the applied
       calls in order, the tables are the effects of exactly these, positions
       and epochs grow, and no released epoch comes back.
    5. `committed_after_rollback` (anti-vacuity) — two runs with a handler that
       loses its transaction, which break this.
-/

namespace QuantumEntanglement.ProjectionOffsets

open PyText IsoTime Transaction TransitionSystem

variable {R : Type}

/-! ## Handlers and their transaction -/

/-- What a handler makes of the tables in a transaction that stays open; none
where it raises. -/
def Handler.effect : Handler R → R → Option R
  | .returns, tables => some tables
  | .raises _, _ => none
  | .executes statement next, tables =>
    match statement tables with
    | .done tables' => (next false tables').effect tables'
    | .failed tables' => (next true tables').effect tables'
    | .rolledBack => none

/-- A handler that changes these tables no more, and raises. -/
def Handler.Withdraws : Handler R → R → Prop
  | .returns, _ => False
  | .raises _, _ => True
  | .executes statement next, tables =>
    match statement tables with
    | .done tables' => tables' = tables ∧ (next false tables).Withdraws tables
    | .failed tables' => tables' = tables ∧ (next true tables).Withdraws tables
    | .rolledBack => (next true tables).Withdraws tables

/-- A handler that keeps its transaction: no statement ends it, or the handler
then changes nothing of the committed tables and raises. -/
def Handler.Keeps (committed : R) : Handler R → R → Prop
  | .returns, _ => True
  | .raises _, _ => True
  | .executes statement next, tables =>
    match statement tables with
    | .done tables' => (next false tables').Keeps committed tables'
    | .failed tables' => (next true tables').Keeps committed tables'
    | .rolledBack => (next true committed).Withdraws committed

/-- A handler without its transaction that withdraws leaves what was
committed. -/
theorem runHandler_withdraws (handler : Handler R) (db : ProjectionDb R)
    (h : handler.Withdraws db.tables) :
    ∃ e s, runHandler handler ⟨db, db, false⟩ = (.error e, s) ∧ s.committed = db := by
  induction handler with
  | returns => exact h.elim
  | raises exception => exact ⟨_, _, rfl, rfl⟩
  | executes statement next ih =>
    simp only [Handler.Withdraws] at h
    simp only [runHandler, Session.execute]
    split at h
    next tables hrun =>
      obtain ⟨rfl, hnext⟩ := h
      simp only [hrun]
      exact ih _ _ hnext
    next tables hrun =>
      obtain ⟨rfl, hnext⟩ := h
      simp only [hrun]
      exact ih _ _ hnext
    next hrun =>
      simp only [hrun]
      exact ih _ _ h

/-- A session whose transaction is open: it began at `committed` and sees
`current`. -/
abbrev Session.inside (committed current : ProjectionDb R) : Session R := ⟨committed, current, true⟩

/-- **A handler that keeps its transaction** raises and has committed nothing,
or returns inside the transaction with its effect. -/
theorem runHandler_keeps (handler : Handler R) (committed current : ProjectionDb R)
    (h : handler.Keeps committed.tables current.tables) :
    (∃ e s, runHandler handler (.inside committed current) = (.error e, s) ∧
      s.committed = committed) ∨
    ∃ tables, handler.effect current.tables = some tables ∧
      runHandler handler (.inside committed current) =
        (.ok (), .inside committed { current with tables }) := by
  induction handler generalizing current with
  | returns => exact .inr ⟨_, rfl, rfl⟩
  | raises exception => exact .inl ⟨_, _, rfl, rfl⟩
  | executes statement next ih =>
    simp only [Handler.Keeps] at h
    simp only [runHandler, Session.execute, Handler.effect]
    split at h
    next tables hrun =>
      simp only [hrun]
      exact ih _ _ { current with tables } h
    next tables hrun =>
      simp only [hrun]
      exact ih _ _ { current with tables } h
    next hrun =>
      -- The transaction is over, and the connection sees what was committed.
      simp only [hrun]
      exact .inl (runHandler_withdraws _ _ h)

/-! ## A body that commits nothing before its end -/

/-- Run inside a transaction, a program commits nothing, and if it returns the
transaction is still open. -/
def Withholds {α : Type} (m : SessionTxn R α) (committed current : ProjectionDb R) : Prop :=
  (m (.inside committed current)).2.committed = committed ∧
    ∀ a, (m (.inside committed current)).1 = .ok a → (m (.inside committed current)).2.isOpen = true

theorem Withholds.reads {α : Type} {m : SessionTxn R α} {committed current : ProjectionDb R}
    (hm : Txn.Reads m) : Withholds m committed current := by
  rw [Withholds, hm]
  exact ⟨rfl, fun _ _ => rfl⟩

theorem Withholds.after_read {α β : Type} {m : SessionTxn R α} {f : α → SessionTxn R β}
    {committed current : ProjectionDb R} (hm : Txn.Reads m)
    (hf : ∀ a, m (.inside committed current) = (.ok a, .inside committed current) →
      Withholds (f a) committed current) : Withholds (m >>= f) committed current := by
  have hs := hm (.inside committed current)
  simp only [Withholds, Bind.bind]
  rcases hrun : m (.inside committed current) with ⟨r, s⟩
  rw [hrun] at hs
  obtain rfl : s = .inside committed current := hs
  cases r with
  | error e => exact ⟨rfl, nofun⟩
  | ok a => exact hf a hrun

theorem Withholds.after_write {β : Type} {f : ProjectionDb R → ProjectionDb R}
    {g : Unit → SessionTxn R β} {committed current : ProjectionDb R}
    (hg : Withholds (g ()) committed (f current)) :
    Withholds (write f >>= g) committed current := hg

theorem Withholds.after_handler {β : Type} {handler : Handler R} {g : Unit → SessionTxn R β}
    {committed current : ProjectionDb R} (h : handler.Keeps committed.tables current.tables)
    (hg : ∀ tables, Withholds (g ()) committed { current with tables }) :
    Withholds (runHandler handler >>= g) committed current := by
  simp only [Withholds, Bind.bind]
  rcases runHandler_keeps handler committed current h with ⟨e, s, hrun, hs⟩ | ⟨tables, -, hrun⟩
  · rw [hrun]
    exact ⟨hs, nofun⟩
  · rw [hrun]
    exact hg tables

/-- Such a body, raising or not, commits all of its writes or none. -/
theorem Withholds.inTransaction {α : Type} {body : SessionTxn R α} {db db' : ProjectionDb R}
    {e : OffsetError} (h : Withholds body db db) (hrun : inTransaction body db = (.error e, db')) :
    db' = db := by
  rcases inTransaction_cases body db with ⟨e', s, hbody, hend⟩ | ⟨a, s, hbody, hclosed, -⟩ |
    ⟨a, s, hbody, -, hend⟩
  · have hcommitted := h.1
    rw [hbody] at hcommitted
    rw [hend] at hrun
    exact (Prod.mk.inj hrun).2.symm.trans hcommitted
  · have hopen := h.2 a
    rw [hbody] at hopen
    rw [hopen rfl] at hclosed
    cases hclosed
  · rw [hend] at hrun
    cases hrun

/-! ## `apply_event` -/

/-- An event that is presented to its handler: the lease is live, the event has
no receipt and comes next. -/
structure Presented (py : PyVersion) (lease : ProjectionLease) (expected : Int) (event : EventRef)
    (clock : String) (db : ProjectionDb R) : Prop where
  leaseOk : LeaseOk lease
  name : NameOk event.eventId
  position : event.globalPosition ≤ maxSqliteInteger
  next : expected < event.globalPosition
  fresh : findReceipt lease.projectionName event.eventId db = none
  live : ∃ m row, ClockReads py clock m ∧ findOffset lease.projectionName db = some row ∧
    Live py lease (momentText m) row ∧ row.lastGlobalPosition = expected

/-- **The condition on a call**: a handler that is presented an event keeps its
transaction. -/
def Operation.KeepsAt (py : PyVersion) (clock : String) (db : ProjectionDb R) : Operation R → Prop
  | .applyEvent lease expected event handler =>
    Presented py lease expected event clock db → handler.Keeps db.tables db.tables
  | _ => True

/-- What an `apply_event` that applied its event did: the handler's effect, the
receipt and the checkpoint together. -/
structure Applied (py : PyVersion) (lease : ProjectionLease) (expected : Int) (event : EventRef)
    (handler : Handler R) (clock : String) (db db' : ProjectionDb R) : Prop where
  next : expected < event.globalPosition
  fresh : findReceipt lease.projectionName event.eventId db = none
  wrote : ∃ m row tables, ClockReads py clock m ∧ findOffset lease.projectionName db = some row ∧
    Live py lease (momentText m) row ∧ row.lastGlobalPosition = expected ∧
    handler.effect db.tables = some tables ∧
    db' = updateOffsets (checkpointAt lease expected) (·.movedTo event.globalPosition (momentText m))
      { db with
        tables := tables
        receipts := db.receipts ++
          [⟨lease.projectionName, event.eventId, event.globalPosition, momentText m⟩] }

theorem applyFresh_withholds {py : PyVersion} {lease : ProjectionLease} {expected : Int}
    {event : EventRef} {handler : Handler R} {now : String} {offset : OffsetRow}
    {db : ProjectionDb R}
    (h : offset.lastGlobalPosition = expected → expected < event.globalPosition →
      handler.Keeps db.tables db.tables) :
    Withholds (applyFresh py lease expected event handler now offset) db db := by
  unfold applyFresh
  refine .after_read (Txn.reads_ensure _ _) fun _ hexpected => ?_
  refine .after_read (Txn.reads_ensure _ _) fun _ hnext => ?_
  have hkeeps := h (Txn.ensure_ok.mp hexpected).1 (Txn.ensure_ok.mp hnext).1
  refine .after_handler hkeeps fun tables => ?_
  refine .after_read (Txn.reads_query _) fun _ _ => ?_
  refine .after_read (Txn.reads_ensure _ _) fun _ _ => ?_
  refine .after_write ?_
  refine .after_read (Txn.reads_query _) fun _ _ => ?_
  refine .after_write ?_
  refine .after_read (Txn.reads_ensure _ _) fun _ _ => ?_
  refine .after_read (Txn.reads_query _) fun found _ => ?_
  cases found with
  | none => exact .reads (Txn.reads_raise _)
  | some updated => exact .reads (Txn.Reads.bind (Txn.reads_lift _) fun _ => Txn.reads_pure _)

/-- **An `apply_event` that raises changed nothing.** -/
theorem applyEvent_error {py : PyVersion} {lease : ProjectionLease} {expected : Int}
    {event : EventRef} {handler : Handler R} {clock : String} {e : OffsetError}
    {db db' : ProjectionDb R}
    (hkeeps : Presented py lease expected event clock db → handler.Keeps db.tables db.tables)
    (h : applyEvent py lease expected event handler clock db = (.error e, db')) : db' = db := by
  simp only [applyEvent, Txn.bind_error, Txn.lift_error, Txn.ensure_error, Txn.lift_ok,
    Txn.ensure_ok, validateLease_ok, validatePosition_ok, validateName_ok] at h
  rcases h with ⟨-, rfl⟩ | ⟨_, _, ⟨⟨hlease, rfl⟩, rfl⟩, ⟨-, rfl⟩ | ⟨_, _, ⟨⟨-, rfl⟩, rfl⟩,
    ⟨-, -, rfl⟩ | ⟨_, _, ⟨hposition, rfl⟩, ⟨-, rfl⟩ | ⟨_, _, ⟨⟨hname, -⟩, rfl⟩, h⟩⟩⟩⟩
  · rfl
  · rfl
  · rfl
  · rfl
  · refine Withholds.inTransaction ?_ h
    refine .after_read (Txn.reads_lift _) fun now hnow => ?_
    refine .after_read (Txn.reads_query _) fun found hfound => ?_
    refine .after_read (Txn.reads_lift _) fun row hrow => ?_
    obtain ⟨m, hm, rfl⟩ := readClock_ok.mp (Txn.lift_ok.mp hnow).1
    obtain rfl := (Txn.query_ok.mp hfound).1
    obtain ⟨hrow, hlive⟩ := liveOffset_ok.mp (Txn.lift_ok.mp hrow).1
    refine .after_read (Txn.reads_query _) fun receipt hreceipt => ?_
    cases receipt with
    | some receipt => exact .reads (Txn.reads_lift _)
    | none =>
      refine applyFresh_withholds fun hexpected hnext => hkeeps ?_
      exact ⟨hlease, hname, hposition.2, hnext, (Txn.query_ok.mp hreceipt).1, m, row, hm, hrow,
        hlive, hexpected⟩

theorem applyReceipted_ok {py : PyVersion} {lease : ProjectionLease} {event : EventRef}
    {offset : OffsetRow} {receipt : ReceiptRow} {result : ApplyResult}
    (h : applyReceipted py lease event offset receipt = .ok result) : result = ⟨false, offset⟩ := by
  rw [applyReceipted, Checked.except_bind_ok] at h
  obtain ⟨decoded, -, h⟩ := h
  split at h
  · cases h
  · split at h
    · cases h
    · exact (Except.ok.inj h).symm

/-- **An `apply_event` that returned** found the event's receipt and changed
nothing, or applied the event. -/
theorem applyEvent_keeps {py : PyVersion} {lease : ProjectionLease} {expected : Int}
    {event : EventRef} {handler : Handler R} {clock : String} {result : ApplyResult}
    {db db' : ProjectionDb R}
    (hkeeps : Presented py lease expected event clock db → handler.Keeps db.tables db.tables)
    (h : applyEvent py lease expected event handler clock db = (.ok result, db')) :
    (result.applied = false ∧ db' = db) ∨
      (result.applied = true ∧ Applied py lease expected event handler clock db db') := by
  have hchecks := h
  simp only [applyEvent, Txn.bind_ok, Txn.lift_ok, Txn.ensure_ok, validateName_ok] at hchecks
  obtain ⟨_, _, -, _, _, -, _, _, ⟨hposition, -⟩, _, _, ⟨⟨hname, -⟩, -⟩, -⟩ := hchecks
  obtain ⟨m, row, s, hlease, hm, hrow, hlive, hbody, -, rfl⟩ := applyEvent_ok h
  simp only [applyLocked, Txn.bind_ok, look, Txn.query_ok] at hbody
  obtain ⟨receipt, _, ⟨hreceipt, rfl⟩, hbody⟩ := hbody
  cases receipt with
  | some receipt =>
    obtain ⟨hresult, rfl⟩ := Txn.lift_ok.mp hbody
    rw [applyReceipted_ok hresult]
    exact .inl ⟨rfl, rfl⟩
  | none =>
    simp only [applyFresh, Txn.bind_ok, Txn.ensure_ok, look, Txn.query_ok, write, Txn.update_ok]
      at hbody
    obtain ⟨_, _, ⟨hexpected, rfl⟩, _, _, ⟨hnext, rfl⟩, _, _, hhandler, _, _, ⟨-, rfl⟩, _, _,
      ⟨-, rfl⟩, _, _, rfl, _, _, ⟨-, rfl⟩, _, _, rfl, _, _, ⟨-, rfl⟩, found, _, ⟨-, rfl⟩,
      hbody⟩ := hbody
    have hpresented : Presented py lease expected event clock db :=
      ⟨hlease, hname, hposition.2, hnext, hreceipt, m, row, hm, hrow, hlive, hexpected⟩
    rcases runHandler_keeps handler db db (hkeeps hpresented) with ⟨e, s', hrun, -⟩ |
      ⟨tables, heffect, hrun⟩
    · rw [hrun] at hhandler
      cases hhandler
    · rw [hrun] at hhandler
      obtain rfl := (Prod.mk.inj hhandler).2
      cases found with
      | none => cases hbody
      | some updated =>
        simp only [Txn.bind_ok, Txn.lift_ok, Txn.pure_ok] at hbody
        obtain ⟨_, _, ⟨-, rfl⟩, rfl, rfl⟩ := hbody
        exact .inr ⟨rfl, hnext, hreceipt, m, row, tables, hm, hrow, hlive, hexpected, heffect, rfl⟩

/-! ## What one call does -/

/-- A connector's claim, as the call that returned it. -/
def Call.claimed? (call : Call R) : Option ProjectionLease :=
  match call.operation, call.result with
  | .claim _ _ _, .ok (.lease lease) => some lease
  | _, _ => none

/-- An event a call applied, with the projection and the handler. -/
structure AppliedEvent (R : Type) where
  projectionName : String
  event : EventRef
  handler : Handler R

/-- The event the call applied. -/
def Call.applied? (call : Call R) : Option (AppliedEvent R) :=
  match call.operation, call.result with
  | .applyEvent lease _ event handler, .ok (.applied result) =>
    if result.applied then some ⟨lease.projectionName, event, handler⟩ else none
  | _, _ => none

/-- No row is lost, no epoch and no checkpoint goes back. -/
def Grows (db db' : ProjectionDb R) : Prop :=
  ∀ name row, findOffset name db = some row → ∃ row', findOffset name db' = some row' ∧
    row.ownerEpoch ≤ row'.ownerEpoch ∧ row.lastGlobalPosition ≤ row'.lastGlobalPosition

/-- An event is applied: its handler's effect, its receipt and its checkpoint
together, and the event comes after all that the checkpoint covers. -/
structure AppliesIn (db : ProjectionDb R) (applied : AppliedEvent R) (db' : ProjectionDb R) : Prop where
  effect : applied.handler.effect db.tables = some db'.tables
  receipt : ∃ stamp, db'.receipts = db.receipts ++
    [⟨applied.projectionName, applied.event.eventId, applied.event.globalPosition, stamp⟩]
  fresh : findReceipt applied.projectionName applied.event.eventId db = none
  checkpoint : ∃ row row', findOffset applied.projectionName db = some row ∧
    row.lastGlobalPosition < applied.event.globalPosition ∧
    findOffset applied.projectionName db' = some row' ∧
    row'.lastGlobalPosition = applied.event.globalPosition

theorem Grows.refl (db : ProjectionDb R) : Grows db db :=
  fun _ row h => ⟨row, h, Int.le_refl _, Int.le_refl _⟩

/-- An UPDATE that takes no found row back. -/
theorem grows_updated {p : OffsetRow → Bool} {f : OffsetRow → OffsetRow} {db : ProjectionDb R}
    (hname : ∀ row, (f row).projectionName = row.projectionName)
    (hf : ∀ name row, findOffset name db = some row → p row = true →
      row.ownerEpoch ≤ (f row).ownerEpoch ∧ row.lastGlobalPosition ≤ (f row).lastGlobalPosition) :
    Grows db (updateOffsets p f db) := by
  intro name row hrow
  refine ⟨_, findOffset_updated hrow hname, ?_⟩
  split
  next hp => exact hf name row hrow hp
  next => exact ⟨Int.le_refl _, Int.le_refl _⟩

theorem grows_moveExpiry {lease : ProjectionLease} {persisted expiry now : String} {u : Unit}
    {db db' : ProjectionDb R} (h : moveExpiry lease persisted expiry now db = (.ok u, db')) :
    Grows db db' := by
  obtain ⟨-, rfl⟩ := moveExpiry_ok.mp h
  exact grows_updated (fun _ => rfl) fun _ _ _ _ => ⟨Int.le_refl _, Int.le_refl _⟩

theorem grows_movedTo {lease : ProjectionLease} {expected position : Int} {now : String}
    {db : ProjectionDb R} (h : expected < position) :
    Grows db (updateOffsets (checkpointAt lease expected) (·.movedTo position now) db) := by
  refine grows_updated (fun _ => rfl) fun name row _ hp => ⟨Int.le_refl _, ?_⟩
  simp only [checkpointAt, Bool.and_eq_true, beq_iff_eq] at hp
  show row.lastGlobalPosition ≤ position
  omega

/-- A claim's write. -/
theorem claim_grows {py : PyVersion} {name owner clock : String} {seconds : LeaseSeconds}
    {lease : ProjectionLease} {db db' : ProjectionDb R}
    (h : claim py name owner seconds clock db = (.ok lease, db')) :
    Grows db db' ∧ db'.tables = db.tables ∧ db'.receipts = db.receipts ∧
      (∃ row', findOffset lease.projectionName db' = some row' ∧
        row'.ownerEpoch = lease.ownerEpoch) ∧
      ∀ row, findOffset lease.projectionName db = some row → row.ownerEpoch < lease.ownerEpoch := by
  obtain ⟨s, m, -, -, -, -, -, hcases⟩ := claim_ok h
  rcases hcases with ⟨hnone, rfl, rfl⟩ | ⟨taken, htaken, -, -, -, rfl, rfl⟩
  · refine ⟨fun n row hrow => ⟨row, ?_, Int.le_refl _, Int.le_refl _⟩, rfl, rfl, ?_, ?_⟩
    · simp only [findOffset, List.find?_append] at hrow ⊢
      rw [hrow]
      rfl
    · refine ⟨⟨name, 0, owner, 1, momentText (m + leaseMicros s), momentText m⟩, ?_, rfl⟩
      simp only [findOffset, List.find?_append] at hnone ⊢
      rw [hnone]
      simp
    · intro row hrow
      rw [hnone] at hrow
      cases hrow
  · refine ⟨grows_updated (fun _ => rfl) fun n row hrow hp => ⟨?_, Int.le_refl _⟩, rfl, rfl,
      ⟨_, findOffset_updated htaken (fun _ => rfl), ?_⟩, ?_⟩
    · -- The row with the name is the row the claim found.
      have hn : n = name := by
        rw [← findOffset_name hrow]
        exact beq_iff_eq.mp hp
      subst hn
      obtain rfl : row = taken := Option.some.inj (hrow.symm.trans htaken)
      show row.ownerEpoch ≤ row.ownerEpoch + 1
      omega
    · simp [findOffset_name htaken]
    · intro row hrow
      obtain rfl : row = taken := Option.some.inj (hrow.symm.trans htaken)
      show row.ownerEpoch < row.ownerEpoch + 1
      omega

theorem Applied.grows {py : PyVersion} {lease : ProjectionLease} {expected : Int} {event : EventRef}
    {handler : Handler R} {clock : String} {db db' : ProjectionDb R}
    (h : Applied py lease expected event handler clock db db') : Grows db db' := by
  obtain ⟨hnext, -, m, row, tables, -, -, -, -, -, rfl⟩ := h
  -- The checkpoints are those of `db`: only they matter here.
  intro name row hrow
  exact grows_movedTo hnext name row hrow

theorem Applied.appliesIn {py : PyVersion} {lease : ProjectionLease} {expected : Int}
    {event : EventRef} {handler : Handler R} {clock : String} {db db' : ProjectionDb R}
    (h : Applied py lease expected event handler clock db db') :
    AppliesIn db ⟨lease.projectionName, event, handler⟩ db' := by
  obtain ⟨hnext, hfresh, m, row, tables, -, hrow, hlive, hexpected, heffect, rfl⟩ := h
  have hcheckpoint : checkpointAt lease expected row = true := by
    simp [checkpointAt, hlive.ownedBy, hexpected]
  have hupdated := findOffset_updated (p := checkpointAt lease expected)
    (f := (·.movedTo event.globalPosition (momentText m))) hrow (fun _ => rfl)
  rw [if_pos hcheckpoint] at hupdated
  have hlt : row.lastGlobalPosition < event.globalPosition := by omega
  exact ⟨heffect, ⟨momentText m, rfl⟩, hfresh, row, _, hrow, hlt, hupdated, rfl⟩

/-- The calls of any number of owners, each of which meets the condition on the
state it finds. -/
def keepingSystem (py : PyVersion) : System (ProjectionDb R) (Call R) where
  start := (offsetSystem py).start
  step db call db' :=
    (offsetSystem py).step db call db' ∧ call.operation.KeepsAt py call.clock db

/-- A call that raises changes nothing. -/
theorem step_raises {py : PyVersion} {call : Call R} {db db' : ProjectionDb R}
    (hstep : (keepingSystem py).step db call db') {e : OffsetError} (he : call.result = .error e) :
    db' = db := by
  obtain ⟨op, clock, result⟩ := call
  obtain rfl : result = .error e := he
  obtain ⟨hrun, hkeeps⟩ := hstep
  have hrun : op.run py clock db = (.error e, db') := hrun
  cases op with
  | claim name owner seconds => exact claim_error.map _ db e db' hrun
  | renew lease seconds => exact renew_error.map _ db e db' hrun
  | advance lease expected position => exact advance_error.map _ db e db' hrun
  | release lease => exact release_error.map _ db e db' hrun
  | applyEvent lease expected event handler =>
    simp only [Operation.run, Txn.bind_error, Txn.pure_error, and_false, exists_false, or_false]
      at hrun
    exact applyEvent_error hkeeps hrun

/-- A call behind the fence fails. -/
theorem step_fenced {py : PyVersion} {call : Call R} {db db' : ProjectionDb R}
    (hstep : (offsetSystem py).step db call db') {lease : ProjectionLease} {m : Int} {row : OffsetRow}
    (hlease : call.operation.lease? = some lease) (hm : ClockReads py call.clock m)
    (hrow : findOffset lease.projectionName db = some row)
    (hstale : row.ownerEpoch ≠ lease.ownerEpoch ∨
      isAfter py row.leaseExpiresAt (momentText m) = false) : ¬call.Succeeded := by
  intro hok
  obtain ⟨reply, hreply⟩ := hok
  have hrun : call.operation.run py call.clock db = (call.result, db') := hstep
  rw [hreply] at hrun
  obtain ⟨m', row', hm', hrow', hlive⟩ := fence_of_ok hlease hrun
  obtain rfl := hm.unique hm'
  obtain rfl : row = row' := Option.some.inj (hrow.symm.trans hrow')
  rcases hstale with hepoch | hexpired
  · exact hepoch hlive.epoch
  · rw [hlive.later] at hexpired
    cases hexpired

theorem error_of_not_succeeded {call : Call R} (h : ¬call.Succeeded) :
    ∃ e, call.result = .error e := by
  cases hresult : call.result with
  | error e => exact ⟨e, rfl⟩
  | ok reply => exact (h ⟨reply, hresult⟩).elim

/-- What a call wrote. -/
structure Wrote (db : ProjectionDb R) (call : Call R) (db' : ProjectionDb R) : Prop where
  /-- Checkpoints and epochs do not go back. -/
  grows : Grows db db'
  /-- A claim raises the epoch of its projection's row. -/
  claims : ∀ lease, call.claimed? = some lease →
    (∃ row', findOffset lease.projectionName db' = some row' ∧ row'.ownerEpoch = lease.ownerEpoch) ∧
    ∀ row, findOffset lease.projectionName db = some row → row.ownerEpoch < lease.ownerEpoch
  applies : ∀ applied, call.applied? = some applied → AppliesIn db applied db'
  /-- Every other call leaves the tables and the receipts. -/
  others : call.applied? = none → db'.tables = db.tables ∧ db'.receipts = db.receipts

/-- The laws of one call. -/
structure StepLaws (py : PyVersion) (db : ProjectionDb R) (call : Call R) (db' : ProjectionDb R) : Prop
    extends Wrote db call db' where
  /-- A call that raises, its handler or the store, changes nothing. -/
  raises : ∀ e, call.result = .error e → db' = db
  /-- A call under a stale epoch, or past its lease's expiry, changes nothing. -/
  fenced : ∀ lease m row, call.operation.lease? = some lease → ClockReads py call.clock m →
    findOffset lease.projectionName db = some row →
    (row.ownerEpoch ≠ lease.ownerEpoch ∨ isAfter py row.leaseExpiresAt (momentText m) = false) →
    ¬call.Succeeded ∧ db' = db

/-- A call that neither claims nor applies, and leaves tables and receipts. -/
theorem Wrote.plain {db db' : ProjectionDb R} {call : Call R} (hgrows : Grows db db')
    (hclaimed : call.claimed? = none) (happlied : call.applied? = none)
    (htables : db'.tables = db.tables) (hreceipts : db'.receipts = db.receipts) :
    Wrote db call db' where
  grows := hgrows
  claims lease h := by
    rw [hclaimed] at h
    cases h
  applies applied h := by
    rw [happlied] at h
    cases h
  others _ := ⟨htables, hreceipts⟩

theorem step_wrote {py : PyVersion} {call : Call R} {db db' : ProjectionDb R}
    (hstep : (keepingSystem py).step db call db') : Wrote db call db' := by
  have hraises := fun e => step_raises (e := e) hstep
  obtain ⟨op, clock, result⟩ := call
  obtain ⟨hrun, hkeeps⟩ := hstep
  have hrun : op.run py clock db = (result, db') := hrun
  cases result with
  | error e =>
    obtain rfl := hraises e rfl
    cases op with
    | _ => exact .plain (Grows.refl _) rfl rfl rfl rfl
  | ok reply =>
    cases op with
    | claim name owner seconds =>
      simp only [Operation.run, Txn.bind_ok, Txn.pure_ok] at hrun
      obtain ⟨lease, _, hclaim, rfl, rfl⟩ := hrun
      obtain ⟨hgrows, htables, hreceipts, hlease⟩ := claim_grows hclaim
      refine ⟨hgrows, fun lease' h => ?_, fun _ h => absurd h.symm (Option.some_ne_none _), fun _ => ⟨htables, hreceipts⟩⟩
      obtain rfl : lease = lease' := Option.some.inj h
      exact hlease
    | renew lease seconds =>
      simp only [Operation.run, Txn.bind_ok, Txn.pure_ok, renew_ok] at hrun
      obtain ⟨_, _, ⟨s, m, row, -, -, -, -, -, -, hmove, -⟩, rfl, rfl⟩ := hrun
      have hgrows := grows_moveExpiry hmove
      obtain ⟨-, rfl⟩ := moveExpiry_ok.mp hmove
      exact .plain hgrows rfl rfl rfl rfl
    | advance lease expected position =>
      simp only [Operation.run, Txn.bind_ok, Txn.pure_ok] at hrun
      obtain ⟨_, _, hadvance, rfl, rfl⟩ := hrun
      obtain ⟨m, row, -, -, -, hlt, -, -, -, -, rfl⟩ := advance_ok hadvance
      exact .plain (grows_movedTo hlt) rfl rfl rfl rfl
    | release lease =>
      simp only [Operation.run, Txn.bind_ok, Txn.pure_ok, release_ok] at hrun
      obtain ⟨_, _, ⟨m, row, -, -, -, -, hmove⟩, rfl, rfl⟩ := hrun
      have hgrows := grows_moveExpiry hmove
      obtain ⟨-, rfl⟩ := moveExpiry_ok.mp hmove
      exact .plain hgrows rfl rfl rfl rfl
    | applyEvent lease expected event handler =>
      simp only [Operation.run, Txn.bind_ok, Txn.pure_ok] at hrun
      obtain ⟨result, _, happly, rfl, rfl⟩ := hrun
      rcases applyEvent_keeps hkeeps happly with ⟨hfalse, rfl⟩ | ⟨htrue, happlied⟩
      · refine .plain (Grows.refl _) rfl ?_ rfl rfl
        simp [Call.applied?, hfalse]
      · have hsome : Call.applied? ⟨.applyEvent lease expected event handler, clock,
            .ok (.applied result)⟩ = some ⟨lease.projectionName, event, handler⟩ := by
          simp [Call.applied?, htrue]
        refine ⟨happlied.grows, fun _ h => absurd h.symm (Option.some_ne_none _), fun applied h => ?_, fun h => ?_⟩
        · obtain rfl := Option.some.inj (hsome.symm.trans h)
          exact happlied.appliesIn
        · rw [hsome] at h
          cases h

/-! ## Runs -/

/-- The clocks of the calls do not go back. -/
def MonotoneClock (py : PyVersion) (calls : List (Call R)) : Prop :=
  calls.Pairwise fun a b =>
    ∀ m m', ClockReads py a.clock m → ClockReads py b.clock m' → m ≤ m'

/-- The key of a receipt, and of the call that wrote it. -/
def ReceiptRow.key (receipt : ReceiptRow) : String × EventRef :=
  (receipt.projectionName, ⟨receipt.globalPosition, receipt.eventId⟩)

def AppliedEvent.key (applied : AppliedEvent R) : String × EventRef :=
  (applied.projectionName, applied.event)

/-- What the calls of a run applied, in order. -/
def appliedEvents (calls : List (Call R)) : List (AppliedEvent R) := calls.filterMap Call.applied?

/-- The leases the calls of a run claimed, in order. -/
def claimedLeases (calls : List (Call R)) : List ProjectionLease := calls.filterMap Call.claimed?

/-- The handlers' effects one after another. -/
def effects : List (AppliedEvent R) → R → Option R
  | [], tables => some tables
  | applied :: rest, tables => (applied.handler.effect tables).bind (effects rest)

/-- Two applied events in the order of a run. -/
def InOrder (a b : AppliedEvent R) : Prop :=
  a.projectionName = b.projectionName →
    a.event.globalPosition < b.event.globalPosition ∧ a.event.eventId ≠ b.event.eventId

/-- Two claims in the order of a run. -/
def Supersedes (a b : ProjectionLease) : Prop :=
  a.projectionName = b.projectionName → a.ownerEpoch < b.ownerEpoch

/-- **Exactly once.** A run of calls from `db₀` to `db`. -/
structure ExactlyOnce (py : PyVersion) (db₀ : ProjectionDb R) (calls : List (Call R))
    (db : ProjectionDb R) : Prop where
  /-- The tables are the effects of the applied events, each once and in order. -/
  tables : effects (appliedEvents calls) db₀.tables = some db.tables
  /-- The receipts are those of the applied events. -/
  receipts : db.receipts.map ReceiptRow.key = (appliedEvents calls).map AppliedEvent.key
  /-- No event is applied twice, and positions grow. -/
  ordered : (appliedEvents calls).Pairwise InOrder
  /-- No receipt is beyond its projection's checkpoint. -/
  behind : ∀ receipt ∈ db.receipts, ∃ row, findOffset receipt.projectionName db = some row ∧
    receipt.globalPosition ≤ row.lastGlobalPosition
  /-- Each claim of a projection has a later epoch. -/
  epochs : (claimedLeases calls).Pairwise Supersedes
  /-- Every call keeps the laws of one call. -/
  steps : ∀ before call after, calls = before ++ call :: after →
    ∃ s s', Run (offsetSystem py) db₀ before s ∧ (offsetSystem py).step s call s' ∧
      Run (offsetSystem py) s' after db ∧ StepLaws py s call s'
  /-- No call under a released epoch succeeds. -/
  released : ∀ before call after lease, calls = before ++ call :: after →
    call.operation = .release lease → call.Succeeded →
    ∀ c ∈ after, c.Presents lease.projectionName lease.ownerEpoch → ¬c.Succeeded

theorem step_laws {py : PyVersion} {call : Call R} {db db' : ProjectionDb R}
    (hstep : (keepingSystem py).step db call db') : StepLaws py db call db' where
  toWrote := step_wrote hstep
  raises e he := step_raises hstep he
  fenced lease m row hlease hm hrow hstale := by
    have hfailed := step_fenced hstep.1 hlease hm hrow hstale
    obtain ⟨e, he⟩ := error_of_not_succeeded hfailed
    exact ⟨hfailed, step_raises hstep he⟩

/-- What a run has kept so far. -/
structure RunInv (db₀ : ProjectionDb R) (calls : List (Call R)) (db : ProjectionDb R) : Prop where
  tables : effects (appliedEvents calls) db₀.tables = some db.tables
  receipts : db.receipts.map ReceiptRow.key = (appliedEvents calls).map AppliedEvent.key
  ordered : (appliedEvents calls).Pairwise InOrder
  behind : ∀ receipt ∈ db.receipts, ∃ row, findOffset receipt.projectionName db = some row ∧
    receipt.globalPosition ≤ row.lastGlobalPosition
  epochs : (claimedLeases calls).Pairwise Supersedes
  /-- No claimed epoch is beyond its row's. -/
  claimed : ∀ lease ∈ claimedLeases calls, ∃ row,
    findOffset lease.projectionName db = some row ∧ lease.ownerEpoch ≤ row.ownerEpoch

theorem effects_append {a b : List (AppliedEvent R)} {t t' : R} (h : effects a t = some t') :
    effects (a ++ b) t = effects b t' := by
  induction a generalizing t with
  | nil =>
    obtain rfl := Option.some.inj h
    rfl
  | cons applied rest ih =>
    simp only [effects, List.cons_append] at h ⊢
    cases heffect : applied.handler.effect t with
    | none =>
      rw [heffect] at h
      cases h
    | some t₁ =>
      rw [heffect] at h
      exact ih h

theorem findReceipt_none {name eventId : String} {db : ProjectionDb R}
    (h : findReceipt name eventId db = none) {receipt : ReceiptRow} (hmem : receipt ∈ db.receipts)
    (hname : receipt.projectionName = name) : receipt.eventId ≠ eventId := by
  intro hid
  have := List.find?_eq_none.mp h receipt hmem
  simp [hname, hid] at this

theorem Grows.behind {db db' : ProjectionDb R} (h : Grows db db') {name : String} {position : Int}
    (hrow : ∃ row, findOffset name db = some row ∧ position ≤ row.lastGlobalPosition) :
    ∃ row, findOffset name db' = some row ∧ position ≤ row.lastGlobalPosition := by
  obtain ⟨row, hrow, hle⟩ := hrow
  obtain ⟨row', hrow', -, hlast⟩ := h name row hrow
  exact ⟨row', hrow', Int.le_trans hle hlast⟩

theorem Grows.claimed {db db' : ProjectionDb R} (h : Grows db db') {name : String} {epoch : Int}
    (hrow : ∃ row, findOffset name db = some row ∧ epoch ≤ row.ownerEpoch) :
    ∃ row, findOffset name db' = some row ∧ epoch ≤ row.ownerEpoch := by
  obtain ⟨row, hrow, hle⟩ := hrow
  obtain ⟨row', hrow', hepoch, -⟩ := h name row hrow
  exact ⟨row', hrow', Int.le_trans hle hepoch⟩

/-- The claims of a run, after one more call. -/
theorem RunInv.claims_step {db₀ db db' : ProjectionDb R} {before : List (Call R)} {call : Call R}
    (h : RunInv db₀ before db) (hwrote : Wrote db call db') :
    (claimedLeases (before ++ [call])).Pairwise Supersedes ∧
      ∀ lease ∈ claimedLeases (before ++ [call]), ∃ row,
        findOffset lease.projectionName db' = some row ∧ lease.ownerEpoch ≤ row.ownerEpoch := by
  have hkept : ∀ lease ∈ claimedLeases before, ∃ row,
      findOffset lease.projectionName db' = some row ∧ lease.ownerEpoch ≤ row.ownerEpoch :=
    fun lease hmem => hwrote.grows.claimed (h.claimed lease hmem)
  cases hcall : call.claimed? with
  | none =>
    have hsame : claimedLeases (before ++ [call]) = claimedLeases before := by
      simp [claimedLeases, hcall]
    rw [hsame]
    exact ⟨h.epochs, hkept⟩
  | some lease =>
    have hmore : claimedLeases (before ++ [call]) = claimedLeases before ++ [lease] := by
      simp [claimedLeases, hcall]
    obtain ⟨⟨row', hrow', hepoch⟩, hlater⟩ := hwrote.claims lease hcall
    rw [hmore]
    constructor
    · refine List.pairwise_append.mpr ⟨h.epochs, List.pairwise_singleton _ _, ?_⟩
      intro old hold new hnew hname
      obtain rfl := List.mem_singleton.mp hnew
      -- The row the claim found has at least the older claim's epoch.
      obtain ⟨row, hrow, hle⟩ := h.claimed old hold
      rw [hname] at hrow
      exact Int.lt_of_le_of_lt hle (hlater row hrow)
    · intro l hl
      rcases List.mem_append.mp hl with hold | hnew
      · exact hkept l hold
      · obtain rfl := List.mem_singleton.mp hnew
        exact ⟨row', hrow', Int.le_of_eq hepoch.symm⟩

/-- **One more call keeps what the run kept.** -/
theorem RunInv.step {py : PyVersion} {db₀ db db' : ProjectionDb R} {before : List (Call R)}
    {call : Call R} (h : RunInv db₀ before db) (hstep : (keepingSystem py).step db call db') :
    RunInv db₀ (before ++ [call]) db' := by
  have hwrote := step_wrote hstep
  obtain ⟨hepochs, hclaimed⟩ := h.claims_step hwrote
  have hbehind : ∀ receipt ∈ db.receipts, ∃ row,
      findOffset receipt.projectionName db' = some row ∧
        receipt.globalPosition ≤ row.lastGlobalPosition :=
    fun receipt hmem => hwrote.grows.behind (h.behind receipt hmem)
  cases hcall : call.applied? with
  | none =>
    have hsame : appliedEvents (before ++ [call]) = appliedEvents before := by
      simp [appliedEvents, hcall]
    obtain ⟨htables, hreceipts⟩ := hwrote.others hcall
    refine ⟨?_, ?_, ?_, ?_, hepochs, hclaimed⟩
    · rw [hsame, htables]
      exact h.tables
    · rw [hsame, hreceipts]
      exact h.receipts
    · rw [hsame]
      exact h.ordered
    · rw [hreceipts]
      exact hbehind
  | some applied =>
    have hmore : appliedEvents (before ++ [call]) = appliedEvents before ++ [applied] := by
      simp [appliedEvents, hcall]
    obtain ⟨heffect, ⟨stamp, hreceipts⟩, hfresh, row, row', hrow, hlt, hrow', hlast⟩ :=
      hwrote.applies applied hcall
    refine ⟨?_, ?_, ?_, ?_, hepochs, hclaimed⟩
    · rw [hmore, effects_append h.tables]
      simp [effects, heffect]
    · rw [hmore, hreceipts, List.map_append, List.map_append, h.receipts]
      rfl
    · rw [hmore]
      refine List.pairwise_append.mpr ⟨h.ordered, List.pairwise_singleton _ _, ?_⟩
      intro old hold new hnew hname
      obtain rfl := List.mem_singleton.mp hnew
      -- The older event has a receipt, and that is behind the checkpoint.
      have hkey : old.key ∈ db.receipts.map ReceiptRow.key := by
        rw [h.receipts]
        exact List.mem_map_of_mem hold
      obtain ⟨receipt, hreceipt, heq⟩ := List.mem_map.mp hkey
      simp only [ReceiptRow.key, AppliedEvent.key, Prod.mk.injEq] at heq
      obtain ⟨hreceiptName, hevent⟩ := heq
      obtain ⟨found, hfound, hle⟩ := h.behind receipt hreceipt
      rw [hreceiptName, hname, hrow] at hfound
      obtain rfl := Option.some.inj hfound
      rw [← hevent]
      exact ⟨Int.lt_of_le_of_lt hle hlt,
        findReceipt_none hfresh hreceipt (hreceiptName.trans hname)⟩
    · rw [hreceipts]
      intro receipt hmem
      rcases List.mem_append.mp hmem with hold | hnew
      · exact hbehind receipt hold
      · obtain rfl := List.mem_singleton.mp hnew
        exact ⟨row', hrow', Int.le_of_eq hlast.symm⟩

theorem RunInv.start {py : PyVersion} {db : ProjectionDb R} (h : (offsetSystem py).start db) :
    RunInv db [] db := by
  refine ⟨rfl, ?_, .nil, ?_, .nil, nofun⟩
  · rw [h.2]
    rfl
  · rw [h.2]
    nofun

/-- A run of calls that meet the condition is a run of the store. -/
theorem run_of_keeping {py : PyVersion} {db db' : ProjectionDb R} {calls : List (Call R)}
    (h : Run (keepingSystem py) db calls db') : Run (offsetSystem py) db calls db' := by
  induction h with
  | done s => exact .done s
  | next hstep _ ih => exact .next hstep.1 ih

/-- A run, cut at one of its calls. -/
theorem run_cut {σ ι : Type} {S : System σ ι} {before after : List ι} {l : ι} {s s' : σ}
    (h : Run S s (before ++ l :: after) s') :
    ∃ a b, Run S s before a ∧ S.step a l b ∧ Run S b after s' := by
  induction before generalizing s with
  | nil =>
    cases h with
    | next hstep hrest => exact ⟨_, _, .done _, hstep, hrest⟩
  | cons first rest ih =>
    cases h with
    | next hstep hrest =>
      obtain ⟨a, b, hbefore, hl, hafter⟩ := ih hrest
      exact ⟨a, b, .next hstep hbefore, hl, hafter⟩

/-- After a release that returned, no call under its epoch succeeds. -/
theorem released_stays {py : PyVersion} {call : Call R} {after : List (Call R)}
    {lease : ProjectionLease} {s s' db : ProjectionDb R} (hstep : (offsetSystem py).step s call s')
    (hrest : Run (offsetSystem py) s' after db) (hop : call.operation = .release lease)
    (hok : call.Succeeded)
    (hclock : ∀ c ∈ after, ∀ m m', ClockReads py call.clock m → ClockReads py c.clock m' → m ≤ m') :
    ∀ c ∈ after, c.Presents lease.projectionName lease.ownerEpoch → ¬c.Succeeded := by
  obtain ⟨op, clock, result⟩ := call
  obtain ⟨reply, hreply⟩ := hok
  obtain rfl : op = .release lease := hop
  obtain rfl : result = .ok reply := hreply
  have hrun : Operation.run py clock (.release lease) s = (.ok reply, s') := hstep
  simp only [Operation.run, Txn.bind_ok, Txn.pure_ok] at hrun
  obtain ⟨_, _, hrelease, -, rfl⟩ := hrun
  obtain ⟨m, row, -, hm, -⟩ := release_ok.mp hrelease
  exact release_final hm.inRange (fenced_of_release hrelease hm) hrest
    fun c hc _ m' hm' => hclock c hc m m' hm hm'

/-- **Exactly-once application.** In every run of claims, renewals, advances,
applications and releases by any owners, over a clock that does not go back and
with handlers that keep their transaction, every event is applied with its
effect, receipt and checkpoint together, at most once and in position order;
epochs grow with every claim, checkpoints never go back, no receipt is beyond
its checkpoint, and a call that raises or presents a lease that is stale,
expired or released changes nothing. -/
theorem exactly_once (py : PyVersion) (db₀ db : ProjectionDb R) (calls : List (Call R))
    (hstart : (offsetSystem py).start db₀) (hrun : Run (keepingSystem py) db₀ calls db)
    (hclock : MonotoneClock py calls) : ExactlyOnce py db₀ calls db := by
  have hinv : RunInv db₀ calls db :=
    hrun.traced (fun _ _ _ _ h hstep => h.step hstep) (RunInv.start hstart)
  refine ⟨hinv.tables, hinv.receipts, hinv.ordered, hinv.behind, hinv.epochs, ?_, ?_⟩
  · intro before call after hcalls
    subst hcalls
    obtain ⟨s, s', hbefore, hstep, hafter⟩ := run_cut hrun
    exact ⟨s, s', run_of_keeping hbefore, hstep.1, run_of_keeping hafter, step_laws hstep⟩
  · intro before call after lease hcalls hop hok
    subst hcalls
    obtain ⟨s, s', -, hstep, hafter⟩ := run_cut hrun
    have hlater := (List.pairwise_append.mp hclock).2.1
    exact released_stays hstep.1 (run_of_keeping hafter) hop hok (List.pairwise_cons.mp hlater).1

namespace ExactlyOnceSample

def noon : String := "2024-01-01T12:00:00Z"

/-- No rows, and a read model that counts. -/
def emptyDb : ProjectionDb Nat := ⟨[], [], 0⟩

def lease : ProjectionLease := ⟨"tasks", "worker", 1, "2024-01-01T12:00:30Z"⟩

/-- One call at noon, with the way it ends. -/
def call (op : Operation Nat) (db : ProjectionDb Nat) : Call Nat := ⟨op, noon, (op.run .py311 noon db).1⟩

def after (op : Operation Nat) (db : ProjectionDb Nat) : ProjectionDb Nat := (op.run .py311 noon db).2

def claim : Operation Nat := .claim "tasks" "worker" (.int 30)

/-- The worker presents the first event to a handler. -/
def present (handler : Handler Nat) : Operation Nat := .applyEvent lease 0 ⟨1, "evt_1"⟩ handler

def count (next : Handler Nat) : Handler Nat := .executes (fun n => .done (n + 1)) fun _ _ => next

/-- An insertion under the conflict clause ROLLBACK that violates a
constraint; the handler catches the error and goes on. -/
def conflict (next : Handler Nat) : Handler Nat := .executes (fun _ => .rolledBack) fun _ _ => next

def claimed : ProjectionDb Nat := after claim emptyDb

def calls (handler : Handler Nat) : List (Call Nat) :=
  [call claim emptyDb, call (present handler) claimed]

def final (handler : Handler Nat) : ProjectionDb Nat := after (present handler) claimed

theorem step (op : Operation Nat) (db : ProjectionDb Nat) :
    (offsetSystem .py311).step db (call op db) (after op db) := rfl

theorem run (handler : Handler Nat) :
    Run (offsetSystem .py311) emptyDb (calls handler) (final handler) :=
  .next (step claim emptyDb) (.single (step (present handler) claimed))

theorem run_keeping {handler : Handler Nat} (h : handler.Keeps claimed.tables claimed.tables) :
    Run (keepingSystem .py311) emptyDb (calls handler) (final handler) := by
  have hfirst : (keepingSystem .py311).step emptyDb (call claim emptyDb) claimed :=
    ⟨step claim emptyDb, trivial⟩
  have hsecond : (keepingSystem .py311).step claimed (call (present handler) claimed) (final handler) :=
    ⟨step (present handler) claimed, fun _ => h⟩
  exact .next hfirst (.single hsecond)

/-- Both calls read noon. -/
theorem monotone (handler : Handler Nat) : MonotoneClock .py311 (calls handler) := by
  refine .cons ?_ (List.pairwise_singleton _ _)
  intro c hc m m' hm hm'
  obtain rfl := List.mem_singleton.mp hc
  exact Int.le_of_eq (hm.unique hm')

/-- Loses its transaction, counts and raises. -/
def raising : Handler Nat := conflict (count (.raises "failed"))

/-- Counts, loses its transaction and returns. -/
def returning : Handler Nat := count (conflict .returns)

end ExactlyOnceSample

open ExactlyOnceSample in
/-- A claim and an event whose handler counts it. -/
theorem exactly_once_counted :
    ExactlyOnce .py311 emptyDb (calls (count .returns)) (final (count .returns)) ∧
      (final (count .returns)).tables = 1 :=
  ⟨exactly_once .py311 emptyDb (final (count .returns)) (calls (count .returns)) ⟨rfl, rfl⟩
    (run_keeping trivial) (monotone _), by decide +kernel⟩

open ExactlyOnceSample in
/-- A handler whose statement ended the transaction counts and raises, and the
count stays. Where it returns, its receipt and its checkpoint stay as well, and
`apply_event` raises. -/
theorem committed_after_rollback :
    ((call (present raising) claimed).result = .error (.handler "failed") ∧
      (final raising).tables = 1 ∧
      Run (offsetSystem .py311) emptyDb (calls raising) (final raising) ∧
      MonotoneClock .py311 (calls raising) ∧
      ¬ExactlyOnce .py311 emptyDb (calls raising) (final raising)) ∧
    (call (present returning) claimed).result =
        .error (.sqlite "cannot commit - no transaction is active") ∧
      (final returning).tables = 0 ∧
      (final returning).receipts.map ReceiptRow.key = [("tasks", ⟨1, "evt_1"⟩)] ∧
      Run (offsetSystem .py311) emptyDb (calls returning) (final returning) ∧
      MonotoneClock .py311 (calls returning) ∧
      ¬ExactlyOnce .py311 emptyDb (calls returning) (final returning) := by
  have hcounted : (final raising).tables = 1 := by decide +kernel
  have hstored : (final returning).receipts.map ReceiptRow.key = [("tasks", ⟨1, "evt_1"⟩)] := by
    decide +kernel
  refine ⟨⟨by decide +kernel, hcounted, run _, monotone _, fun h => ?_⟩, by decide +kernel,
    by decide +kernel, hstored, run _, monotone _, fun h => ?_⟩
  · have happlied : appliedEvents (calls raising) = [] :=
      List.eq_nil_of_length_eq_zero (by decide +kernel)
    have htables := h.tables
    rw [happlied, hcounted] at htables
    cases htables
  · have happlied : appliedEvents (calls returning) = [] :=
      List.eq_nil_of_length_eq_zero (by decide +kernel)
    have hreceipts := h.receipts
    rw [happlied, hstored] at hreceipts
    cases hreceipts

end QuantumEntanglement.ProjectionOffsets
