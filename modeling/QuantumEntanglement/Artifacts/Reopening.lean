import QuantumEntanglement.Artifacts.Restore

/-
  Reopening — when a fresh ledger accepts the store a ledger leaves

  A record checks the totals of the versions against the limits of a replay,
  so what it adds is within them when it is read again. The number of events
  in the log is checked by a replay alone: a log that outgrew that limit is
  recorded to all the same, and no fresh instance opens it
  (`record_outgrows_replay`).

  What is proved:
    1. `replayFrom_exceeds` — a replay of more events than its limit raises.
    2. `reopens_iff` — a store that a ledger has caught up with is reopened,
       as the ledger holds it, exactly when its log is within the limit.
-/

namespace QuantumEntanglement.Artifacts

open Transaction PyJson PyText PositionedLog

variable {cfg : LedgerConfig}

/-! ## A log beyond the limit -/

/-- **With more than `n` events left to read, reading `n` of them raises.** -/
theorem replayFrom_exceeds {w : World cfg} (hw : Quiet w) {db : Db} (held : LedgerState)
    (hi : LogInv db.events) : ∀ (n tick : Nat) (l : LedgerState),
      n < (beyond EventRow.globalPosition l.replayPosition db.events).length →
        ∃ e s', replayFrom w n l ⟨db, held, tick⟩ = (.error e, s')
  | n, tick, l, hn => by
    cases hnext : next EventRow.globalPosition l.replayPosition db.events with
    | none =>
      -- nothing lies beyond the position
      have hall := le_of_next_none hnext
      have hnil : beyond EventRow.globalPosition l.replayPosition db.events = [] := by
        rw [beyond, List.filter_eq_nil_iff]
        intro row hrow
        have hle := hall row hrow
        simp only [decide_eq_true_eq]
        omega
      simp [hnil] at hn
    | some row =>
      have hbeyond := beyond_next hi.positions hnext
      have hacc := nextEvent_quiet hw held tick hi hnext
      cases hread : rowToEvent cfg row with
      | error e =>
        simp only [Option.elim_some, hread, Except.map] at hacc
        refine ⟨e, ⟨db, held, tick + 1⟩, ?_⟩
        cases n <;> simp only [replayFrom, Bind.bind, hacc]
      | ok stored =>
        simp only [Option.elim_some, hread, Except.map] at hacc
        cases n with
        | zero =>
          simp only [replayFrom, Bind.bind, hacc, Txn.lift]
          cases validateReplayPosition stored l.replayPosition with
          | error e => exact ⟨e, _, rfl⟩
          | ok _ => exact ⟨tooManyEvents cfg.limits, _, rfl⟩
        | succ n =>
          simp only [replayFrom, Bind.bind, hacc, Txn.lift]
          cases hstep : replayStep cfg l stored with
          | error e => exact ⟨e, _, rfl⟩
          | ok l' =>
            have hrow : replayRow cfg l row = .ok l' := by
              simp only [replayRow, hread, bind, Except.bind, hstep]
            apply replayFrom_exceeds hw held hi n (tick + 1) l'
            rw [replayRow_position hrow]
            simp only [hbeyond, List.length_cons] at hn
            omega

theorem beyond_start {rows : List EventRow} (hi : LogInv rows) :
    beyond EventRow.globalPosition LedgerState.empty.replayPosition rows = rows := by
  rw [beyond, List.filter_eq_self]
  intro row hrow
  have hpos := (hi.range row hrow).1
  exact decide_eq_true hpos

/-- A fresh instance over a log beyond the limit raises. -/
theorem freshLedger_exceeds {db : Db} (clock : UtcMoment) (hi : LogInv db.events)
    (hlen : cfg.limits.maxReplayEvents < db.events.length) :
    (freshLedger cfg clock db).1 ≠ .ok () := by
  have hmore : cfg.limits.maxReplayEvents <
      (beyond EventRow.globalPosition LedgerState.empty.replayPosition db.events).length := by
    rw [beyond_start hi]
    exact hlen
  obtain ⟨e, s', hrun⟩ := replayFrom_exceeds (quietWorld_quiet cfg clock) .empty hi
    cfg.limits.maxReplayEvents 0 .empty hmore
  simp [freshLedger, newLedger, rebuild, Bind.bind, hrun]

/-! ## Stores a ledger has caught up with -/

/-- A fresh instance opens the store, and holds what the ledger holds. -/
def Reopens (cfg : LedgerConfig) (clock : UtcMoment) (s : Machine) : Prop :=
  (freshLedger cfg clock s.db).1 = .ok () ∧ (freshLedger cfg clock s.db).2.ledger = s.ledger

theorem Sound.reopens {s : Machine} (clock : UtcMoment) (hs : Sound cfg s)
    (hcaught : CaughtUp s.db.events s.ledger) :
    Reopens cfg clock s ↔ s.db.events.length ≤ cfg.limits.maxReplayEvents := by
  constructor
  · intro hopens
    by_contra hlen
    exact freshLedger_exceeds clock hs.log (Nat.lt_of_not_le hlen) hopens.1
  · intro hlen
    have hfold := hs.replayed.fold
    rw [upTo_all hcaught] at hfold
    exact freshLedger_eq clock hs.log hlen hfold

/-- **A store is reopened exactly when its log is within the limit of a
replay.** After any calls of an instance, in any world, under any limits: when
the ledger has caught up with the log, a fresh instance with the same limits
opens the store as the ledger holds it if and only if the log has at most
`maxReplayEvents` events. -/
theorem reopens_iff (w : World cfg) (clock : UtcMoment) (db : Db) (tick : Nat) (start : Machine)
    (hlog : LogInv db.events) (hstart : newLedger w db tick = (.ok (), start))
    (calls : List LedgerCall) :
    let s := runLedger w calls start
    CaughtUp s.db.events s.ledger →
      (Reopens cfg clock s ↔ s.db.events.length ≤ cfg.limits.maxReplayEvents) := by
  intro s hcaught
  have hsound : Sound cfg s := (runLedger_kept calls (newLedger_sound hlog hstart)).sound
  exact hsound.reopens clock hcaught

/-- The equivalence on the store one record leaves. -/
theorem reopens_iff_recorded :
    let s := runLedger (quietWorld sampleConfig sampleClock) [.record (sampleCall "t1" "v1")]
      ⟨Db.empty, .empty, 1⟩
    Reopens sampleConfig sampleClock s ↔ s.db.events.length ≤ sampleConfig.limits.maxReplayEvents :=
  reopens_iff (quietWorld sampleConfig sampleClock) sampleClock Db.empty 0 ⟨Db.empty, .empty, 1⟩
    logInv_nil newLedger_quiet [.record (sampleCall "t1" "v1")]
    (runLedger_synced (quietWorld_quiet sampleConfig sampleClock) _
      (newLedger_synced logInv_nil newLedger_quiet)).caughtUp

/-! ## A record that outgrows the replay -/

/-- A recorded call has added to the log. -/
theorem Recorded.longer {w : World cfg} {call : RecordCall} {s s' : Machine} {v : ArtifactVersion}
    (hs : Synced cfg s) (hadm : Admissible w s call) (hrun : record w call s = (.ok v, s'))
    (hrec : Recorded cfg call s s' v) : s.db.events.length < s'.db.events.length := by
  obtain ⟨request, hcap, hfree, -⟩ := hadm
  obtain ⟨new, hnew⟩ := ((record_run hs.sound hrun).kept).grows.exists_new
  cases new with
  | nil =>
    -- an unchanged log would leave the key free
    refine absurd ?_ (hrec.held request hcap)
    rw [KeyFree, hnew, List.append_nil]
    exact hfree
  | cons row rest =>
    rw [hnew]
    simp

/-- **At the limit, a record leaves a store that no fresh instance opens.** -/
theorem record_at_limit {w : World cfg} {call : RecordCall} {s : Machine} (clock : UtcMoment)
    (hw : Quiet w) (hs : Synced cfg s) (hadm : Admissible w s call)
    (hlen : s.db.events.length = cfg.limits.maxReplayEvents) :
    Reopens cfg clock s ∧ ∃ v s', record w call s = (.ok v, s') ∧
      CaughtUp s'.db.events s'.ledger ∧ ¬Reopens cfg clock s' := by
  obtain ⟨v, s', hrun, hrec⟩ := record_free hw hs hadm
  have hlonger := hrec.longer hs hadm hrun
  refine ⟨(hs.sound.reopens clock hs.caughtUp).mpr (Nat.le_of_eq hlen), v, s', hrun,
    hrec.synced.caughtUp, ?_⟩
  rw [hrec.synced.sound.reopens clock hrec.synced.caughtUp]
  omega

/-- A replay of at most one event. -/
def tinyConfig : LedgerConfig := ⟨sampleConfig.toStoreConfig, { defaultLimits with maxReplayEvents := 1 }⟩

/-- A store another client wrote one event to. -/
def noteDb : Db := (append tinyConfig otherEvent none none Db.empty).2

/-- A ledger that has read it. -/
def noteMachine : Machine := ⟨noteDb, ⟨[], ⟨0, 0, 0, 0, 0⟩, 1⟩, 2⟩

theorem noteDb_stored : (append tinyConfig otherEvent none none Db.empty).1.isOk = true ∧
    noteDb.events.length = 1 := by
  decide +kernel

theorem newLedger_note : newLedger (quietWorld tinyConfig sampleClock) noteDb 0 =
    (.ok (), noteMachine) := by
  have hrun : (newLedger (quietWorld tinyConfig sampleClock) noteDb 0).1.isOk = true ∧
      (newLedger (quietWorld tinyConfig sampleClock) noteDb 0).2 = noteMachine := by
    decide +kernel
  obtain ⟨hok, hstate⟩ := hrun
  obtain ⟨_, hone⟩ := isOk_iff.mp hok
  exact Prod.ext hone hstate

theorem logInv_note : LogInv noteDb.events := by
  obtain ⟨stored, hone⟩ := isOk_iff.mp noteDb_stored.1
  have hrun : append tinyConfig otherEvent none none Db.empty = (.ok stored, noteDb) :=
    Prod.ext hone rfl
  exact (append_grows hrun).inv logInv_nil

theorem admits_note :
    admits (quietWorld tinyConfig sampleClock) noteMachine (sampleCall "t1" "v1") = true := by
  apply admits_of_short
  decide +kernel

/-- **A record outgrows the replay.** With a limit of one event, over a log of
one: the instance opens, its record succeeds, and no fresh instance opens what
it leaves. -/
theorem record_outgrows_replay :
    newLedger (quietWorld tinyConfig sampleClock) noteDb 0 = (.ok (), noteMachine) ∧
      Reopens tinyConfig sampleClock noteMachine ∧
      ∃ v s', record (quietWorld tinyConfig sampleClock) (sampleCall "t1" "v1") noteMachine =
          (.ok v, s') ∧
        CaughtUp s'.db.events s'.ledger ∧ ¬Reopens tinyConfig sampleClock s' :=
  ⟨newLedger_note, record_at_limit sampleClock (quietWorld_quiet tinyConfig sampleClock)
    (newLedger_synced logInv_note newLedger_note) (admits_sound admits_note) noteDb_stored.2⟩

end QuantumEntanglement.Artifacts
