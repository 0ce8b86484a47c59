import QuantumEntanglement.Artifacts.Replay

/-
  Recording — what a call of `record` does to its ledger and to the log

  A call makes accesses, and between two of them the log may have grown and
  any of them may fail. Whatever happens, the ledger it leaves is replayed
  from the log (`Kept`), and a call that raises leaves no row of its own
  behind, save where the acknowledgement of its COMMIT was lost and the
  read-back that was to tell failed as well (`NoTrace`).

  What is proved, of every world:
    1. `publish_run` — an append that is reported stored is in the log, right
       after what the ledger has read, or is an older event of the same key.
    2. `settle_run` — extending the ledger by it keeps the ledger replayed.
    3. `record_run`, `restore_run` — the two together, over the eight rounds
       of the admission loop.
-/

namespace QuantumEntanglement.Artifacts

open Transaction PyJson PyText PositionedLog

variable {cfg : LedgerConfig} {w : World cfg} {s s₁ s' : Machine}

/-! ## Relations between the states of a run -/

/-- The log is one the store can reach and the ledger is replayed from it. -/
structure Sound (cfg : LedgerConfig) (s : Machine) : Prop where
  log : LogInv s.db.events
  replayed : Replayed cfg s.db.events s.ledger

/-- **What every run keeps**: the log only grew, and the ledger is replayed
from it, no less far than before. -/
structure Kept (w : World cfg) (s s' : Machine) : Prop where
  grows : LogGrows cfg s.db.events s'.db.events
  ticks : s.tick ≤ s'.tick
  sound : Sound cfg s'
  forward : s.ledger.replayPosition ≤ s'.ledger.replayPosition

/-- Every row that is new was written by somebody else. -/
def Foreign (w : World cfg) (s s' : Machine) : Prop :=
  ∀ row ∈ s'.db.events, row ∈ s.db.events ∨ ¬w.mine row.eventId

/-- An access took effect unacknowledged and the next one failed too. -/
def LostCommit (w : World cfg) (s s' : Machine) : Prop :=
  ∃ n, s.tick ≤ n ∧ n < s'.tick ∧ (∃ e, w.fault n = .after e) ∧ w.fault (n + 1) ≠ .none

/-- No row of this instance was left behind, unless by a lost commit. -/
def NoTrace (w : World cfg) (s s' : Machine) : Prop := Foreign w s s' ∨ LostCommit w s s'

/-- A run that wrote nothing of its own. -/
structure Advanced (w : World cfg) (s s' : Machine) : Prop where
  kept : Kept w s s'
  foreign : Foreign w s s'

theorem Kept.refl (hs : Sound cfg s) : Kept w s s := ⟨.refl, Nat.le_refl _, hs, Nat.le_refl _⟩

theorem Kept.trans (h : Kept w s s₁) (h' : Kept w s₁ s') : Kept w s s' :=
  ⟨h.grows.trans h'.grows, Nat.le_trans h.ticks h'.ticks, h'.sound,
    Nat.le_trans h.forward h'.forward⟩

theorem Foreign.trans (h : Foreign w s s₁) (h' : Foreign w s₁ s') : Foreign w s s' := by
  intro row hrow
  rcases h' row hrow with hmem | hmine
  · exact h row hmem
  · exact .inr hmine

theorem NoTrace.trans (ht : s.tick ≤ s₁.tick) (ht' : s₁.tick ≤ s'.tick) (h : NoTrace w s s₁)
    (h' : NoTrace w s₁ s') : NoTrace w s s' := by
  rcases h with h | ⟨n, hlo, hhi, hfault⟩
  · rcases h' with h' | ⟨n, hlo, hhi, hfault⟩
    · exact .inl (h.trans h')
    · exact .inr ⟨n, Nat.le_trans ht hlo, hhi, hfault⟩
  · exact .inr ⟨n, hlo, Nat.lt_of_lt_of_le hhi ht', hfault⟩

theorem Advanced.refl (hs : Sound cfg s) : Advanced w s s := ⟨.refl hs, fun _ h => .inl h⟩

theorem Advanced.trans (h : Advanced w s s₁) (h' : Advanced w s₁ s') : Advanced w s s' :=
  ⟨h.kept.trans h'.kept, h.foreign.trans h'.foreign⟩

/-- Others' rows leave the ledger replayed. -/
theorem Passed.advanced (h : Passed w s s') (hl : s'.ledger = s.ledger) (hs : Sound cfg s) :
    Advanced w s s' := by
  refine ⟨⟨h.grows, h.ticks, ⟨h.grows.inv hs.log, ?_⟩, by rw [hl]⟩, h.foreign⟩
  rw [hl]
  exact hs.replayed.grows hs.log h.grows

/-! ## Programs that write nothing of their own -/

/-- The relation of such a program, from a sound state on. -/
def Advances (w : World cfg) (s s' : Machine) : Prop := Sound cfg s → Advanced w s s'

theorem advances_trans (w : World cfg) (a b c : Machine) (h : Advances w a b)
    (h' : Advances w b c) : Advances w a c :=
  fun hs => (h hs).trans (h' (h hs).kept.sound)

theorem advances_of_reads {α : Type} {m : LedgerTxn α} (hm : Txn.Reads m) :
    Txn.Always (Advances w) m :=
  .of_reads (fun _ => .refl) hm

theorem access_advances {α : Type} {m : DbTxn α} (hm : Txn.Reads m) :
    Txn.Always (Advances w) (access w m) := by
  intro s hs
  rw [access_reads hm]
  exact (passed_afterRead w s).advanced rfl hs

theorem rebuild_advances (w : World cfg) : Txn.Always (Advances w) (rebuild w) := by
  intro s hs
  rcases hrun : rebuild w s with ⟨r, s'⟩
  obtain ⟨hp, hout⟩ := rebuild_run hrun hs.log
  cases r with
  | error e => exact hp.advanced hout hs
  | ok u =>
    refine ⟨⟨hp.grows, hp.ticks, ⟨hp.grows.inv hs.log, hout.1⟩, ?_⟩, hp.foreign⟩
    rcases hs.replayed.reached with hzero | ⟨q, hq, hpos⟩
    · simp [hzero]
    · have hle := hout.2 q (hp.grows.mem hq)
      simpa [hpos] using hle

/-- What every read access and every rebuild keeps, a look-up keeps. -/
theorem resolve_always {R : Machine → Machine → Prop} (hr : ∀ s, R s s)
    (ht : ∀ a b c, R a b → R b c → R a c) (hrebuild : Txn.Always R (rebuild w))
    (history : List ArtifactVersion) (stored : StoredEvent) (request : ArtifactRecordRequest) :
    Txn.Always R (resolveIdempotentVersion w history stored request) := by
  refine .bind ht (.of_reads hr (by simp)) fun _ => .bind ht (.of_reads hr (by simp)) fun existing =>
    .bind ht (.of_reads hr (by simp)) fun _ => .bind ht (.of_reads hr (by simp)) fun _ => ?_
  cases findArtifact history existing.item.ref.artifactId with
  | some found => exact .of_reads hr (by simp)
  | none =>
    refine .bind ht hrebuild fun _ => .bind ht (.of_reads hr (by simp)) fun rebuilt => ?_
    cases findArtifact rebuilt existing.item.ref.artifactId with
    | some found => exact .of_reads hr (by simp)
    | none => exact .of_reads hr (by simp)

theorem resolve_advances (w : World cfg) (history : List ArtifactVersion) (stored : StoredEvent)
    (request : ArtifactRecordRequest) :
    Txn.Always (Advances w) (resolveIdempotentVersion w history stored request) :=
  resolve_always (fun _ => .refl) (advances_trans w) (rebuild_advances w) history stored request

/-- A read-back makes one read access. -/
theorem reconcile_state (w : World cfg) (event : DomainEvent) (expected : Nat) (s : Machine) :
    (reconcileCommittedEvent w event expected s).2 = afterRead w s := by
  have hread := access_reads (w := w) (getIdempotentEvent_reads cfg event.streamId
    (event.idempotencyKey.getD "")) s
  simp only [reconcileCommittedEvent, Bind.bind, Txn.attempt]
  rcases hacc : access w (getIdempotentEvent cfg event.streamId (event.idempotencyKey.getD "")) s with
    ⟨r, s₁⟩
  rw [hacc] at hread
  match r with
  | .error e => exact hread
  | .ok none => exact hread
  | .ok (some stored) =>
    simp only
    split
    · exact hread
    · exact hread

theorem reconcile_advances (w : World cfg) (event : DomainEvent) (expected : Nat) :
    Txn.Always (Advances w) (reconcileCommittedEvent w event expected) := by
  intro s hs
  rw [reconcile_state]
  exact (passed_afterRead w s).advanced rfl hs

/-! ## Publishing an event -/

/-- An event whose identifier was drawn for it: nobody else writes it and no
row has it yet. It holds the key a read-back will look for. -/
structure Drawn (w : World cfg) (s : Machine) (event : DomainEvent) : Prop where
  readable : ReadableEvent cfg event
  mine : w.mine event.eventId
  fresh : ∀ row ∈ s.db.events, row.eventId ≠ event.eventId
  normal : Normal event.payload
  keyed : ∃ key, event.idempotencyKey = some key ∧ isBlank key = false

theorem Drawn.normalized {event : DomainEvent} (h : Drawn w s event) : event.normalized = event := by
  rw [DomainEvent.normalized, normalize_of_normal _ h.normal]

/-- A drawn identifier is still unused when the log has grown by the others. -/
theorem Drawn.fresh_before {event : DomainEvent} (h : Drawn w s event) :
    ∀ row ∈ (w.before s.tick s.db).events, row.eventId ≠ event.eventId := by
  intro row hrow hid
  rcases w.foreign s.tick s.db row hrow with hmem | hmine
  · exact h.fresh row hmem hid
  · exact hmine (hid ▸ h.mine)

/-- The event is in the log, right after what the ledger has read. -/
structure Published (cfg : LedgerConfig) (event : DomainEvent) (s s' : Machine)
    (stored : StoredEvent) : Prop where
  ledger : s'.ledger = s.ledger
  ticks : s.tick ≤ s'.tick
  inserted : ∃ rows row, LogGrows cfg s.db.events rows ∧
    s.ledger.replayPosition = maxOf (·.globalPosition) rows ∧
    row.globalPosition = maxOf (·.globalPosition) rows + 1 ∧
    LogGrows cfg rows (rows ++ [row]) ∧ LogGrows cfg (rows ++ [row]) s'.db.events ∧
    rowToEvent cfg row = .ok stored ∧ stored.event = event

/-- The state after an append of a drawn event, and whether it inserted. -/
theorem append_access {event : DomainEvent} (hs : Sound cfg s) (hd : Drawn w s event)
    {stored : StoredEvent} {db' : Db}
    (h : append cfg event none (some s.ledger.replayPosition) (w.before s.tick s.db) =
      (.ok stored, db')) :
    (db' = w.before s.tick s.db ∧ stored.event.eventId ≠ event.eventId) ∨
      Published cfg event s ⟨db', s.ledger, s.tick + 1⟩ stored ∧
        ∃ row, db'.events = (w.before s.tick s.db).events ++ [row] ∧
          rowToEvent cfg row = .ok stored ∧ row.eventId = event.eventId ∧
          row.streamId = event.streamId ∧ row.idempotencyKey = event.idempotencyKey := by
  have hi := (w.grows s.tick s.db).inv hs.log
  rcases append_cases hi hd.readable h with ⟨row, hrow, hread, rfl⟩ |
    ⟨-, hegp, row, rfl, hgrow, hread, hnorm, hid, hstream, hkey, hpos⟩
  · refine .inl ⟨rfl, ?_⟩
    obtain ⟨key, hk, -⟩ := hd.keyed
    rw [idempotentRow, hk] at hrow
    have hmem := (findKey_mem hrow).1
    rw [rowToEvent_eventId hread]
    exact hd.fresh_before row hmem
  · rw [hd.normalized] at hnorm
    have hexp := hegp s.ledger.replayPosition rfl
    refine .inr ⟨⟨rfl, Nat.le_succ _, _, row, w.grows _ _, by exact_mod_cast hexp, hpos, hgrow,
      .refl, hread, hnorm⟩, row, rfl, hread, hid, hstream, hkey⟩

/-- An access of an append that raised: nothing of its own was written, or it
took effect unacknowledged. -/
theorem append_access_error {event : DomainEvent} {e : StoreError} {egp : Option Int}
    (h : access w (append cfg event none egp) s = (.error e, s')) :
    s' = afterRead w s ∨
      (w.fault s.tick = .after e ∧ s' = ⟨s'.db, s.ledger, s.tick + 1⟩ ∧
        ∃ stored, append cfg event none egp (w.before s.tick s.db) = (.ok stored, s'.db)) := by
  simp only [access] at h
  rcases hrun : append cfg event none egp (w.before s.tick s.db) with ⟨r, db'⟩
  rw [hrun] at h
  have hrest : ∀ e', r = .error e' → db' = w.before s.tick s.db := by
    rintro e' rfl
    exact append_restores _ _ _ _ _ _ _ hrun
  split at h
  · obtain ⟨rfl, rfl⟩ := Prod.mk.inj h
    exact .inl (by rw [afterRead, hrest e rfl])
  · obtain ⟨-, rfl⟩ := Prod.mk.inj h
    exact .inl rfl
  next e₁ hfault =>
    cases r with
    | ok stored =>
      simp only [Prod.mk.injEq, Except.error.injEq] at h
      obtain ⟨rfl, rfl⟩ := h
      exact .inr ⟨hfault, rfl, stored, rfl⟩
    | error e₂ =>
      simp only [Prod.mk.injEq] at h
      obtain ⟨-, rfl⟩ := h
      exact .inl (by rw [afterRead, hrest e₂ rfl])

/-- What a read-back that found the event has found. -/
theorem reconcile_found {event : DomainEvent} {expected : Nat} {stored : StoredEvent}
    (h : reconcileCommittedEvent w event expected s = (.ok (some stored), s')) :
    s' = afterRead w s ∧ ∃ row ∈ s'.db.events, rowToEvent cfg row = .ok stored ∧
      row.eventId = event.eventId ∧ stored.globalPosition = expected + 1 := by
  simp only [reconcileCommittedEvent, Txn.bind_ok, Txn.attempt_ok] at h
  obtain ⟨r, s₁, hacc, h⟩ := h
  have hstate := access_reads (w := w) (getIdempotentEvent_reads cfg event.streamId
    (event.idempotencyKey.getD "")) s
  rw [hacc] at hstate
  simp only at hstate
  rcases r with e | _ | found
  · simp at h
  · simp at h
  · simp only at h
    split at h
    next hsame =>
      simp only [Txn.pure_ok, Option.some.injEq] at h
      obtain ⟨rfl, rfl⟩ := h
      obtain ⟨-, hget, -⟩ := access_ok hacc
      obtain ⟨hdb, -, row, hfind, hread⟩ := getIdempotentEvent_ok hget
      refine ⟨hstate, row, ?_, hread, ?_, hsame.1⟩
      · rw [hdb]
        exact (findKey_mem hfind).1
      · have hid := hsame.2
        simp only [sameEvent, Bool.and_eq_true, beq_iff_eq] at hid
        rw [← rowToEvent_eventId hread, hid.1.1.1.1.1.1.1.1]
    · simp at h

/-- A read-back that meets no fault finds the event where it is. -/
theorem reconcile_finds {event : DomainEvent} {expected : Nat} {stored : StoredEvent}
    {row : EventRow} (hi : LogInv s.db.events) (hfault : w.fault s.tick = .none)
    (hnormal : Normal event.payload) {key : String} (hkey : event.idempotencyKey = some key)
    (hblank : isBlank key = false) (hrow : row ∈ s.db.events)
    (hread : rowToEvent cfg row = .ok stored) (hevent : stored.event = event)
    (hstream : row.streamId = event.streamId) (hrowkey : row.idempotencyKey = some key)
    (hpos : stored.globalPosition = expected + 1) :
    reconcileCommittedEvent w event expected s = (.ok (some stored), afterRead w s) := by
  have hi₁ := (w.grows s.tick s.db).inv hi
  have hfind : findKey (w.before s.tick s.db).events event.streamId key = some row := by
    rw [← hstream]
    exact hi₁.findKey_eq ((w.grows s.tick s.db).mem hrow) hrowkey
  have hget : getIdempotentEvent cfg event.streamId (event.idempotencyKey.getD "")
      (w.before s.tick s.db) = (.ok (some stored), w.before s.tick s.db) := by
    simp only [getIdempotentEvent, Txn.bind_ok, Txn.lift_ok, Txn.query_ok, callerText_ok,
      true_implies]
    refine ⟨_, _, ⟨⟨event.nonBlank.1, rfl⟩, rfl⟩, _, _, ⟨⟨by simpa [hkey] using hblank, rfl⟩, rfl⟩,
      some row, _, ⟨by simpa [hkey] using hfind, rfl⟩, ?_⟩
    simp only [Txn.bind_ok, Txn.lift_ok, Txn.pure_ok]
    exact ⟨stored, _, ⟨hread, rfl⟩, rfl, rfl⟩
  have hacc : access w (getIdempotentEvent cfg event.streamId (event.idempotencyKey.getD "")) s =
      (.ok (some stored), afterRead w s) := by
    simp only [access, hfault, hget, afterRead]
  have hsame : stored.globalPosition = expected + 1 ∧ sameEvent stored.event event = true := by
    refine ⟨hpos, ?_⟩
    rw [hevent]
    simp [sameEvent, pyEq_refl _ hnormal]
  simp only [reconcileCommittedEvent, Txn.bind_ok, Txn.attempt_ok]
  refine ⟨_, _, hacc, ?_⟩
  simp only [if_pos hsame, Txn.pure_ok, and_self]

theorem retry_advances (w : World cfg) (last : Bool) (e : StoreError) :
    Txn.Always (Advances w) (retry w last e) := by
  unfold retry
  split
  · split
    · exact advances_of_reads (by simp)
    · exact .bind (advances_trans w) (rebuild_advances w) fun _ => advances_of_reads (by simp)
  · exact advances_of_reads (by simp)

/-- A retry never reports an event stored. -/
theorem retry_not_stored {last : Bool} {e : StoreError} {stored : StoredEvent} :
    retry w last e s ≠ (.ok (some stored), s') := by
  unfold retry
  intro h
  split at h
  · split at h
    · simp at h
    · simp at h
  · simp at h

/-- What the end of a failed append comes to, from the state after its
read-back. -/
theorem retry_run {last : Bool} {e : StoreError} {r : Except StoreError (Option StoredEvent)}
    (hk : Kept w s s₁) (ht : NoTrace w s s₁) (h : retry w last e s₁ = (r, s')) :
    (∀ stored, r ≠ .ok (some stored)) ∧ Kept w s s' ∧ NoTrace w s s' := by
  have hadv := retry_advances w last e s₁ hk.sound
  rw [h] at hadv
  refine ⟨?_, hk.trans hadv.kept, ht.trans hk.ticks hadv.kept.ticks (.inl hadv.foreign)⟩
  rintro stored rfl
  exact retry_not_stored h

theorem Published.kept {event : DomainEvent} {stored : StoredEvent} (hs : Sound cfg s)
    (h : Published cfg event s s' stored) : Kept w s s' := by
  obtain ⟨rows, row, hgrow, -, -, hins, hmore, -⟩ := h.inserted
  have hall := (hgrow.trans hins).trans hmore
  refine ⟨hall, h.ticks, ⟨hall.inv hs.log, ?_⟩, by rw [h.ledger]⟩
  rw [h.ledger]
  exact hs.replayed.grows hs.log hall

/-- The outcomes of `publish`. -/
def PublishOutcome (w : World cfg) (event : DomainEvent) (s s' : Machine) :
    Except StoreError (Option StoredEvent) → Prop
  | .ok (some stored) => Published cfg event s s' stored ∨
      (Advanced w s s' ∧ s'.ledger = s.ledger ∧ stored.event.eventId ≠ event.eventId)
  | .ok none => Kept w s s' ∧ NoTrace w s s'
  | .error _ => Kept w s s' ∧ NoTrace w s s'

theorem PublishOutcome.of_unstored {event : DomainEvent}
    {r : Except StoreError (Option StoredEvent)}
    (h : (∀ stored, r ≠ .ok (some stored)) ∧ Kept w s s' ∧ NoTrace w s s') :
    PublishOutcome w event s s' r := by
  match r with
  | .ok (some stored) => exact absurd rfl (h.1 stored)
  | .ok none => exact h.2
  | .error _ => exact h.2

/-- The read-back and the retry after an append that wrote nothing. -/
theorem publish_unwritten {event : DomainEvent} {last : Bool} {e : StoreError}
    {r : Except StoreError (Option StoredEvent)} {expected : Nat} (hd : Drawn w s event)
    (hadv : Advanced w s s₁)
    (h : (do
      match ← reconcileCommittedEvent w event expected with
      | some stored => pure (some stored)
      | none => retry w last e : LedgerTxn (Option StoredEvent)) s₁ = (r, s')) :
    PublishOutcome w event s s' r := by
  have hrec := reconcile_advances w event expected s₁ hadv.kept.sound
  simp only [Bind.bind] at h
  rcases hrun : reconcileCommittedEvent w event expected s₁ with ⟨r₂, s₂⟩
  rw [hrun] at h hrec
  have hall := hadv.trans hrec
  match r₂ with
  | .error e₂ =>
    obtain ⟨rfl, rfl⟩ := Prod.mk.inj h
    exact ⟨hall.kept, .inl hall.foreign⟩
  | .ok none => exact .of_unstored (retry_run hall.kept (.inl hall.foreign) h)
  | .ok (some stored) =>
    -- the event cannot have been found: nobody else writes its identifier
    obtain ⟨-, row, hrow, -, hid, -⟩ := reconcile_found hrun
    rcases hall.foreign row hrow with hmem | hmine
    · exact absurd hid (hd.fresh row hmem)
    · exact absurd (hid ▸ hd.mine) hmine

/-- The read-back and the retry after an append that took effect
unacknowledged. -/
theorem publish_lost {event : DomainEvent} {last : Bool} {e e₁ : StoreError}
    {r : Except StoreError (Option StoredEvent)} {stored : StoredEvent} {row : EventRow}
    (hs : Sound cfg s) (hd : Drawn w s event) (hfault : w.fault s.tick = .after e₁)
    (htick : s₁.tick = s.tick + 1) (hpub : Published cfg event s s₁ stored)
    (hevents : s₁.db.events = (w.before s.tick s.db).events ++ [row])
    (hread : rowToEvent cfg row = .ok stored) (hid : row.eventId = event.eventId)
    (hstream : row.streamId = event.streamId) (hkey : row.idempotencyKey = event.idempotencyKey)
    (h : (do
      match ← reconcileCommittedEvent w event s.ledger.replayPosition with
      | some stored => pure (some stored)
      | none => retry w last e : LedgerTxn (Option StoredEvent)) s₁ = (r, s')) :
    PublishOutcome w event s s' r := by
  have hkept : Kept w s s₁ := hpub.kept hs
  have hrec := reconcile_advances w event s.ledger.replayPosition s₁ hkept.sound
  have hrow : row ∈ s₁.db.events := by simp [hevents]
  simp only [Bind.bind] at h
  rcases hrun : reconcileCommittedEvent w event s.ledger.replayPosition s₁ with ⟨r₂, s₂⟩
  rw [hrun] at h hrec
  have hlost : (∀ found, r₂ ≠ .ok (some found)) → LostCommit w s s₂ := by
    intro hnone
    have hticks : s₁.tick ≤ s₂.tick := hrec.kept.ticks
    refine ⟨s.tick, Nat.le_refl _, by omega, ⟨e₁, hfault⟩, fun hok => ?_⟩
    obtain ⟨key, hk, hblank⟩ := hd.keyed
    obtain ⟨rows, own, hgrow, hpos, hown, hins, hmore, hownread, hevent⟩ := hpub.inserted
    have hstored : stored.globalPosition = s.ledger.replayPosition + 1 := by
      rw [rowToEvent_position hownread, hown, hpos]
    have hfinds := reconcile_finds hkept.sound.log (by rw [htick]; exact hok) hd.normal hk hblank hrow
      hread hevent hstream (by rw [hkey, hk]) hstored
    rw [hrun] at hfinds
    exact hnone stored (Prod.mk.inj hfinds).1
  match r₂ with
  | .error e₂ =>
    obtain ⟨rfl, rfl⟩ := Prod.mk.inj h
    exact ⟨hkept.trans hrec.kept, .inr (hlost (by simp))⟩
  | .ok none =>
    exact .of_unstored (retry_run (hkept.trans hrec.kept) (.inr (hlost (by simp))) h)
  | .ok (some found) =>
    obtain ⟨hstate, q, hq, hqread, hqid, -⟩ := reconcile_found hrun
    have hsame : q = row := by
      rcases hrec.foreign q hq with hmem | hmine
      · rw [hevents, List.mem_append, List.mem_singleton] at hmem
        rcases hmem with hmem | rfl
        · exact absurd hqid (hd.fresh_before q hmem)
        · rfl
      · exact absurd (hqid ▸ hd.mine) hmine
    have hfound : found = stored := by
      rw [hsame, hread] at hqread
      exact (Except.ok.inj hqread).symm
    obtain ⟨rfl, rfl⟩ := Prod.mk.inj h
    subst hfound
    obtain ⟨rows, own, hgrow, hpos, hown, hins, hmore, hownread, hevent⟩ := hpub.inserted
    refine .inl ⟨?_, Nat.le_trans hpub.ticks hrec.kept.ticks, rows, own, hgrow, hpos, hown, hins,
      hmore.trans hrec.kept.grows, hownread, hevent⟩
    rw [hstate, afterRead]
    exact hpub.ledger

/-- **An event reported stored is in the log where the ledger expects it, or is
an older one of the same key; otherwise nothing of its own is left behind.** -/
theorem publish_run {event : DomainEvent} {last : Bool} {r : Except StoreError (Option StoredEvent)}
    (hs : Sound cfg s) (hd : Drawn w s event) (h : publish w last event s = (r, s')) :
    PublishOutcome w event s s' r := by
  rcases hacc : access w (append cfg event none (some s.ledger.replayPosition)) s with ⟨r₁, s₁⟩
  simp only [publish, Bind.bind, Txn.query, Txn.attempt, hacc] at h
  cases r₁ with
  | ok stored =>
    obtain ⟨rfl, rfl⟩ := Prod.mk.inj h
    obtain ⟨-, happ, hstate⟩ := access_ok hacc
    rw [hstate]
    rcases append_access hs hd happ with ⟨hdb, hne⟩ | ⟨hpub, -⟩
    · rw [hdb]
      exact .inr ⟨(passed_afterRead w s).advanced rfl hs, rfl, hne⟩
    · exact .inl hpub
  | error e =>
    have hread := (passed_afterRead w s).advanced rfl hs
    rcases append_access_error hacc with rfl | ⟨hfault, hstate, stored, happ⟩
    · exact publish_unwritten hd hread h
    · rcases append_access hs hd happ with ⟨hdb, -⟩ | ⟨hpub, row, hevents, hrow, hid, hst, hkey⟩
      · rw [hstate, hdb] at h
        exact publish_unwritten hd hread h
      · rw [← hstate] at hpub
        exact publish_lost hs hd hfault (by rw [hstate]) hpub hevents hrow hid hst hkey h

/-! ## One round -/

theorem ArtifactRecordRequest.event_ok {r : ArtifactRecordRequest} {history : List ArtifactVersion}
    {draw : Draw} {event : DomainEvent} (h : r.event history draw = .ok event) :
    event.streamId = r.streamId ∧ event.eventType = artifactEventType ∧
      event.payload = versionPayload r.sessionId (r.version history draw) ∧
      event.eventId = draw.eventId ∧ event.timestamp = utcNow draw.timestamp ∧
      event.idempotencyKey = some r.idempotencyKey := by
  simp only [ArtifactRecordRequest.event, DomainEvent.make] at h
  split at h
  · rw [← Except.ok.inj h]
    exact ⟨rfl, rfl, rfl, rfl, rfl, rfl⟩
  · simp at h

theorem ArtifactRecordRequest.key_nonBlank (r : ArtifactRecordRequest) :
    isBlank r.idempotencyKey = false := by
  have hprefix : isBlank "artifact:" = false := by decide
  simp [ArtifactRecordRequest.idempotencyKey, isBlank_append, hprefix]

theorem asRecordError_ok {α : Type} {message : String} {x : Except StoreError α} {a : α} :
    asRecordError message x = .ok a ↔ x = .ok a := by
  cases x <;> simp [asRecordError, recordError]

/-- A validated version: its key is the request's and it is the version the
request becomes. -/
theorem ArtifactRecordRequest.decoded_ok {r : ArtifactRecordRequest} {py : IsoTime.PyVersion}
    {history : List ArtifactVersion} {draw : Draw} {d : DecodedArtifactVersion}
    (hm : Normal r.metadata) (h : r.decoded py history draw = .ok d) :
    decodePersistedVersion py (versionPayload r.sessionId (r.version history draw)) = .ok d ∧
      d.key = r.key ∧ d.item = r.version history draw := by
  simp only [ArtifactRecordRequest.decoded, asRecordError_ok, except_bind_ok] at h
  obtain ⟨_, -, d', hd, h⟩ := h
  split at h
  · simp at h
  · obtain rfl := Except.ok.inj h
    obtain ⟨hkey, hitem⟩ := decode_versionPayload hm hd
    exact ⟨hd, hkey, hitem⟩

/-- The event of an attempt has a freshly drawn identifier. -/
theorem drawn_event {r : ArtifactRecordRequest} {history : List ArtifactVersion}
    {event : DomainEvent} (hm : Normal r.metadata)
    (h : r.event history (w.draw s.tick s.db) = .ok event) : Drawn w s event := by
  obtain ⟨-, -, hpayload, hid, htime, hkey⟩ := ArtifactRecordRequest.event_ok h
  have hprefix : isBlank "evt_" = false := by decide
  refine ⟨⟨?_, ?_⟩, ?_, ?_, ?_, r.idempotencyKey, hkey, r.key_nonBlank⟩
  · simp [hid, Draw.eventId, isBlank_append, hprefix]
  · rw [htime]
    exact timestampOk_momentText (w.draw s.tick s.db).timestamp.inRange
  · rw [hid]
    exact w.drawnMine _ _
  · rw [hid]
    exact w.freshEvent _ _
  · rw [hpayload]
    exact normal_versionPayload hm

/-- A drawn artifact identifier is none the ledger holds. -/
theorem fresh_artifactId (hs : Sound cfg s) :
    (w.draw s.tick s.db).artifactId ∉ s.ledger.artifactIds := by
  intro hmem
  obtain ⟨row, hrow, d, hd, hid⟩ := replayRows_artifactIds hs.replayed.fold _ hmem
  exact w.freshArtifact s.tick s.db row (mem_upTo.mp hrow).1 d hd hid

/-- **Extending the ledger by a published version keeps it replayed.** -/
theorem settle_run {event : DomainEvent} {stored : StoredEvent} {d : DecodedArtifactVersion}
    (hs : Sound cfg s) (hpub : Published cfg event s s₁ stored)
    (htype : event.eventType = artifactEventType)
    (hd : decodePersistedVersion cfg.py event.payload = .ok d)
    (hversion : d.item.ref.version = (s.ledger.history d.key).length + 1)
    (hid : d.item.ref.artifactId ∉ s.ledger.artifactIds) {u : Unit}
    (husage : validateReplayUsage cfg.limits (s.ledger.usage.include d) = .ok u) :
    Kept w s ⟨s₁.db, s₁.ledger.extend d stored.globalPosition, s₁.tick⟩ := by
  obtain ⟨rows, row, hgrow, hpos, hown, hins, hmore, hread, hevent⟩ := hpub.inserted
  have hrows := hgrow.inv hs.log
  have hnext : next EventRow.globalPosition s.ledger.replayPosition (rows ++ [row]) = some row := by
    have hnone : rows.find? (fun r => decide (s.ledger.replayPosition < r.globalPosition)) = none := by
      rw [List.find?_eq_none]
      intro r hr
      have hle := @le_maxOf _ (·.globalPosition) _ _ hr
      simp only [decide_eq_true_eq]
      omega
    have hlt : s.ledger.replayPosition < row.globalPosition := by omega
    simp [next, List.find?_append, hnone, hlt]
  have hstored := rowToEvent_position hread
  have hstep : replayRow cfg s.ledger row = .ok (s.ledger.extend d row.globalPosition) := by
    have hnot : ¬row.globalPosition ≤ s.ledger.replayPosition := by omega
    simp only [replayRow, hread, replayStep, validateReplayPosition, hstored, if_neg hnot, hevent,
      htype, hd, hversion, hid, husage, bind, Except.bind, ne_eq, not_true_eq_false, if_false]
  have hrep := ((hs.replayed.grows hs.log hgrow).grows hrows hins).next (hins.inv hrows) hnext hstep
  have hall := (hgrow.trans hins).trans hmore
  rw [hpub.ledger, hstored]
  refine ⟨hall, hpub.ticks, ⟨hall.inv hs.log, hrep.grows (hins.inv hrows) hmore⟩, ?_⟩
  simp only [LedgerState.extend]
  omega

/-- The last steps of an attempt whose own event is stored. -/
theorem settle_own {request : ArtifactRecordRequest} {event : DomainEvent} {stored : StoredEvent}
    (history : List ArtifactVersion) (d : DecodedArtifactVersion) (s : Machine)
    (h : stored.event.eventId = event.eventId) : settle w request history d event stored s =
      (.ok d.item, ⟨s.db, s.ledger.extend d stored.globalPosition, s.tick⟩) := by
  rw [settle, if_neg (by simp [h])]
  rfl

theorem resolve_found {history : List ArtifactVersion} {stored : StoredEvent}
    {request : ArtifactRecordRequest} {v : ArtifactVersion}
    (h : resolveIdempotentVersion w history stored request s = (.ok v, s')) :
    (v ∈ history ∧ s' = s) ∨ v ∈ s'.ledger.history request.key := by
  simp only [resolveIdempotentVersion, Txn.bind_ok, Txn.ensure_ok, Txn.lift_ok] at h
  obtain ⟨_, _, ⟨-, rfl⟩, existing, _, ⟨-, rfl⟩, _, _, ⟨-, rfl⟩, _, _, ⟨-, rfl⟩, h⟩ := h
  cases hfind : findArtifact history existing.item.ref.artifactId with
  | some found =>
    rw [hfind] at h
    obtain ⟨rfl, rfl⟩ := Txn.pure_ok.mp h
    exact .inl ⟨List.mem_of_find?_eq_some hfind, rfl⟩
  | none =>
    rw [hfind] at h
    simp only [Txn.bind_ok, Txn.query_ok] at h
    obtain ⟨_, s₁, -, rebuilt, _, ⟨rfl, rfl⟩, h⟩ := h
    cases hagain : findArtifact (s₁.ledger.history request.key) existing.item.ref.artifactId with
    | none => rw [hagain] at h; simp at h
    | some found =>
      rw [hagain] at h
      obtain ⟨rfl, rfl⟩ := Txn.pure_ok.mp h
      exact .inr (List.mem_of_find?_eq_some hagain)

/-- The outcomes of a round: a version of the ledger, or nothing of its own
left behind. -/
def AdmitOutcome (w : World cfg) (request : ArtifactRecordRequest) (s s' : Machine) :
    Except StoreError (Option ArtifactVersion) → Prop
  | .ok (some v) => Kept w s s' ∧ v ∈ s'.ledger.history request.key
  | .ok none => Kept w s s' ∧ NoTrace w s s'
  | .error _ => Kept w s s' ∧ NoTrace w s s'

/-- The end of a round that looks an older event up. -/
theorem resolve_outcome {request : ArtifactRecordRequest} {stored : StoredEvent}
    {r : Except StoreError (Option ArtifactVersion)} (hadv : Advanced w s s₁)
    (h : (do
      let found ← resolveIdempotentVersion w (s₁.ledger.history request.key) stored request
      pure (some found) : LedgerTxn (Option ArtifactVersion)) s₁ = (r, s')) :
    AdmitOutcome w request s s' r := by
  have hres := resolve_advances w (s₁.ledger.history request.key) stored request s₁ hadv.kept.sound
  simp only [Bind.bind] at h
  rcases hrun : resolveIdempotentVersion w (s₁.ledger.history request.key) stored request s₁ with
    ⟨r₂, s₂⟩
  rw [hrun] at h hres
  have hall := hadv.trans hres
  cases r₂ with
  | error e =>
    obtain ⟨rfl, rfl⟩ := Prod.mk.inj h
    exact ⟨hall.kept, .inl hall.foreign⟩
  | ok v =>
    obtain ⟨rfl, rfl⟩ := Prod.mk.inj h
    refine ⟨hall.kept, ?_⟩
    rcases resolve_found hrun with ⟨hmem, rfl⟩ | hmem
    · exact hmem
    · exact hmem

/-- **One round keeps the ledger replayed, and leaves nothing of its own behind
unless it returns a version.** -/
theorem admitOnce_run {request : ArtifactRecordRequest} {last : Bool}
    {r : Except StoreError (Option ArtifactVersion)} (hm : Normal request.metadata)
    (hs : Sound cfg s) (h : admitOnce w request last s = (r, s')) :
    AdmitOutcome w request s s' r := by
  have hread := access_advances (w := w)
    (getIdempotentEvent_reads cfg request.streamId request.idempotencyKey) s hs
  have hstate := access_reads (w := w)
    (getIdempotentEvent_reads cfg request.streamId request.idempotencyKey) s
  rcases hacc : access w (getIdempotentEvent cfg request.streamId request.idempotencyKey) s with
    ⟨r₁, s₁⟩
  rw [hacc] at hread hstate
  simp only at hread hstate
  have hledger : s.ledger = s₁.ledger := by rw [hstate, afterRead]
  simp only [admitOnce, Bind.bind, Txn.query, hacc, hledger] at h
  cases r₁ with
  | error e =>
    obtain ⟨rfl, rfl⟩ := Prod.mk.inj h
    exact ⟨hread.kept, .inl hread.foreign⟩
  | ok found =>
    cases found with
    | some existing => exact resolve_outcome hread h
    | none =>
      have hs₁ := hread.kept.sound
      have hstay : AdmitOutcome w request s s₁ (.ok none) := ⟨hread.kept, .inl hread.foreign⟩
      simp only [Txn.lift] at h
      cases hdec : request.decoded cfg.py (s₁.ledger.history request.key) (w.draw s₁.tick s₁.db) with
      | error e =>
        rw [hdec] at h
        obtain ⟨rfl, rfl⟩ := Prod.mk.inj h
        exact hstay
      | ok d =>
        simp only [hdec] at h
        obtain ⟨hdecode, hkey, hitem⟩ := ArtifactRecordRequest.decoded_ok hm hdec
        cases husage : asRecordError "artifact record would exceed ledger safety limits"
            (validateReplayUsage cfg.limits (s₁.ledger.usage.include d)) with
        | error e =>
          rw [husage] at h
          obtain ⟨rfl, rfl⟩ := Prod.mk.inj h
          exact hstay
        | ok u =>
          simp only [husage] at h
          cases hev : request.event (s₁.ledger.history request.key) (w.draw s₁.tick s₁.db) with
          | error e =>
            rw [hev] at h
            obtain ⟨rfl, rfl⟩ := Prod.mk.inj h
            exact hstay
          | ok event =>
            simp only [hev] at h
            have hdrawn : Drawn w s₁ event := drawn_event hm hev
            obtain ⟨-, htype, hpayload, -⟩ := ArtifactRecordRequest.event_ok hev
            rcases hpub : publish w last event s₁ with ⟨r₂, s₂⟩
            have hout := publish_run hs₁ hdrawn hpub
            rw [hpub] at h
            rcases r₂ with e | _ | stored
            · obtain ⟨rfl, rfl⟩ := Prod.mk.inj h
              exact ⟨hread.kept.trans hout.1,
                NoTrace.trans hread.kept.ticks hout.1.ticks (.inl hread.foreign) hout.2⟩
            · obtain ⟨rfl, rfl⟩ := Prod.mk.inj h
              exact ⟨hread.kept.trans hout.1,
                NoTrace.trans hread.kept.ticks hout.1.ticks (.inl hread.foreign) hout.2⟩
            · simp only at h
              rcases hout with hpublished | ⟨hadv, hsame, hne⟩
              · -- the event is ours and the ledger is extended by it
                obtain ⟨_, _, _, _, _, _, _, _, hevent⟩ := hpublished.inserted
                rw [settle_own _ _ _ (by rw [hevent])] at h
                obtain ⟨rfl, rfl⟩ := Prod.mk.inj h
                have hkept := settle_run (w := w) hs₁ hpublished htype (by rw [hpayload]; exact hdecode)
                  (by rw [hitem, hkey]; rfl) (by rw [hitem]; exact fresh_artifactId hs₁)
                  (asRecordError_ok.mp husage)
                refine ⟨hread.kept.trans hkept, ?_⟩
                simp [LedgerState.history_extend, hkey]
              · -- an older event holds the key
                simp only [settle, if_pos hne] at h
                rw [← hsame] at h
                exact resolve_outcome (hread.trans hadv) h

/-- The outcomes of a whole call: a version of the ledger, or nothing of its
own left behind. -/
def RecordOutcome (w : World cfg) (key : ArtifactKey) (s s' : Machine) :
    Except StoreError ArtifactVersion → Prop
  | .ok v => Kept w s s' ∧ v ∈ s'.ledger.history key
  | .error _ => Kept w s s' ∧ NoTrace w s s'

/-- A call that raises before it makes an access. -/
theorem RecordOutcome.refused {key : ArtifactKey} {e : StoreError} (hs : Sound cfg s) :
    RecordOutcome w key s s (.error e) := ⟨.refl hs, .inl (fun _ hrow => .inl hrow)⟩

/-- **The admission loop, in any world.** -/
theorem admitRounds_run {request : ArtifactRecordRequest} (hm : Normal request.metadata) :
    ∀ (n : Nat) {s s' : Machine} {r : Except StoreError ArtifactVersion}, Sound cfg s →
      admitRounds w request n s = (r, s') → RecordOutcome w request.key s s' r
  | 0, s, s', r, hs, h => by
    obtain ⟨rfl, rfl⟩ := Prod.mk.inj h
    exact .refused hs
  | n + 1, s, s', r, hs, h => by
    rcases honce : admitOnce w request (n = 0) s with ⟨r₁, s₁⟩
    have hout := admitOnce_run hm hs honce
    simp only [admitRounds, Bind.bind, honce] at h
    match r₁ with
    | .error e =>
      obtain ⟨rfl, rfl⟩ := Prod.mk.inj h
      exact hout
    | .ok (some v) =>
      obtain ⟨rfl, rfl⟩ := Prod.mk.inj h
      exact hout
    | .ok none =>
      obtain ⟨hk, ht⟩ := hout
      have hrest := admitRounds_run hm n hk.sound h
      cases r with
      | ok v => exact ⟨hk.trans hrest.1, hrest.2⟩
      | error e => exact ⟨hk.trans hrest.1, ht.trans hk.ticks hrest.1.ticks hrest.2⟩

theorem captureRequest_ok {call : RecordCall} {request : ArtifactRecordRequest}
    (h : captureRequest call = .ok request) : Normal request.metadata ∧
      request.key = (call.sessionId, call.output.name) ∧ request.content = call.output.content ∧
      request.taskId = call.taskId := by
  simp only [captureRequest, asRecordError_ok, captureFields, except_bind_ok, Except.ok.injEq] at h
  obtain ⟨a, ha, b, hb, c, -, d, -, e, -, f, hf, g, hg, i, -, m, hmeta, t, -, rfl⟩ := h
  refine ⟨(decodeMetadata_ok hmeta).1, ?_, requireContent_str hg, (requireText_str hb).1⟩
  simp [ArtifactRecordRequest.key, (requireText_str ha).1, (requireText_str hf).1]

/-- **A call of `record`, in any world.** -/
theorem record_run {call : RecordCall} {r : Except StoreError ArtifactVersion} (hs : Sound cfg s)
    (h : record w call s = (r, s')) :
    RecordOutcome w (call.sessionId, call.output.name) s s' r := by
  simp only [record, Bind.bind, Txn.lift] at h
  cases hcap : captureRequest call with
  | error e =>
    rw [hcap] at h
    obtain ⟨rfl, rfl⟩ := Prod.mk.inj h
    exact .refused hs
  | ok request =>
    rw [hcap] at h
    obtain ⟨hm, hkey, -⟩ := captureRequest_ok hcap
    have hrun := admitRounds_run hm _ hs h
    rwa [hkey] at hrun

theorem ArtifactOutput.make_ok {name content mediaType : String} {metadata : Value}
    {output : ArtifactOutput}
    (h : ArtifactOutput.make name content mediaType metadata = .ok output) :
    output.name = name ∧ output.content = content ∧ output.mediaType = mediaType ∧
      output.metadata = metadata := by
  unfold ArtifactOutput.make at h
  split at h
  · rw [← Except.ok.inj h]
    exact ⟨rfl, rfl, rfl, rfl⟩
  · simp at h

/-- **A call of `restore`, in any world.** -/
theorem restore_run {sessionId name taskId actorId : String} {target : Int}
    {r : Except StoreError ArtifactVersion} (hs : Sound cfg s)
    (h : restore w sessionId name target taskId actorId s = (r, s')) :
    RecordOutcome w (sessionId, name) s s' r := by
  simp only [restore, Bind.bind, Txn.query, Txn.lift] at h
  cases hat : versionAt (s.ledger.history (sessionId, name)) target with
  | none =>
    rw [hat] at h
    obtain ⟨rfl, rfl⟩ := Prod.mk.inj h
    exact .refused hs
  | some source =>
    simp only [hat] at h
    cases hout : ArtifactOutput.make name source.content source.ref.mediaType
        (.dict [("restoredFrom", .int target)]) with
    | error e =>
      rw [hout] at h
      obtain ⟨rfl, rfl⟩ := Prod.mk.inj h
      exact .refused hs
    | ok output =>
      rw [hout] at h
      have hrun := record_run hs h
      rwa [(ArtifactOutput.make_ok hout).1] at hrun

end QuantumEntanglement.Artifacts
