import QuantumEntanglement.Artifacts.Ledger

/-
  Replay — a live ledger is the fold of the log up to its position

  `replayRows` is the fold a rebuild makes, without the accesses: rows in,
  ledger out. A ledger is `Replayed` from a log when it is that fold of the
  prefix at its own position. Others only add rows beyond the prefix, so a
  ledger stays replayed while the log grows; reading the next row and folding
  it in keeps it replayed too.

  What is proved:
    1. `replayRow_ok` — what folding one row in does.
    2. `Replayed.grows`, `Replayed.next` — the two ways a replayed ledger
       stays replayed.
    3. `replayFrom_run`, `rebuild_run` — a rebuild, in any world, ends with a
       ledger replayed from the whole log it has seen, or raises and changes
       nothing of the instance.
    4. `replayRows_versions`, `replayRows_artifactIds` — the versions of every
       history are 1, 2, ..., n, and every identifier held is that of a row.
-/

namespace QuantumEntanglement.Artifacts

open Transaction PyJson PyText PositionedLog

variable {cfg : LedgerConfig}

/-! ## The fold -/

/-- Fold one row in. -/
def replayRow (cfg : LedgerConfig) (l : LedgerState) (row : EventRow) :
    Except StoreError LedgerState := do
  let stored ← rowToEvent cfg row
  replayStep cfg l stored

/-- The ledger of some rows. -/
def replayRows (cfg : LedgerConfig) (rows : List EventRow) : Except StoreError LedgerState :=
  rows.foldlM (replayRow cfg) .empty

theorem rowToEvent_position {row : EventRow} {stored : StoredEvent}
    (h : rowToEvent cfg row = .ok stored) : stored.globalPosition = row.globalPosition := by
  obtain ⟨-, -, ⟨_, _, -, -, rfl⟩, -⟩ := rowToEvent_ok.mp h
  rfl

theorem rowToEvent_eventId {row : EventRow} {stored : StoredEvent}
    (h : rowToEvent cfg row = .ok stored) : stored.event.eventId = row.eventId := by
  obtain ⟨-, -, ⟨_, e, -, he, rfl⟩, -⟩ := rowToEvent_ok.mp h
  unfold DomainEvent.make at he
  split at he
  · rw [← Except.ok.inj he]
  · simp at he

/-- **Folding a row in passes it over or extends the history of its key.** -/
theorem replayRow_ok {l l' : LedgerState} {row : EventRow} (h : replayRow cfg l row = .ok l') :
    l.replayPosition < row.globalPosition ∧
      (l' = { l with replayPosition := row.globalPosition } ∨
        ∃ d, rowArtifact cfg row = some d ∧
          d.item.ref.version = (l.history d.key).length + 1 ∧
          d.item.ref.artifactId ∉ l.artifactIds ∧
          l' = l.extend d row.globalPosition) := by
  simp only [replayRow, replayStep, except_bind_ok] at h
  obtain ⟨stored, hread, position, hposition, h⟩ := h
  have hpos := rowToEvent_position hread
  simp only [validateReplayPosition] at hposition
  split at hposition
  · simp [replayError] at hposition
  next hlt =>
    obtain rfl := Except.ok.inj hposition
    rw [hpos] at h hlt
    refine ⟨by omega, ?_⟩
    split at h
    · exact .inl (Except.ok.inj h).symm
    next htype =>
      simp only [except_bind_ok] at h
      obtain ⟨d, hd, h⟩ := h
      split at h
      · simp [replayError] at h
      next hversion =>
        split at h
        · simp [replayError] at h
        next hid =>
          simp only [except_bind_ok, Except.ok.injEq] at h
          obtain ⟨_, -, rfl⟩ := h
          refine .inr ⟨d, ?_, not_not.mp hversion, hid, rfl⟩
          simp only [rowArtifact, hread, hd, if_neg htype, Except.toOption]

theorem replayRow_position {l l' : LedgerState} {row : EventRow}
    (h : replayRow cfg l row = .ok l') : l'.replayPosition = row.globalPosition := by
  obtain ⟨-, rfl | ⟨d, -, -, -, rfl⟩⟩ := replayRow_ok h <;> rfl

theorem replayRows_append {rows : List EventRow} {row : EventRow} {l' : LedgerState} :
    replayRows cfg (rows ++ [row]) = .ok l' ↔
      ∃ l, replayRows cfg rows = .ok l ∧ replayRow cfg l row = .ok l' := by
  have hone : ∀ l, List.foldlM (replayRow cfg) l [row] = replayRow cfg l row := fun l => by
    simp only [List.foldlM_cons, List.foldlM_nil, bind_pure]
  simp only [replayRows, List.foldlM_append, hone, except_bind_ok]

/-- What the fold of no rows has and folding a row in keeps, every fold has. -/
theorem replayRows_induction {P : List EventRow → LedgerState → Prop} (hnil : P [] .empty)
    (hstep : ∀ rows row l l', P rows l → replayRow cfg l row = .ok l' → P (rows ++ [row]) l')
    {rows : List EventRow} : ∀ {l : LedgerState}, replayRows cfg rows = .ok l → P rows l := by
  induction rows using List.reverseRecOn with
  | nil =>
    intro l h
    obtain rfl := Except.ok.inj h
    exact hnil
  | append_singleton rows row ih =>
    intro l' h
    obtain ⟨l, hl, hrow⟩ := replayRows_append.mp h
    exact hstep rows row l l' (ih hl) hrow

/-! ## What a replayed ledger holds -/

@[simp] theorem historyOf_setHistory (key k : ArtifactKey) (history : List ArtifactVersion)
    (versions : Histories) : historyOf k (setHistory key history versions) =
      if k = key then history else historyOf k versions := by
  induction versions with
  | nil =>
    simp only [setHistory, historyOf]
    by_cases h : k = key
    · simp [h]
    · simp [h, Ne.symm h]
  | cons p rest ih =>
    obtain ⟨k', h'⟩ := p
    simp only [setHistory]
    by_cases hk : k' = key
    · subst hk
      simp only [if_true, historyOf]
      by_cases h : k = k'
      · simp [h]
      · simp [h, Ne.symm h]
    · simp only [if_neg hk, historyOf, ih]
      by_cases h : k' = k
      · subst h
        simp [hk]
      · simp [h]

theorem LedgerState.history_extend (l : LedgerState) (d : DecodedArtifactVersion) (position : Nat)
    (key : ArtifactKey) : (l.extend d position).history key =
      if key = d.key then l.history d.key ++ [d.item] else l.history key := by
  simp only [history, extend, historyOf_setHistory]

/-- The identifiers of the histories after one more version. -/
theorem mem_artifactIds_extend {l : LedgerState} {d : DecodedArtifactVersion} {position : Nat}
    {id : String} (h : id ∈ (l.extend d position).artifactIds) :
    id ∈ l.artifactIds ∨ id = d.item.ref.artifactId := by
  have hset : ∀ versions : Histories, id ∈ (setHistory d.key (historyOf d.key versions ++ [d.item])
      versions).flatMap (fun p => p.2.map (·.ref.artifactId)) →
      id ∈ versions.flatMap (fun p => p.2.map (·.ref.artifactId)) ∨ id = d.item.ref.artifactId := by
    intro versions
    induction versions with
    | nil =>
      intro hid
      simpa [setHistory, historyOf] using hid
    | cons p rest ih =>
      obtain ⟨k', h'⟩ := p
      intro hid
      by_cases hk : k' = d.key
      · simp only [setHistory, historyOf, if_pos hk, List.flatMap_cons, List.map_append,
          List.mem_append, List.map_cons, List.map_nil, List.mem_singleton] at hid ⊢
        tauto
      · simp only [setHistory, historyOf, if_neg hk, List.flatMap_cons, List.mem_append] at hid ⊢
        rcases hid with hid | hid
        · exact .inl (.inl hid)
        · rcases ih hid with hid | hid
          · exact .inl (.inr hid)
          · exact .inr hid
  exact hset l.versions h

/-- **Every identifier a replayed ledger holds is that of a row.** -/
theorem replayRows_artifactIds {rows : List EventRow} {l : LedgerState}
    (h : replayRows cfg rows = .ok l) :
    ∀ id ∈ l.artifactIds, ∃ row ∈ rows, ∃ d, rowArtifact cfg row = some d ∧
      d.item.ref.artifactId = id := by
  refine replayRows_induction (P := fun rows l => ∀ id ∈ l.artifactIds, ∃ row ∈ rows, ∃ d,
    rowArtifact cfg row = some d ∧ d.item.ref.artifactId = id) ?_ ?_ h
  · intro id hid
    simp [LedgerState.artifactIds, LedgerState.empty] at hid
  · intro rows row l l' ih hrow id hid
    have hold : id ∈ l.artifactIds → ∃ r ∈ rows ++ [row], ∃ d, rowArtifact cfg r = some d ∧
        d.item.ref.artifactId = id := by
      intro hmem
      obtain ⟨r, hr, hd⟩ := ih id hmem
      exact ⟨r, List.mem_append_left _ hr, hd⟩
    obtain ⟨-, rfl | ⟨d, hd, -, -, rfl⟩⟩ := replayRow_ok hrow
    · exact hold hid
    · rcases mem_artifactIds_extend hid with hmem | rfl
      · exact hold hmem
      · exact ⟨row, by simp, d, hd, rfl⟩

/-- The versions of every history are 1, 2, ..., n. -/
def Consecutive (l : LedgerState) : Prop :=
  ∀ key, (l.history key).map (·.ref.version) = List.range' 1 (l.history key).length

theorem Consecutive.extend {l : LedgerState} {d : DecodedArtifactVersion} {position : Nat}
    (h : Consecutive l) (hd : d.item.ref.version = (l.history d.key).length + 1) :
    Consecutive (l.extend d position) := by
  intro key
  rw [LedgerState.history_extend]
  split
  · rw [List.map_append, List.length_append, h d.key, List.map_singleton, hd,
      List.length_singleton, List.range'_concat]
    simp [Nat.add_comm]
  · exact h key

/-- **The versions a replay holds are numbered without gap or repeat.** -/
theorem replayRows_versions {rows : List EventRow} {l : LedgerState}
    (h : replayRows cfg rows = .ok l) : Consecutive l := by
  refine replayRows_induction (P := fun _ l => Consecutive l) ?_ ?_ h
  · intro key
    rfl
  · intro rows row l l' ih hrow
    obtain ⟨-, rfl | ⟨d, -, hversion, -, rfl⟩⟩ := replayRow_ok hrow
    · exact ih
    · exact ih.extend hversion

/-! ## Ledgers replayed from a log -/

/-- **The ledger is the fold of the log up to its position.** -/
structure Replayed (cfg : LedgerConfig) (rows : List EventRow) (l : LedgerState) : Prop where
  fold : replayRows cfg (upTo EventRow.globalPosition l.replayPosition rows) = .ok l
  reached : l.replayPosition = 0 ∨ ∃ r ∈ rows, r.globalPosition = l.replayPosition

/-- Everything in the log has been read. -/
def CaughtUp (rows : List EventRow) (l : LedgerState) : Prop :=
  ∀ r ∈ rows, r.globalPosition ≤ l.replayPosition

namespace Replayed

variable {rows rows' : List EventRow} {l l' : LedgerState}

theorem empty (hi : LogInv rows) : Replayed cfg rows .empty := by
  refine ⟨?_, .inl rfl⟩
  have hnil : upTo EventRow.globalPosition LedgerState.empty.replayPosition rows = [] := by
    rw [upTo, List.filter_eq_nil_iff]
    intro r hr
    have hpos := (hi.range r hr).1
    have hzero : LedgerState.empty.replayPosition = 0 := rfl
    simp only [hzero, decide_eq_true_eq]
    omega
  rw [hnil]
  rfl

/-- What was added to a log lies beyond what a ledger has read. -/
theorem beyond {new : List EventRow} (h : Replayed cfg rows l) (hi : LogInv (rows ++ new)) :
    ∀ r ∈ new, l.replayPosition < r.globalPosition := by
  intro r hr
  rcases h.reached with hzero | ⟨q, hq, hpos⟩
  · have hrange := (hi.range r (List.mem_append_right _ hr)).1
    omega
  · have hpair := (List.pairwise_append.mp hi.positions).2.2 q hq r hr
    omega

/-- **A ledger stays replayed while the log grows.** -/
theorem grows (h : Replayed cfg rows l) (hi : LogInv rows) (hg : LogGrows cfg rows rows') :
    Replayed cfg rows' l := by
  have hi' := hg.inv hi
  obtain ⟨new, rfl⟩ := hg.exists_new
  refine ⟨?_, ?_⟩
  · rw [upTo_append (h.beyond hi')]
    exact h.fold
  · rcases h.reached with hzero | ⟨q, hq, hpos⟩
    · exact .inl hzero
    · exact .inr ⟨q, List.mem_append_left _ hq, hpos⟩

/-- **Reading the next row and folding it in keeps the ledger replayed.** -/
theorem next (h : Replayed cfg rows l) (hi : LogInv rows) {row : EventRow}
    (hnext : PositionedLog.next EventRow.globalPosition l.replayPosition rows = some row)
    (hrow : replayRow cfg l row = .ok l') : Replayed cfg rows l' := by
  have hpos := replayRow_position hrow
  refine ⟨?_, .inr ⟨row, next_mem hnext, hpos.symm⟩⟩
  rw [hpos, upTo_next hi.positions hnext]
  exact replayRows_append.mpr ⟨l, h.fold, hrow⟩

theorem consecutive (h : Replayed cfg rows l) : Consecutive l := replayRows_versions h.fold

/-- A ledger's position is that of the last row, once it has caught up. -/
theorem caughtUp_iff (h : Replayed cfg rows l) :
    CaughtUp rows l ↔ l.replayPosition = maxOf (·.globalPosition) rows := by
  constructor
  · intro hall
    rcases h.reached with hzero | ⟨q, hq, hpos⟩
    · by_contra hne
      obtain ⟨r, hr, hmax⟩ := @exists_maxOf _ (·.globalPosition) rows (by omega)
      have hle := hall r hr
      omega
    · have hge := @le_maxOf _ (·.globalPosition) _ _ hq
      by_cases hmax : maxOf (·.globalPosition) rows = 0
      · omega
      · obtain ⟨r, hr, heq⟩ := exists_maxOf hmax
        have hle := hall r hr
        omega
  · intro heq r hr
    have hle := @le_maxOf _ (·.globalPosition) _ _ hr
    omega

end Replayed

/-! ## Accesses -/

/-- What a number of accesses do that write nothing of their own: the others'
rows are added, and time passes. -/
structure Passed (w : World cfg) (s s' : Machine) : Prop where
  grows : LogGrows cfg s.db.events s'.db.events
  ticks : s.tick ≤ s'.tick
  foreign : ∀ row ∈ s'.db.events, row ∈ s.db.events ∨ ¬w.mine row.eventId

namespace Passed

variable {w : World cfg} {s s₁ s' : Machine}

theorem trans (h : Passed w s s₁) (h' : Passed w s₁ s') : Passed w s s' := by
  refine ⟨h.grows.trans h'.grows, Nat.le_trans h.ticks h'.ticks, fun row hrow => ?_⟩
  rcases h'.foreign row hrow with hmem | hmine
  · exact h.foreign row hmem
  · exact .inr hmine

end Passed

/-- The state an access of a read leaves behind. -/
def afterRead (w : World cfg) (s : Machine) : Machine := ⟨w.before s.tick s.db, s.ledger, s.tick + 1⟩

theorem passed_afterRead (w : World cfg) (s : Machine) : Passed w s (afterRead w s) :=
  ⟨w.grows _ _, Nat.le_succ _, w.foreign _ _⟩

theorem access_reads {α : Type} {w : World cfg} {m : DbTxn α} (hm : Txn.Reads m) (s : Machine) :
    (access w m s).2 = afterRead w s := by
  have hdb := hm (w.before s.tick s.db)
  simp only [access]
  split
  · rw [afterRead, hdb]
  · rfl
  · rcases hrun : m (w.before s.tick s.db) with ⟨r, db'⟩
    rw [hrun] at hdb
    simp only at hdb
    cases r <;> simp [afterRead, hdb]

/-- An access that returned met no fault. -/
theorem access_ok {α : Type} {w : World cfg} {m : DbTxn α} {a : α} {s s' : Machine}
    (h : access w m s = (.ok a, s')) :
    w.fault s.tick = .none ∧ m (w.before s.tick s.db) = (.ok a, s'.db) ∧
      s' = ⟨s'.db, s.ledger, s.tick + 1⟩ := by
  simp only [access] at h
  split at h
  next hfault =>
    rcases hrun : m (w.before s.tick s.db) with ⟨r, db'⟩
    rw [hrun] at h
    simp only [Prod.mk.injEq] at h
    obtain ⟨rfl, rfl⟩ := h
    exact ⟨hfault, rfl, rfl⟩
  · simp at h
  · split at h <;> simp at h

theorem nextEvent_reads (after : Nat) : Txn.Reads (nextEvent cfg after) := by
  refine Txn.Reads.bind (by simp) fun rows => ?_
  cases rows.head? with
  | none => exact Txn.reads_pure _
  | some row => exact Txn.Reads.bind (by simp) fun _ => Txn.reads_pure _

theorem orderBy_filter {rows : List EventRow} (hi : LogInv rows) (p : EventRow → Bool) :
    orderBy (·.globalPosition) (rows.filter p) = rows.filter p :=
  List.Pairwise.insertionSort_eq ((hi.positions.filter p).imp Nat.le_of_lt)

/-- The SELECT of a replay reads the next row. -/
theorem nextEvent_ok {after : Nat} {found : Option StoredEvent} {db db' : Db}
    (hi : LogInv db.events) (h : nextEvent cfg after db = (.ok found, db')) :
    match found with
    | none => PositionedLog.next EventRow.globalPosition after db.events = none
    | some stored => ∃ row, PositionedLog.next EventRow.globalPosition after db.events = some row ∧
        rowToEvent cfg row = .ok stored := by
  simp only [nextEvent, Txn.bind_ok, Txn.query_ok] at h
  obtain ⟨rows, _, ⟨hrows, rfl⟩, h⟩ := h
  rw [orderBy_filter hi] at hrows
  subst hrows
  rw [List.head?_filter] at h
  cases hnext : db.events.find? (fun r => decide (after < r.globalPosition)) with
  | none =>
    rw [hnext] at h
    obtain ⟨rfl, rfl⟩ := Txn.pure_ok.mp h
    exact hnext
  | some row =>
    rw [hnext] at h
    simp only [Txn.bind_ok, Txn.lift_ok, Txn.pure_ok] at h
    obtain ⟨stored, _, ⟨hread, rfl⟩, rfl, rfl⟩ := h
    exact ⟨row, hnext, hread⟩

/-! ## Rebuilding -/

/-- **Reading on, in any world**: the instance's own state is untouched, and a
result is a ledger replayed from all the log it has seen. -/
theorem replayFrom_run {w : World cfg} : ∀ (n : Nat) (l : LedgerState) (s s' : Machine)
    (r : Except StoreError LedgerState), replayFrom w n l s = (r, s') → LogInv s.db.events →
      Replayed cfg s.db.events l →
      Passed w s s' ∧ s'.ledger = s.ledger ∧
        ∀ l', r = .ok l' → Replayed cfg s'.db.events l' ∧ CaughtUp s'.db.events l'
  | n, l, s, s', r, h, hi, hl => by
    have hread : (access w (nextEvent cfg l.replayPosition) s).2 = afterRead w s :=
      access_reads (nextEvent_reads l.replayPosition) s
    have hpass := passed_afterRead w s
    have hi₁ : LogInv (afterRead w s).db.events := hpass.grows.inv hi
    have hl₁ : Replayed cfg (afterRead w s).db.events l := hl.grows hi hpass.grows
    rcases hacc : access w (nextEvent cfg l.replayPosition) s with ⟨r₁, s₁⟩
    rw [hacc] at hread
    simp only at hread
    subst hread
    cases r₁ with
    | error e =>
      have hend : (r, s') = (.error e, afterRead w s) := by
        rw [← h]
        cases n <;> simp [replayFrom, Bind.bind, hacc]
      obtain ⟨rfl, rfl⟩ := Prod.mk.inj hend
      exact ⟨hpass, rfl, by simp⟩
    | ok found =>
      have hnext := nextEvent_ok hi₁ (access_ok hacc).2.1
      cases found with
      | none =>
        have hend : (r, s') = (.ok l, afterRead w s) := by
          rw [← h]
          cases n <;> simp [replayFrom, Bind.bind, hacc, pure]
        obtain ⟨rfl, rfl⟩ := Prod.mk.inj hend
        refine ⟨hpass, rfl, fun l' hl' => ?_⟩
        obtain rfl := Except.ok.inj hl'
        exact ⟨hl₁, le_of_next_none hnext⟩
      | some stored =>
        obtain ⟨row, hrow, hstored⟩ := hnext
        cases n with
        | zero =>
          have hend : ∃ e, (r, s') = (.error e, afterRead w s) := by
            rw [← h]
            cases hv : validateReplayPosition stored l.replayPosition with
            | error e => exact ⟨e, by simp [replayFrom, Bind.bind, hacc, Txn.lift, hv]⟩
            | ok p =>
              exact ⟨tooManyEvents cfg.limits, by simp [replayFrom, Bind.bind, hacc, Txn.lift, hv, Txn.raise]⟩
          obtain ⟨e, hend⟩ := hend
          obtain ⟨rfl, rfl⟩ := Prod.mk.inj hend
          exact ⟨hpass, rfl, by simp⟩
        | succ n =>
          cases hstep : replayStep cfg l stored with
          | error e =>
            have hend : (r, s') = (.error e, afterRead w s) := by
              rw [← h]
              simp [replayFrom, Bind.bind, hacc, Txn.lift, hstep]
            obtain ⟨rfl, rfl⟩ := Prod.mk.inj hend
            exact ⟨hpass, rfl, by simp⟩
          | ok l₁ =>
            have hrest : replayFrom w n l₁ (afterRead w s) = (r, s') := by
              rw [← h]
              simp [replayFrom, Bind.bind, hacc, Txn.lift, hstep]
            have hfold : replayRow cfg l row = .ok l₁ := by
              simp [replayRow, hstored, hstep, bind, Except.bind]
            obtain ⟨hp, hsame, hout⟩ :=
              replayFrom_run n l₁ _ s' r hrest hi₁ (hl₁.next hi₁ hrow hfold)
            exact ⟨hpass.trans hp, hsame, hout⟩

/-- **A rebuild in any world.** -/
theorem rebuild_run {w : World cfg} {s s' : Machine} {r : Except StoreError Unit}
    (h : rebuild w s = (r, s')) (hi : LogInv s.db.events) :
    Passed w s s' ∧
      match r with
      | .error _ => s'.ledger = s.ledger
      | .ok _ => Replayed cfg s'.db.events s'.ledger ∧ CaughtUp s'.db.events s'.ledger := by
  rcases hrun : replayFrom w cfg.limits.maxReplayEvents .empty s with ⟨r₁, s₁⟩
  obtain ⟨hp, hsame, hout⟩ := replayFrom_run _ _ _ _ _ hrun hi (.empty hi)
  cases r₁ with
  | error e =>
    have hend : (r, s') = (.error e, s₁) := by
      rw [← h]
      simp only [rebuild, Bind.bind, hrun]
    obtain ⟨rfl, rfl⟩ := Prod.mk.inj hend
    exact ⟨hp, hsame⟩
  | ok l =>
    have hend : (r, s') = (.ok (), ⟨s₁.db, l, s₁.tick⟩) := by
      rw [← h]
      simp only [rebuild, Bind.bind, hrun, Txn.update]
    obtain ⟨rfl, rfl⟩ := Prod.mk.inj hend
    exact ⟨⟨hp.grows, hp.ticks, hp.foreign⟩, hout l rfl⟩

end QuantumEntanglement.Artifacts
