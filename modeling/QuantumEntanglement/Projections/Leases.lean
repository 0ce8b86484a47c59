import QuantumEntanglement.Projections.OffsetSpecs

/-
  Projection leases — when a release is final and a renewal an extension

  `release` ends a lease by setting its expiry to the clock reading it was
  called at, and `renew` computes a new expiry from its own reading; neither
  looks at what an earlier call read. So both laws hold of a clock, not of the
  code alone.

  What is proved:
    1. `release_final` — after a release of an epoch, and through any calls by
       anybody, an operation under that epoch fails if it does not read a clock
       earlier than the release did.
    2. `released_renew_iff` — right after a release a renewal of that lease
       succeeds exactly if its clock reads earlier.
    3. `renew_extends_iff` — a renewal that succeeds keeps or extends the
       expiry exactly if its reading and its duration together reach it.

  `Fenced` carries the first: the row has a later epoch, or it has this one and
  the expiry the release wrote. Whatever happens under a later epoch leaves a
  later epoch, and what the released epoch could do is behind the fence.
-/

namespace QuantumEntanglement.ProjectionOffsets

open PyText IsoTime Transaction TransitionSystem

variable {R : Type}

/-! ## What leaves a lease alone -/

/-- Every row is there after as before, under the same epoch with the same
expiry. -/
def KeepsLeases (db db' : ProjectionDb R) : Prop :=
  ∀ name row, findOffset name db = some row → ∃ row', findOffset name db' = some row' ∧
    row'.ownerEpoch = row.ownerEpoch ∧ row'.leaseExpiresAt = row.leaseExpiresAt

theorem KeepsLeases.refl (db : ProjectionDb R) : KeepsLeases db db :=
  fun _ row h => ⟨row, h, rfl, rfl⟩

theorem KeepsLeases.trans {a b c : ProjectionDb R} (h : KeepsLeases a b) (h' : KeepsLeases b c) :
    KeepsLeases a c := by
  intro name row hrow
  obtain ⟨row₁, hrow₁, hepoch₁, hexpiry₁⟩ := h name row hrow
  obtain ⟨row₂, hrow₂, hepoch₂, hexpiry₂⟩ := h' name row₁ hrow₁
  exact ⟨row₂, hrow₂, hepoch₂.trans hepoch₁, hexpiry₂.trans hexpiry₁⟩

/-- Moving a checkpoint. -/
theorem keepsLeases_moved (p : OffsetRow → Bool) (position : Int) (now : String)
    (db : ProjectionDb R) : KeepsLeases db (updateOffsets p (·.movedTo position now) db) := by
  intro name row hrow
  refine ⟨_, findOffset_updated hrow (fun _ => rfl), ?_, ?_⟩
  · split
    · rfl
    · rfl
  · split
    · rfl
    · rfl

theorem keepsLeases_respected : Respected (@KeepsLeases R) where
  refl := KeepsLeases.refl
  trans _ _ _ := KeepsLeases.trans
  tables db _ := KeepsLeases.refl db
  receipts db _ := KeepsLeases.refl db
  moved := keepsLeases_moved

/-! ## A released epoch -/

/-- The epoch is over: the row has a later one, or the expiry its release
wrote. -/
def Fenced (name : String) (epoch : Int) (expiry : String) (db : ProjectionDb R) : Prop :=
  ∃ row, findOffset name db = some row ∧
    (epoch < row.ownerEpoch ∨ (row.ownerEpoch = epoch ∧ row.leaseExpiresAt = expiry))

theorem Fenced.keeps {name expiry : String} {epoch : Int} {db db' : ProjectionDb R}
    (h : Fenced name epoch expiry db) (hkeeps : KeepsLeases db db') :
    Fenced name epoch expiry db' := by
  obtain ⟨row, hrow, hover⟩ := h
  obtain ⟨row', hrow', hepoch, hexpiry⟩ := hkeeps name row hrow
  exact ⟨row', hrow', by rwa [hepoch, hexpiry]⟩

/-- The row after its expiry was moved. -/
theorem findOffset_moveExpiry {lease : ProjectionLease} {persisted expiry now name : String}
    {u : Unit} {row : OffsetRow} {db db' : ProjectionDb R}
    (h : moveExpiry lease persisted expiry now db = (.ok u, db'))
    (hrow : findOffset name db = some row) :
    findOffset name db' = some (if ownedBy lease row && row.leaseExpiresAt == persisted then
      { row with leaseExpiresAt := expiry, updatedAt := now } else row) := by
  obtain ⟨-, rfl⟩ := moveExpiry_ok.mp h
  exact findOffset_updated hrow (fun _ => rfl)

/-- An expiry moves under a later epoch, or under another name. -/
theorem Fenced.moveExpiry {lease : ProjectionLease} {persisted expiry' now name expiry : String}
    {u : Unit} {epoch : Int} {db db' : ProjectionDb R} (h : Fenced name epoch expiry db)
    (hother : ¬(lease.projectionName = name ∧ lease.ownerEpoch = epoch))
    (hmove : ProjectionOffsets.moveExpiry lease persisted expiry' now db = (.ok u, db')) :
    Fenced name epoch expiry db' := by
  obtain ⟨row, hrow, hover⟩ := h
  refine ⟨_, findOffset_moveExpiry hmove hrow, ?_⟩
  split
  next hp =>
    simp only [Bool.and_eq_true, beq_iff_eq] at hp
    obtain ⟨hn, -, he⟩ := ownedBy_iff.mp hp.1
    rcases hover with hlater | ⟨heq, -⟩
    · exact .inl hlater
    · exact (hother ⟨hn ▸ findOffset_name hrow, he.symm.trans heq⟩).elim
  next => exact hover

theorem Fenced.claim {py : PyVersion} {name owner clock n expiry : String} {seconds : LeaseSeconds}
    {lease : ProjectionLease} {epoch : Int} {db db' : ProjectionDb R}
    (h : Fenced n epoch expiry db)
    (hclaim : ProjectionOffsets.claim py name owner seconds clock db = (.ok lease, db')) :
    Fenced n epoch expiry db' := by
  obtain ⟨row, hrow, hover⟩ := h
  obtain ⟨s, m, -, -, -, -, -, hcases⟩ := claim_ok hclaim
  rcases hcases with ⟨-, -, rfl⟩ | ⟨taken, htaken, -, -, -, -, rfl⟩
  · refine ⟨row, ?_, hover⟩
    simp only [findOffset, List.find?_append] at hrow ⊢
    rw [hrow]
    rfl
  · refine ⟨_, findOffset_updated hrow (fun _ => rfl), ?_⟩
    split
    next hp =>
      -- The row was taken over: its epoch grew.
      have hname : name = n := by
        rw [← findOffset_name hrow]
        exact (beq_iff_eq.mp hp).symm
      subst hname
      obtain rfl : row = taken := Option.some.inj (hrow.symm.trans htaken)
      left
      show epoch < row.ownerEpoch + 1
      rcases hover with hlater | ⟨heq, -⟩
      · omega
      · omega
    next => exact hover

/-- A call under a name and an epoch. -/
def Call.Presents (call : Call R) (name : String) (epoch : Int) : Prop :=
  ∃ lease, call.operation.lease? = some lease ∧ lease.projectionName = name ∧
    lease.ownerEpoch = epoch

def Call.Succeeded (call : Call R) : Prop := ∃ reply, call.result = .ok reply

/-- The call's clock does not read earlier than `m`. -/
def Call.NotBefore (py : PyVersion) (call : Call R) (m : Int) : Prop :=
  ∀ m', ClockReads py call.clock m' → m ≤ m'

/-- Behind the fence a call under the epoch fails. -/
theorem Fenced.fails {py : PyVersion} {name : String} {epoch m : Int} {call : Call R}
    {db db' : ProjectionDb R} (hm : InRange m) (h : Fenced name epoch (momentText m) db)
    (hstep : (offsetSystem py).step db call db') (hpresents : call.Presents name epoch)
    (hclock : call.NotBefore py m) : ¬call.Succeeded := by
  intro hok
  obtain ⟨reply, hreply⟩ := hok
  obtain ⟨lease, hlease, rfl, rfl⟩ := hpresents
  have hrun : call.operation.run py call.clock db = (call.result, db') := hstep
  rw [hreply] at hrun
  obtain ⟨m', row, hm', hrow, hlive⟩ := fence_of_ok hlease hrun
  obtain ⟨row₀, hrow₀, hover⟩ := h
  obtain rfl : row₀ = row := Option.some.inj (hrow₀.symm.trans hrow)
  rcases hover with hlater | ⟨-, hexpiry⟩
  · rw [hlive.epoch] at hlater
    exact Int.lt_irrefl _ hlater
  · have hafter := hlive.later
    rw [hexpiry, isAfter_momentText hm hm'.inRange, decide_eq_true_eq] at hafter
    have := hclock m' hm'
    omega

/-- The fence stays, if no call under the epoch reads an earlier clock. -/
theorem Fenced.step {py : PyVersion} {name : String} {epoch m : Int} {call : Call R}
    {db db' : ProjectionDb R} (hm : InRange m) (h : Fenced name epoch (momentText m) db)
    (hstep : (offsetSystem py).step db call db')
    (hclock : call.Presents name epoch → call.NotBefore py m) :
    Fenced name epoch (momentText m) db' := by
  have hfails := fun hpresents => h.fails hm hstep hpresents (hclock hpresents)
  obtain ⟨op, clock, result⟩ := call
  have hrun : op.run py clock db = (result, db') := hstep
  -- A lease under this name and epoch belongs to a call that failed.
  have hother : ∀ lease reply, op.lease? = some lease → result = .ok reply →
      ¬(lease.projectionName = name ∧ lease.ownerEpoch = epoch) := fun lease reply hl hr hboth =>
    hfails ⟨lease, hl, hboth⟩ ⟨reply, hr⟩
  cases op with
  | claim n owner seconds =>
    cases result with
    | error e =>
      rw [(claim_error.map _) db e db' hrun]
      exact h
    | ok reply =>
      simp only [Operation.run, Txn.bind_ok, Txn.pure_ok] at hrun
      obtain ⟨_, _, hclaim, -, rfl⟩ := hrun
      exact h.claim hclaim
  | renew lease seconds =>
    cases result with
    | error e =>
      rw [(renew_error.map _) db e db' hrun]
      exact h
    | ok reply =>
      simp only [Operation.run, Txn.bind_ok, Txn.pure_ok, renew_ok] at hrun
      obtain ⟨_, _, ⟨s, m', row, -, -, -, -, -, -, hmove, -⟩, -, rfl⟩ := hrun
      exact h.moveExpiry (hother lease reply rfl rfl) hmove
  | advance lease expected position =>
    cases result with
    | error e =>
      rw [(advance_error.map _) db e db' hrun]
      exact h
    | ok reply =>
      simp only [Operation.run, Txn.bind_ok, Txn.pure_ok] at hrun
      obtain ⟨_, _, hadvance, -, rfl⟩ := hrun
      obtain ⟨m', row, -, -, -, -, -, -, -, -, rfl⟩ := advance_ok hadvance
      exact h.keeps (keepsLeases_moved _ _ _ db)
  | applyEvent lease expected event handler =>
    have hkeeps := keepsLeases_respected.run_applyEvent py clock lease expected event handler db
    have hdb' : (Operation.run py clock (.applyEvent lease expected event handler) db).2 = db' := by
      rw [hrun]
    rw [← hdb']
    exact h.keeps hkeeps
  | release lease =>
    cases result with
    | error e =>
      rw [(release_error.map _) db e db' hrun]
      exact h
    | ok reply =>
      simp only [Operation.run, Txn.bind_ok, Txn.pure_ok, release_ok] at hrun
      obtain ⟨_, _, ⟨m', row, -, -, -, -, hmove⟩, -, rfl⟩ := hrun
      exact h.moveExpiry (hother lease reply rfl rfl) hmove

/-- **A released epoch stays released**, through any calls of which those under
the epoch read no clock earlier than the release did. -/
theorem release_final {py : PyVersion} {name : String} {epoch m : Int} {calls : List (Call R)}
    {db db' : ProjectionDb R} (hm : InRange m) (h : Fenced name epoch (momentText m) db)
    (hrun : Run (offsetSystem py) db calls db')
    (hclock : ∀ call ∈ calls, call.Presents name epoch → call.NotBefore py m) :
    ∀ call ∈ calls, call.Presents name epoch → ¬call.Succeeded := by
  induction hrun with
  | done => simp
  | @next s s' s'' call rest hstep hrest ih =>
    have hfirst := hclock call List.mem_cons_self
    intro c hc hpresents
    rcases List.mem_cons.mp hc with rfl | hc
    · exact h.fails hm hstep hpresents (hfirst hpresents)
    · exact ih (h.step hm hstep hfirst)
        (fun c hc => hclock c (List.mem_cons_of_mem _ hc)) c hc hpresents

/-! ## What a release and a renewal write -/

/-- The row of a live lease, after its expiry was moved. -/
theorem Live.moved {py : PyVersion} {lease : ProjectionLease} {now expiry stamp : String} {u : Unit}
    {row : OffsetRow} {db db' : ProjectionDb R} (hlive : Live py lease now row)
    (hrow : findOffset lease.projectionName db = some row)
    (hmove : moveExpiry lease row.leaseExpiresAt expiry stamp db = (.ok u, db')) :
    findOffset lease.projectionName db' =
      some { row with leaseExpiresAt := expiry, updatedAt := stamp } := by
  rw [findOffset_moveExpiry hmove hrow]
  simp [hlive.ownedBy]

theorem fenced_of_release {py : PyVersion} {lease : ProjectionLease} {clock : String} {u : Unit}
    {m : Int} {db db' : ProjectionDb R} (h : release py lease clock db = (.ok u, db'))
    (hm : ClockReads py clock m) :
    Fenced lease.projectionName lease.ownerEpoch (momentText m) db' := by
  obtain ⟨m', row, -, hm', hrow, hlive, hmove⟩ := release_ok.mp h
  obtain rfl := hm.unique hm'
  exact ⟨_, hlive.moved hrow hmove, .inr ⟨hlive.epoch, rfl⟩⟩

/-- The primary key: a projection has one row. -/
def OneRow (db : ProjectionDb R) : Prop := (db.offsets.map (·.projectionName)).Nodup

/-- The names of the rows. -/
def SameNames (db db' : ProjectionDb R) : Prop :=
  db'.offsets.map (·.projectionName) = db.offsets.map (·.projectionName)

theorem sameNames_updated {p : OffsetRow → Bool} {f : OffsetRow → OffsetRow}
    (hf : ∀ row, (f row).projectionName = row.projectionName) (db : ProjectionDb R) :
    SameNames db (updateOffsets p f db) := by
  simp only [SameNames, updateOffsets, updateWhere, List.map_map]
  refine List.map_congr_left fun row _ => ?_
  simp only [Function.comp_apply]
  split
  · exact hf row
  · rfl

theorem sameNames_respected : Respected (@SameNames R) where
  refl _ := rfl
  trans _ _ _ h h' := Eq.trans h' h
  tables _ _ := rfl
  receipts _ _ := rfl
  moved _ _ _ db := sameNames_updated (by intro _; rfl) db

/-- A call adds at most the row of a projection that has none. -/
theorem step_names {py : PyVersion} {call : Call R} {db db' : ProjectionDb R}
    (hstep : (offsetSystem py).step db call db') :
    SameNames db db' ∨ ∃ row, findOffset row.projectionName db = none ∧
      db'.offsets = db.offsets ++ [row] := by
  obtain ⟨op, clock, result⟩ := call
  have hrun : op.run py clock db = (result, db') := hstep
  cases op with
  | claim name owner seconds =>
    cases result with
    | error e =>
      rw [(claim_error.map _) db e db' hrun]
      exact .inl rfl
    | ok reply =>
      simp only [Operation.run, Txn.bind_ok, Txn.pure_ok] at hrun
      obtain ⟨_, _, hclaim, -, rfl⟩ := hrun
      obtain ⟨s, m, -, -, -, -, -, hcases⟩ := claim_ok hclaim
      rcases hcases with ⟨hnone, -, rfl⟩ | ⟨row, -, -, -, -, -, rfl⟩
      · exact .inr ⟨_, hnone, rfl⟩
      · exact .inl (sameNames_updated (by intro _; rfl) db)
  | renew lease seconds =>
    cases result with
    | error e =>
      rw [(renew_error.map _) db e db' hrun]
      exact .inl rfl
    | ok reply =>
      simp only [Operation.run, Txn.bind_ok, Txn.pure_ok, renew_ok] at hrun
      obtain ⟨_, _, ⟨s, m, row, -, -, -, -, -, -, hmove, -⟩, -, rfl⟩ := hrun
      obtain ⟨-, rfl⟩ := moveExpiry_ok.mp hmove
      exact .inl (sameNames_updated (by intro _; rfl) db)
  | advance lease expected position =>
    cases result with
    | error e =>
      rw [(advance_error.map _) db e db' hrun]
      exact .inl rfl
    | ok reply =>
      simp only [Operation.run, Txn.bind_ok, Txn.pure_ok] at hrun
      obtain ⟨_, _, hadvance, -, rfl⟩ := hrun
      obtain ⟨m, row, -, -, -, -, -, -, -, -, rfl⟩ := advance_ok hadvance
      exact .inl (sameNames_updated (by intro _; rfl) db)
  | applyEvent lease expected event handler =>
    have hnames := sameNames_respected.run_applyEvent py clock lease expected event handler db
    rw [hrun] at hnames
    exact .inl hnames
  | release lease =>
    cases result with
    | error e =>
      rw [(release_error.map _) db e db' hrun]
      exact .inl rfl
    | ok reply =>
      simp only [Operation.run, Txn.bind_ok, Txn.pure_ok, release_ok] at hrun
      obtain ⟨_, _, ⟨m, row, -, -, -, -, hmove⟩, -, rfl⟩ := hrun
      obtain ⟨-, rfl⟩ := moveExpiry_ok.mp hmove
      exact .inl (sameNames_updated (by intro _; rfl) db)

theorem oneRow {py : PyVersion} {db : ProjectionDb R} (h : Reachable (offsetSystem py) db) :
    OneRow db := by
  refine invariant_of_reachable (I := OneRow) (fun db hstart => ?_) (fun db call db' hone hstep => ?_) h
  · rw [OneRow, hstart.1]
    exact .nil
  · rcases step_names hstep with hsame | ⟨row, hnone, hoffsets⟩
    · rw [OneRow, hsame]
      exact hone
    · rw [OneRow, hoffsets, List.map_append]
      refine List.Nodup.append hone (by simp) ?_
      intro name hmem hname
      simp only [List.map_cons, List.map_nil, List.mem_singleton] at hname
      obtain ⟨row', hrow', rfl⟩ := List.mem_map.mp hmem
      have := List.find?_eq_none.mp hnone row' hrow'
      simp [hname] at this

/-- With one row a projection, the row of a live lease is the one an UPDATE of
its expiry changes. -/
theorem moveExpiry_runs {py : PyVersion} {lease : ProjectionLease} {now expiry stamp : String}
    {row : OffsetRow} {db : ProjectionDb R} (hone : OneRow db)
    (hrow : findOffset lease.projectionName db = some row) (hlive : Live py lease now row) :
    ∃ db', moveExpiry lease row.leaseExpiresAt expiry stamp db = (.ok (), db') := by
  refine ⟨_, moveExpiry_ok.mpr ⟨?_, rfl⟩⟩
  refine countP_unique (r := row) ?_ (findOffset_mem hrow) ?_
  · refine (List.pairwise_map.mp hone).imp ?_
    intro a b hne hboth
    simp only [Bool.and_eq_true] at hboth
    have ha := (ownedBy_iff.mp hboth.1.1).1
    have hb := (ownedBy_iff.mp hboth.2.1).1
    exact hne (ha.trans hb.symm)
  · simp [hlive.ownedBy]

/-- A renewal of a stored lease runs exactly if the stored expiry is later than
its clock reading. -/
theorem renew_iff_later {py : PyVersion} {lease : ProjectionLease} {seconds : LeaseSeconds}
    {clock : String} {s : Rat} {m e : Int} {row : OffsetRow} {db : ProjectionDb R} (hone : OneRow db)
    (hlease : LeaseOk lease) (hs : validateLeaseSeconds seconds = .ok s) (hm : ClockReads py clock m)
    (hin : InRange (m + leaseMicros s)) (hrow : findOffset lease.projectionName db = some row)
    (hok : RowOk row) (howner : row.ownerId = lease.ownerId) (hepoch : row.ownerEpoch = lease.ownerEpoch)
    (he : InRange e) (hexpiry : row.leaseExpiresAt = momentText e) :
    (∃ lease' db', renew py lease seconds clock db = (.ok lease', db')) ↔ m < e := by
  have hafter : isAfter py row.leaseExpiresAt (momentText m) = decide (m < e) := by
    rw [hexpiry, isAfter_momentText he hm.inRange]
  constructor
  · intro h
    obtain ⟨lease', db', h⟩ := h
    obtain ⟨s', m', row', -, -, hm', -, hrow', hlive, -⟩ := renew_ok.mp h
    obtain rfl := hm.unique hm'
    obtain rfl : row = row' := Option.some.inj (hrow.symm.trans hrow')
    have hlater := hlive.later
    rw [hafter, decide_eq_true_eq] at hlater
    exact hlater
  · intro hlt
    have hlive : Live py lease (momentText m) row :=
      ⟨hok, findOffset_name hrow, howner, hepoch, by rw [hafter, decide_eq_true_eq]; exact hlt⟩
    have hruns : ∃ db', moveExpiry lease row.leaseExpiresAt (momentText (m + leaseMicros s))
        (momentText m) db = (.ok (), db') := moveExpiry_runs hone hrow hlive
    obtain ⟨db', hmove⟩ := hruns
    exact ⟨_, db', renew_ok.mpr ⟨s, m, row, hs, hlease, hm, hin, hrow, hlive, hmove, rfl⟩⟩

/-- **A released lease can be renewed exactly under a clock that reads earlier
than its release did.** -/
theorem released_renew_iff {py : PyVersion} {lease : ProjectionLease} {seconds : LeaseSeconds}
    {clock clock' : String} {s : Rat} {m m' : Int} {db db' : ProjectionDb R}
    (hreach : Reachable (offsetSystem py) db) (hrelease : release py lease clock db = (.ok (), db'))
    (hm : ClockReads py clock m) (hs : validateLeaseSeconds seconds = .ok s)
    (hm' : ClockReads py clock' m') (hin : InRange (m' + leaseMicros s)) :
    (∃ lease' db'', renew py lease seconds clock' db' = (.ok lease', db'')) ↔ m' < m := by
  have hone : OneRow db' := by
    refine oneRow (hreach.step (l := ⟨.release lease, clock, .ok .released⟩) ?_)
    show Operation.run py clock (.release lease) db = (.ok .released, db')
    simp only [Operation.run, Txn.bind_ok, Txn.pure_ok]
    exact ⟨(), _, hrelease, trivial, rfl⟩
  obtain ⟨m₀, row, hlease, hm₀, hrow, hlive, hmove⟩ := release_ok.mp hrelease
  obtain rfl := hm.unique hm₀
  have hstamp : IsStamp (momentText m) := ⟨m, hm.inRange, rfl⟩
  exact renew_iff_later hone hlease hs hm' hin (hlive.moved hrow hmove)
    ⟨hlive.ok.name, hlive.ok.position, hlive.ok.owner, hlive.ok.epoch, hstamp, hstamp⟩
    hlive.owner hlive.epoch hm.inRange rfl

/-- **A renewal keeps or extends the expiry exactly if its clock reading and its
duration reach it.** -/
theorem renew_extends_iff {py : PyVersion} {lease lease' : ProjectionLease} {seconds : LeaseSeconds}
    {clock : String} {db db' : ProjectionDb R}
    (h : renew py lease seconds clock db = (.ok lease', db')) :
    ∃ s m e e' row row', validateLeaseSeconds seconds = .ok s ∧ ClockReads py clock m ∧
      findOffset lease.projectionName db = some row ∧ row.leaseExpiresAt = momentText e ∧
      findOffset lease.projectionName db' = some row' ∧ row'.leaseExpiresAt = momentText e' ∧
      lease'.leaseExpiresAt = momentText e' ∧ InRange e ∧ InRange e' ∧
      (e ≤ e' ↔ e ≤ m + leaseMicros s) := by
  obtain ⟨s, m, row, hs, -, hm, hin, hrow, hlive, hmove, rfl⟩ := renew_ok.mp h
  obtain ⟨e, he, hexpiry⟩ := hlive.ok.expiry
  exact ⟨s, m, e, _, row, _, hs, hm, hrow, hexpiry, hlive.moved hrow hmove, rfl, rfl, he, hin, Iff.rfl⟩

namespace LeaseSample

def claimed : Except OffsetError ProjectionLease × ProjectionDb Unit :=
  claim .py311 "tasks" "worker" (.int 30) "2024-01-01T00:00:00Z" ⟨[], [], ()⟩

def lease : ProjectionLease := ⟨"tasks", "worker", 1, "2024-01-01T00:00:30Z"⟩

/-- The lease is released ten seconds after it was claimed. -/
def released : Except OffsetError Unit × ProjectionDb Unit :=
  release .py311 lease "2024-01-01T00:00:10Z" claimed.2

end LeaseSample

end QuantumEntanglement.ProjectionOffsets
