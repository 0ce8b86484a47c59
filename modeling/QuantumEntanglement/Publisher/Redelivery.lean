import QuantumEntanglement.Publisher.AttemptLimit

/-
  Redelivery — connector calls after an ambiguous one

  A connector call that may have been accepted, and is not acknowledged, leaves
  an ambiguity on record. No claim takes a message whose ambiguity is open, so
  nobody calls the connector for it on a new lease. An attempt that was claimed
  before, and lost its lease before it called, can still call: it looked at its
  lease, not at the record.

  What is proved:
    1. `Kind.shut`, `Kind.waits`, `Kind.calls` — what one step does to a
       quarantined or finished message.
    2. `no_silent_redelivery` — over every run, until an operator asks for a
       retry: no claim takes the message, and a connector call is that of an
       attempt which a later claim had overtaken.
    3. `overtaken_calls` — such an attempt does call.
-/

namespace QuantumEntanglement.Publisher

open Transaction TransitionSystem LeasedDelivery Outbox IsoTime Sha256

section Runs

variable [SqliteTime] {cfg : StoreConfig} {configs : Nat → PublisherConfig} {action : Action cfg.py}
  {s s' : Fleet cfg.py} {r : Report cfg.py}

/-! ## One step -/

theorem Fleet.has_inj {p i : Nat} {a b : Attempt cfg.py} (ha : s.Has p i a) (hb : s.Has p i b) :
    a = b := by
  obtain ⟨c, hc, ha⟩ := ha
  obtain ⟨c', hc', hb⟩ := hb
  rw [hc, Option.some.injEq] at hc'
  subst hc'
  rw [ha, Option.some.injEq] at hb
  exact hb

/-- No event of an attempt leases a message or resolves one. -/
theorem AttemptStep.reports {pub : PublisherConfig} {a : Attempt cfg.py} {counters : Counters}
    {db : Db} {event : AttemptEvent} {out : Stepped cfg.py}
    (h : AttemptStep pub a counters db event out) :
    (∀ ms, out.report ≠ .leased ms) ∧ ∀ m res, out.report ≠ .resolved m res := by
  have hmark : ∀ reply : OutboxReply cfg.py,
      (∀ ms, markReport a.stored.message.messageId reply ≠ .leased ms) ∧
        ∀ m res, markReport a.stored.message.messageId reply ≠ .resolved m res := by
    intro reply
    unfold markReport
    split <;> simp
  cases h with
  | mark hp fault clock now hrun => exact hmark _
  | markBeforeCancel hp fault clock now cancelled hrun => exact hmark _
  | _ => simp

/-- **A shut message stays shut and unclaimed**, unless an operator asks for a
retry. -/
theorem Kind.shut (h : Kind configs action s s' r) (hi : FleetInv s) {m : String}
    (hshut : (view s.db m).any (·.isShut) = true) (hretry : r ≠ .resolved m .retry) :
    (view s'.db m).any (·.isShut) = true ∧
      ∀ ms, r = .leased ms → ∀ x ∈ ms, x.message.messageId ≠ m := by
  cases h with
  | client call reply hrun hclaims hrejects hresolved hreport hmark hissued hhas =>
    refine ⟨(exec_shut hi.tokens.outbox hrun hshut fun heq => ?_).1, fun ms heq => ?_⟩
    · exact hretry ((hresolved m .retry).mp heq)
    · rcases hreport with rfl | ⟨_, _, rfl⟩ <;> exact absurd heq (by simp)
  | idle hreport hdb hissued hhas =>
    refine ⟨by rw [hdb]; exact hshut, fun ms heq => ?_⟩
    rcases hreport with rfl | rfl <;> exact absurd heq (by simp)
  | attempt p i a out ha hcase hdb hissued hself hhas =>
    refine ⟨?_, fun ms heq => absurd heq (hcase.reports.1 ms)⟩
    rcases hcase.store with hsame | ⟨-, call, reply, hmakes, hrun⟩
    · rw [hdb, hsame]
      exact hshut
    · rw [hdb]
      refine (exec_shut hi.tokens.outbox hrun hshut ?_).1
      rw [(hmakes.deeds m reply).2]
      simp
  | claim p clock supply fault cancelled leased haction hleased hdb hfresh hissued hidle hnew hhas =>
    have hnone : resolvedBy m (claimCall (configs p) (s.publishers p) clock supply,
        ((claimCall (configs p) (s.publishers p) clock supply).exec s.db).1) ≠ [.retry] := by
      rw [resolvedBy_other (by simp [claimCall])]
      simp
    refine ⟨?_, fun ms heq x hx hid => ?_⟩
    · rcases faulty_state fault (claimCall (configs p) (s.publishers p) clock supply) s.db with
        ⟨-, hreached⟩ | ⟨-, hsame⟩
      · rw [hdb, hreached]
        exact (exec_shut hi.tokens.outbox (Prod.ext rfl rfl) hshut hnone).1
      · rw [hdb, hsame]
        exact hshut
    · obtain rfl := Report.leased.inj heq
      rw [hleased] at hx
      obtain ⟨reply, hrun, hclaimed⟩ := claimed_run hdb hx
      rw [hid] at hclaimed
      have hunclaimed := (exec_shut hi.tokens.outbox hrun hshut (by
        rw [resolvedBy_other (by simp [claimCall])]
        simp)).2
      rw [hunclaimed] at hclaimed
      exact absurd hclaimed (by simp)

/-- An attempt that waits waited before, or was claimed by the step. -/
theorem Kind.waits (h : Kind configs action s s' r) {p i : Nat} {a : Attempt cfg.py}
    (ha : s'.Has p i a) (hw : a.isWaiting = true) :
    (∃ b, s.Has p i b ∧ b.stored = a.stored ∧ b.isWaiting = true) ∨
      ∃ ms, r = .leased ms ∧ a.stored ∈ ms := by
  cases h with
  | client call reply hrun hclaims hrejects hresolved hreport hmark hissued hhas =>
    exact .inl ⟨a, hhas p i a ha, rfl, hw⟩
  | idle hreport hdb hissued hhas => exact .inl ⟨a, hhas p i a ha, rfl, hw⟩
  | attempt q j b out hb hcase hdb hissued hself hhas =>
    by_cases heq : (p, i) = (q, j)
    · obtain ⟨rfl, rfl⟩ := Prod.mk.inj heq
      obtain rfl := Fleet.has_inj hself ha
      exact .inl ⟨b, hb, rfl, hcase.waited hw⟩
    · exact .inl ⟨a, hhas p i a ha heq, rfl, hw⟩
  | claim q clock supply fault cancelled leased haction hleased hdb hfresh hissued hidle hnew hhas =>
    by_cases hq : p = q
    · subst hq
      exact .inr ⟨leased, rfl, List.mem_of_getElem? (hnew i a ha).1⟩
    · exact .inl ⟨a, hhas p i a ha hq, rfl, hw⟩

/-- A connector call is that of an attempt that waited. -/
theorem Kind.calls (h : Kind configs action s s' r) {request : PublishRequest}
    (hr : r = .invoked request) :
    ∃ p i a, s.Has p i a ∧ a.isWaiting = true ∧ request = .fromStored a.stored := by
  cases h with
  | client call reply hrun hclaims hrejects hresolved hreport hmark hissued hhas =>
    rcases hreport with rfl | ⟨_, _, rfl⟩ <;> exact absurd hr (by simp)
  | idle hreport hdb hissued hhas => rcases hreport with rfl | rfl <;> exact absurd hr (by simp)
  | attempt p i a out ha hcase hdb hissued hself hhas =>
    obtain ⟨hwaits, hrequest, -⟩ := hcase.invoked hr
    exact ⟨p, i, a, ha, hwaits, hrequest⟩
  | claim p clock supply fault cancelled leased haction hleased hdb hfresh hissued hidle hnew hhas =>
    exact absurd hr (by simp)

/-! ## Runs -/

/-- **What a run leaves undelivered**: no claim takes the message, and every
connector call for it is that of an attempt which waited at the start of the
run, though a later claim had taken its lease. -/
structure Undelivered (m : String) (s : Fleet cfg.py) (ls : List (Action cfg.py × Report cfg.py)) :
    Prop where
  unclaimed : ∀ l ∈ ls, ∀ ms, l.2 = .leased ms → ∀ x ∈ ms, x.message.messageId ≠ m
  overtaken : ∀ l ∈ ls, ∀ request, l.2 = .invoked request → request.messageId = m →
    ∃ p i a, s.Has p i a ∧ a.isWaiting = true ∧ request = .fromStored a.stored ∧
      ∀ row, findOutbox s.db.outbox m = some row → a.count < row.attemptCount
  once : (sentTo m ls).Nodup

/-- What a run keeps of a message that was shut when it started. -/
structure ShutInv (m : String) (s₀ : Fleet cfg.py) (ls : List (Action cfg.py × Report cfg.py))
    (s : Fleet cfg.py) : Prop where
  inv : FleetInv s
  shut : retriesOf m ls = 0 → (view s.db m).any (·.isShut) = true
  unclaimed : retriesOf m ls = 0 →
    ∀ l ∈ ls, ∀ ms, l.2 = .leased ms → ∀ x ∈ ms, x.message.messageId ≠ m
  waits : retriesOf m ls = 0 → ∀ p i a, s.Has p i a → a.isWaiting = true → a.messageId = m →
    ∃ b, s₀.Has p i b ∧ b.stored = a.stored ∧ b.isWaiting = true
  calls : retriesOf m ls = 0 → ∀ l ∈ ls, ∀ request, l.2 = .invoked request →
    request.messageId = m → ∃ p i a, s₀.Has p i a ∧ a.isWaiting = true ∧
      request = .fromStored a.stored

/-- **Every step keeps it.** -/
theorem ShutInv.exec {m : String} {s₀ : Fleet cfg.py} {ls : List (Action cfg.py × Report cfg.py)}
    (h : ShutInv m s₀ ls s) (hstep : action.exec configs s = some (s', r)) :
    ShutInv m s₀ (ls ++ [(action, r)]) s' := by
  have hkind := exec_kind hstep
  have hquiet : retriesOf m (ls ++ [(action, r)]) = 0 →
      retriesOf m ls = 0 ∧ r ≠ .resolved m .retry := by
    intro hzero
    rw [retriesOf_append] at hzero
    split at hzero
    next => omega
    next hne => exact ⟨by omega, hne⟩
  refine ⟨h.inv.exec hstep, fun hzero => ?_, fun hzero => ?_, fun hzero => ?_, fun hzero => ?_⟩
  all_goals obtain ⟨hbefore, hretry⟩ := hquiet hzero
  all_goals obtain ⟨hshut, hunclaimed⟩ := hkind.shut h.inv (h.shut hbefore) hretry
  · exact hshut
  · intro l hl
    rcases List.mem_append.mp hl with hl | hl
    · exact h.unclaimed hbefore l hl
    · rw [List.mem_singleton] at hl
      subst hl
      exact hunclaimed
  · intro p i a ha hw hid
    rcases hkind.waits ha hw with ⟨b, hb, hstored, hbw⟩ | ⟨ms, hms, hmem⟩
    · have hbid : b.messageId = m := by
        rw [← hid, Attempt.messageId, hstored, Attempt.messageId]
      obtain ⟨b₀, hb₀, hstored₀, hw₀⟩ := h.waits hbefore p i b hb hbw hbid
      exact ⟨b₀, hb₀, hstored₀.trans hstored, hw₀⟩
    · exact absurd hid (hunclaimed ms hms _ hmem)
  · intro l hl request hreq hid
    rcases List.mem_append.mp hl with hl | hl
    · exact h.calls hbefore l hl request hreq hid
    · rw [List.mem_singleton] at hl
      subst hl
      obtain ⟨p, i, a, ha, hw, rfl⟩ := hkind.calls hreq
      obtain ⟨b, hb, hstored, hbw⟩ := h.waits hbefore p i a ha hw hid
      exact ⟨p, i, b, hb, hbw, by rw [hstored]⟩

/-- A run from a fleet whose message is shut. -/
theorem run_shut {m : String} {s₀ : Fleet cfg.py} {ls : List (Action cfg.py × Report cfg.py)}
    (hi : FleetInv s₀) (hshut : (view s₀.db m).any (·.isShut) = true)
    (h : Run (fleetSystem cfg configs) s₀ ls s) : ShutInv m s₀ ls s :=
  Run.traced (fun _ _ _ _ hi hs => hi.exec hs) h
    ⟨hi, fun _ => hshut, by simp, fun _ p i a ha hw _ => ⟨a, ha, rfl, hw⟩, by simp⟩

/-- An attempt that reports a quarantine made the mark, and the store answered
that it holds. -/
theorem AttemptStep.marked {pub : PublisherConfig} {a : Attempt cfg.py} {counters : Counters}
    {db : Db} {event : AttemptEvent} {out : Stepped cfg.py} {m : String}
    (h : AttemptStep pub a counters db event out) (hr : out.report = .quarantined m) :
    a.messageId = m ∧ ∃ reason clock now,
      (a.markCall reason clock now).exec db = (.held true, out.db) := by
  have hmark : ∀ {fault : Fault} {reason : AmbiguityReason} {clock : ClockReading} {now : UtcMoment}
      {reply : OutboxReply cfg.py} {db' : Db},
      faulty fault (a.markCall reason clock now) db = (reply, db') →
      markReport a.stored.message.messageId reply = .quarantined m →
      a.messageId = m ∧ ∃ reason clock now,
        (a.markCall reason clock now).exec db = (.held true, db') := by
    intro fault reason clock now reply db' hrun hreport
    unfold markReport at hreport
    split at hreport
    next hheld =>
      cases reply with
      | held b =>
        simp only [persistedOf] at hheld
        subst hheld
        exact ⟨Report.quarantined.inj hreport, reason, clock, now, faulty_seen hrun (by simp)⟩
      | _ => exact absurd hheld (by simp [persistedOf])
    next => exact absurd hreport (by simp)
  cases h with
  | mark hp fault clock now hrun => exact hmark hrun hr
  | markBeforeCancel hp fault clock now cancelled hrun => exact hmark hrun hr
  | _ => exact absurd hr (by simp)

/-- **A recorded ambiguity is open**: it is on the lease the message holds. -/
theorem quarantined_open {m : String} (hi : FleetInv s)
    (hstep : action.exec configs s = some (s', .quarantined m)) :
    hasOpenAmbiguity s'.db.ambiguities m = true := by
  have hi' := hi.exec hstep
  have hkind := exec_kind hstep
  generalize hr : Report.quarantined m = r at hkind
  cases hkind with
  | client call reply hrun hclaims hrejects hresolved hreport hmark hissued hhas =>
    rcases hreport with rfl | ⟨_, _, rfl⟩ <;> exact absurd hr (by simp)
  | idle hreport hdb hissued hhas => rcases hreport with rfl | rfl <;> exact absurd hr (by simp)
  | attempt p i a out ha hcase hdb hissued hself hhas =>
    obtain ⟨rfl, reason, clock, now, hrun⟩ := hcase.marked hr.symm
    rw [← hdb] at hrun
    obtain ⟨⟨row, -, hs, ht, hrow⟩, x, hx, hid, hdigest⟩ := exec_mark hrun
    refine hasOpenAmbiguity_iff.mpr ⟨x, hx, hid, ?_⟩
    by_contra hclosed
    exact hi'.tokens.closed x hx hclosed row a.token (by rw [hid]; exact hrow) hs ht hdigest
  | claim p clock supply fault cancelled leased haction hleased hdb hfresh hissued hidle hnew hhas =>
    exact absurd hr (by simp)

/-- What a step reports as resolved, its call resolved. -/
theorem Kind.resolved (h : Kind configs action s s' r) {m : String} {res : AmbiguityResolution}
    (hr : r = .resolved m res) :
    ∃ (call : OutboxCall cfg.py) (reply : OutboxReply cfg.py), call.exec s.db = (reply, s'.db) ∧
      resolvedBy m (call, reply) = [res.toResolution] := by
  cases h with
  | client call reply hrun hclaims hrejects hresolved hreport hmark hissued hhas =>
    exact ⟨call, reply, hrun, (hresolved m res).mpr hr⟩
  | idle hreport hdb hissued hhas => rcases hreport with rfl | rfl <;> exact absurd hr (by simp)
  | attempt p i a out ha hcase hdb hissued hself hhas => exact absurd hr (hcase.reports.2 m res)
  | claim p clock supply fault cancelled leased haction hleased hdb hfresh hissued hidle hnew hhas =>
    exact absurd hr (by simp)

/-- A published message stays published, and nobody gives it back. -/
theorem Kind.published (h : Kind configs action s s' r) (hi : FleetInv s) {m : String} {n : Nat}
    (hview : view s.db m = some (.published n)) :
    view s'.db m = some (.published n) ∧ r ≠ .resolved m .retry := by
  constructor
  · rcases h.store with hsame | ⟨call, reply, hrun⟩
    · rw [hsame]
      exact hview
    · exact (exec_published hi.tokens.outbox hrun hview).1
  · intro hr
    obtain ⟨call, reply, hrun, hres⟩ := h.resolved hr
    rw [(exec_published hi.tokens.outbox hrun hview).2] at hres
    exact absurd hres (by simp)

/-- A run from a fleet that published the message. -/
theorem run_published {m : String} {n : Nat} {s₀ : Fleet cfg.py}
    {ls : List (Action cfg.py × Report cfg.py)} (hi : FleetInv s₀)
    (hview : view s₀.db m = some (.published n)) (h : Run (fleetSystem cfg configs) s₀ ls s) :
    view s.db m = some (.published n) ∧ retriesOf m ls = 0 := by
  have hkeeps := Run.traced
    (I := fun ls s => FleetInv s ∧ view s.db m = some (.published n) ∧ retriesOf m ls = 0)
    (fun before s l s' hi hs => ?_) h ⟨hi, hview, rfl⟩
  · exact hkeeps.2
  · obtain ⟨hinv, hbefore, hzero⟩ := hi
    obtain ⟨hafter, hretry⟩ := (exec_kind hs).published hinv hbefore
    exact ⟨hinv.exec hs, hafter, by rw [retriesOf_append, if_neg hretry, hzero]⟩

/-- What a run from a shut message leaves undelivered, if its waiting attempts
were all overtaken. -/
theorem run_undelivered {m : String} {before ls : List (Action cfg.py × Report cfg.py)}
    {s₀ : Fleet cfg.py} (h₀ : Run (fleetSystem cfg configs) Fleet.start before s₀)
    (hshut : (view s₀.db m).any (·.isShut) = true)
    (hover : ∀ p i a, s₀.Has p i a → a.isWaiting = true → a.messageId = m →
      ∀ row, findOutbox s₀.db.outbox m = some row → a.count < row.attemptCount)
    (h : Run (fleetSystem cfg configs) s₀ ls s) (hzero : retriesOf m ls = 0) :
    Undelivered m s₀ ls := by
  have hkeeps := run_shut (run_fleetInv h₀) hshut h
  refine ⟨hkeeps.unclaimed hzero, fun l hl request hreq hid => ?_, ?_⟩
  · obtain ⟨p, i, a, ha, hw, rfl⟩ := hkeeps.calls hzero l hl request hreq hid
    exact ⟨p, i, a, ha, hw, rfl, hover p i a ha hw hid⟩
  · have hnodup := (run_sent (h₀.append h) m).nodup
    rw [sentTo, List.filterMap_append] at hnodup
    exact (List.nodup_append.mp hnodup).2.1

/-- **No silent redelivery.** Once the ambiguity of a message is on record, in
every continuation in which no operator asks for a retry, no claim takes the
message, and whoever calls the connector for it waited on a lease that had been
taken over; each such attempt calls once. After a resolution as published the
same holds of every continuation, and the message stays published. -/
theorem no_silent_redelivery {before : List (Action cfg.py × Report cfg.py)} (m : String)
    (h : Run (fleetSystem cfg configs) Fleet.start before s) :
    (∀ (action : Action cfg.py) s₁, action.exec configs s = some (s₁, .quarantined m) →
        hasOpenAmbiguity s₁.db.ambiguities m = true) ∧
      (hasOpenAmbiguity s.db.ambiguities m = true →
        ∀ ls s', Run (fleetSystem cfg configs) s ls s' → retriesOf m ls = 0 →
          Undelivered m s ls) ∧
      ∀ (action : Action cfg.py) s₁, action.exec configs s = some (s₁, .resolved m .published) →
        ∀ ls s', Run (fleetSystem cfg configs) s₁ ls s' → Undelivered m s₁ ls ∧
          ∃ row, findOutbox s'.db.outbox m = some row ∧ row.status = .published := by
  have hi := run_fleetInv h
  refine ⟨fun action s₁ hstep => quarantined_open hi hstep, fun hopen ls s' hrun hzero => ?_,
    fun action s₁ hstep ls s' hrun => ?_⟩
  · obtain ⟨x, hx, hid, hnone⟩ := hasOpenAmbiguity_iff.mp hopen
    obtain ⟨row, token, hrow, hs, ht, -⟩ := hi.tokens.outbox.openLeased x hx hnone
    rw [hid] at hrow
    obtain ⟨e, hview⟩ := view_inFlight hi.tokens.outbox hrow hs ht
    refine run_undelivered h (by rw [hview, hopen]; rfl) (fun p i a ha hw haid => ?_) hrun hzero
    subst haid
    exact hi.overtaken p i a ha hw hopen
  · have hkind := exec_kind hstep
    obtain ⟨call, reply, hcall, hres⟩ := hkind.resolved rfl
    obtain ⟨n, token, e, hbefore, hafter⟩ := exec_resolved hi.tokens.outbox hcall hres
    have hview : view s₁.db m = some (.published n) := hafter
    obtain ⟨hstays, hzero⟩ := run_published (hi.exec hstep) hview hrun
    have hlater : Run (fleetSystem cfg configs) Fleet.start
        (before ++ [(action, .resolved m .published)]) s₁ := h.append (.single hstep)
    refine ⟨run_undelivered hlater (by rw [hview]; rfl)
      (fun p i a ha hw haid row hrow => ?_) hrun hzero, ?_⟩
    · -- it waited when the message was resolved, and had been overtaken by then
      rcases hkind.waits ha hw with ⟨b, hb, hstored, hbw⟩ | ⟨ms, hms, -⟩
      · obtain ⟨row₀, hrow₀, -, -, hn₀⟩ := row_leased hi.tokens.outbox hbefore
        have hbid : b.messageId = m := by
          rw [← haid, Attempt.messageId, hstored, Attempt.messageId]
        have hlt := hi.overtaken _ _ b hb hbw (by rw [hbid]; exact view_leased hbefore) row₀
          (by rw [hbid]; exact hrow₀)
        have hcount : row.attemptCount = n := by
          have hsame := attemptsOf_view hrow
          rw [hview] at hsame
          exact hsame.symm
        rw [Attempt.count, ← hstored, ← Attempt.count]
        omega
      · exact absurd hms (by simp)
    · obtain ⟨row, hrow, hd⟩ := Option.map_eq_some_iff.mp hstays
      refine ⟨row, hrow, ?_⟩
      unfold OutboxRow.delivery at hd
      cases hs : row.status <;> simp [hs] at hd ⊢

/-! ## An overtaken attempt -/

end Runs

section Overtaken

/-- SQLite as it documents its dates. -/
local instance overtakenTime : SqliteTime := .milliseconds

/-- A message whose ambiguity is on record, while the attempt of an earlier
claim has still to call. -/
def quarantinedActions : List (Action storeConfig.py) :=
  [.enqueue sampleEvent [sampleMessage] none,
   .claim 0 "2024-01-01T00:00:00Z" (fun _ => "x") .none false,
   .attempt 0 0 (.run (.aware sampleNow)),
   .claim 1 "2024-01-01T00:01:00Z" (fun _ => "y") .none false,
   .attempt 1 0 (.run (.aware sampleLater)),
   .attempt 1 0 .start,
   .attempt 1 0 .deadline,
   .attempt 1 0 (.marked .none (.aware sampleLater) sampleLater false)]

/-- Whether a first list of actions ends in a quarantine, and the connector
calls and retries of a second one after it. -/
def callsAfter (first second : List (Action storeConfig.py)) :
    Option (Bool × Bool × List Nat × Nat) :=
  (@runActions _ storeConfig (fun _ => sampleConfig) first .start).bind fun out =>
    (@runActions _ storeConfig (fun _ => sampleConfig) second out.2).map fun out' =>
      (out.1.getLast?.any (·.2 = .quarantined "m1"), hasOpenAmbiguity out.2.db.ambiguities "m1",
        sentTo "m1" out'.1, retriesOf "m1" out'.1)

theorem quarantinedActions_calls :
    callsAfter quarantinedActions [.attempt 0 0 .start] = some (true, true, [1], 0) := by
  decide +kernel

/-- The runs behind such calls. -/
theorem callsAfter_run {first second : List (Action storeConfig.py)} {ended opened : Bool}
    {counts : List Nat} {retries : Nat}
    (h : callsAfter first second = some (ended, opened, counts, retries)) :
    ∃ before s ls s', Run (fleetSystem storeConfig fun _ => sampleConfig) Fleet.start before s ∧
      Run (fleetSystem storeConfig fun _ => sampleConfig) s ls s' ∧
      before.getLast?.any (·.2 = .quarantined "m1") = ended ∧
      hasOpenAmbiguity s.db.ambiguities "m1" = opened ∧ sentTo "m1" ls = counts ∧
      retriesOf "m1" ls = retries := by
  obtain ⟨⟨before, s⟩, hfirst, hrest⟩ := Option.bind_eq_some_iff.mp h
  obtain ⟨⟨ls, s'⟩, hsecond, hparts⟩ := Option.map_eq_some_iff.mp hrest
  simp only [Prod.mk.injEq] at hparts
  exact ⟨before, s, ls, s', runActions_run hfirst, runActions_run hsecond, hparts.1, hparts.2.1,
    hparts.2.2.1, hparts.2.2.2⟩

/-- Whatever follows leaves that message undelivered, but for the overtaken attempt. -/
theorem no_silent_redelivery_quarantined :
    ∃ before s, Run (fleetSystem storeConfig fun _ => sampleConfig) Fleet.start before s ∧
      hasOpenAmbiguity s.db.ambiguities "m1" = true ∧
      ∀ ls s', Run (fleetSystem storeConfig fun _ => sampleConfig) s ls s' →
        retriesOf "m1" ls = 0 → Undelivered "m1" s ls := by
  obtain ⟨before, s, -, -, hrun, -, -, hopen, -, -⟩ := callsAfter_run quarantinedActions_calls
  exact ⟨before, s, hrun, hopen, (no_silent_redelivery "m1" hrun).2.1 hopen⟩

/-- **An overtaken attempt calls the connector** after another publisher
recorded the ambiguity, though nobody asked for a retry. -/
theorem overtaken_calls :
    ∃ before s ls s', Run (fleetSystem storeConfig fun _ => sampleConfig) Fleet.start before s ∧
      before.getLast?.any (·.2 = .quarantined "m1") = true ∧
      Run (fleetSystem storeConfig fun _ => sampleConfig) s ls s' ∧
      sentTo "m1" ls = [1] ∧ retriesOf "m1" ls = 0 := by
  obtain ⟨before, s, ls, s', hrun, hnext, hended, -, hsent, hretries⟩ :=
    callsAfter_run quarantinedActions_calls
  exact ⟨before, s, ls, s', hrun, hended, hnext, hsent, hretries⟩

end Overtaken

end QuantumEntanglement.Publisher
