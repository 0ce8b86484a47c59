import QuantumEntanglement.Publisher.FleetInvariant

/-
  The attempt limit — how often a connector is called for one message

  Every claim of a message counts one attempt, and an attempt calls the
  connector once at most. The limit is compared where a failed attempt is
  rejected, so a message reaches it only by claims the limit does not see:
  those that take over an expired lease.

  What is proved:
    1. `run_sent` — the connector calls for one message have different attempt
       counts, none of them above the message's own.
    2. `attempts_bounded` — where no claim takes over a lease of a message that
       has used its attempts, those calls are at most the limit, and one more
       for each retry an operator asked for.
    3. `crashed_twice` — one crash in the middle of an attempt is enough to go
       beyond the limit otherwise.
-/

namespace QuantumEntanglement.Publisher

open Transaction TransitionSystem LeasedDelivery Outbox IsoTime

section Runs

variable [SqliteTime] {cfg : StoreConfig} {configs : Nat → PublisherConfig}

/-! ## Connector calls -/

/-- The attempt count a connector call for a message was made with. -/
def sentCount {py : PyVersion} (m : String) (l : Action py × Report py) : Option Nat :=
  match l.2 with
  | .invoked request => if request.messageId = m then some request.attemptCount else none
  | _ => none

/-- The connector calls for a message, by attempt count. -/
def sentTo {py : PyVersion} (m : String) (ls : List (Action py × Report py)) : List Nat :=
  ls.filterMap (sentCount m)

theorem sentTo_append {py : PyVersion} (m : String) (ls : List (Action py × Report py))
    (l : Action py × Report py) : sentTo m (ls ++ [l]) = sentTo m ls ++ (sentCount m l).toList := by
  rw [sentTo, List.filterMap_append, List.filterMap_cons]
  cases sentCount m l <;> rfl

/-- A step that calls a connector is the start of a checked attempt. -/
theorem AttemptStep.invoked {pub : PublisherConfig} {a : Attempt cfg.py} {counters : Counters}
    {db : Db} {event : AttemptEvent} {out : Stepped cfg.py} {request : PublishRequest}
    (h : AttemptStep pub a counters db event out) (hr : out.report = .invoked request) :
    a.isWaiting = true ∧ request = .fromStored a.stored ∧ out.phase = .invoking ∧ out.db = db := by
  have hmark : ∀ reply : OutboxReply cfg.py,
      markReport a.stored.message.messageId reply ≠ .invoked request := by
    intro reply
    unfold markReport
    split <;> simp
  cases h with
  | start hp =>
    refine ⟨by simp [Attempt.isWaiting, hp, Phase.isWaiting], ?_, rfl, rfl⟩
    exact (Report.invoked.inj hr).symm
  | mark hp fault clock now hrun => exact absurd hr (hmark _)
  | markBeforeCancel hp fault clock now cancelled hrun => exact absurd hr (hmark _)
  | _ => exact absurd hr (by simp)

/-- A step made one call of the outbox, or none. -/
theorem Kind.store {action : Action cfg.py} {s s' : Fleet cfg.py} {r : Report cfg.py} (h : Kind configs action s s' r) :
    s'.db = s.db ∨
      ∃ (call : OutboxCall cfg.py) (reply : OutboxReply cfg.py),
        call.exec s.db = (reply, s'.db) := by
  cases h with
  | client call reply hrun => exact .inr ⟨call, reply, hrun⟩
  | idle _ hdb => exact .inl hdb
  | attempt p i a out ha hstep hdb =>
    rcases hstep.store with hsame | ⟨-, call, reply, -, hrun⟩
    · exact .inl (hdb.trans hsame)
    · exact .inr ⟨call, reply, by rw [hdb]; exact hrun⟩
  | claim p clock supply fault cancelled leased haction hleased hdb =>
    rcases faulty_state fault (claimCall (configs p) (s.publishers p) clock supply) s.db with
      ⟨-, hsame⟩ | ⟨-, hsame⟩
    · exact .inr ⟨_, _, Prod.ext rfl (by rw [hdb, hsame])⟩
    · exact .inl (hdb.trans hsame)

/-- A message that a claim leased was claimed by a call that reached the store. -/
theorem claimed_run {pub : PublisherConfig} {me : OutboxPublisher cfg.py} {clock : String}
    {supply : Nat → String} {fault : Fault} {db db' : Db} {x : StoredOutboxMessage cfg.py}
    (hdb : db' = (faulty fault (claimCall pub me clock supply) db).2)
    (hx : x ∈ leasedOf fault (claimCall pub me clock supply) db) :
    ∃ reply, (claimCall pub me clock supply).exec db = (reply, db') ∧
      x ∈ claimedBy x.message.messageId (claimCall pub me clock supply, reply) := by
  rcases faulty_state fault (claimCall pub me clock supply) db with ⟨hfault, hsame⟩ | ⟨rfl, -⟩
  · refine ⟨_, Prod.ext rfl (hsame.symm.trans hdb.symm), ?_⟩
    rw [leased_claimedBy hfault]
    exact List.mem_filter.mpr ⟨hx, by simp⟩
  · exact absurd hx (by simp [leasedOf])

/-- A message keeps its row, which counts at least as many attempts. -/
theorem Kind.row {action : Action cfg.py} {s s' : Fleet cfg.py} {r : Report cfg.py} (h : Kind configs action s s' r)
    (hi : FleetInv s) {m : String} {row : OutboxRow} (hrow : findOutbox s.db.outbox m = some row) :
    ∃ row', findOutbox s'.db.outbox m = some row' ∧ row.attemptCount ≤ row'.attemptCount := by
  rcases h.store with hsame | ⟨call, reply, hrun⟩
  · exact ⟨row, by rw [hsame]; exact hrow, Nat.le_refl _⟩
  · obtain ⟨row', hrow', hgrown⟩ := exec_row hi.tokens.outbox hrun hrow
    exact ⟨row', hrow', by omega⟩

/-- **The connector calls for one message**: with different counts, none above
the message's own, and none of an attempt that still waits. -/
structure SentInv (m : String) (ls : List (Action cfg.py × Report cfg.py)) (s : Fleet cfg.py) :
    Prop where
  inv : FleetInv s
  nodup : (sentTo m ls).Nodup
  bounded : ∀ k ∈ sentTo m ls, 1 ≤ k ∧
    ∃ row, findOutbox s.db.outbox m = some row ∧ k ≤ row.attemptCount
  unsent : ∀ p i a, s.Has p i a → a.messageId = m → a.isWaiting = true → a.count ∉ sentTo m ls

/-- A step that calls no connector and adds no waiting attempt. -/
theorem SentInv.quiet {m : String} {ls : List (Action cfg.py × Report cfg.py)}
    {l : Action cfg.py × Report cfg.py} {s s' : Fleet cfg.py} (h : SentInv m ls s)
    (hi' : FleetInv s') (hkind : Kind configs l.1 s s' l.2) (hquiet : sentCount m l = none)
    (hhas : ∀ p i a', s'.Has p i a' → a'.messageId = m → a'.isWaiting = true →
      a'.count ∉ sentTo m ls) : SentInv m (ls ++ [l]) s' := by
  have hsame : sentTo m (ls ++ [l]) = sentTo m ls := by
    rw [sentTo_append, hquiet]
    exact List.append_nil _
  refine ⟨hi', by rw [hsame]; exact h.nodup, fun k hk => ?_, fun p i a ha hid hw => ?_⟩
  · rw [hsame] at hk
    obtain ⟨hpos, row, hrow, hle⟩ := h.bounded k hk
    obtain ⟨row', hrow', hgrown⟩ := hkind.row h.inv hrow
    exact ⟨hpos, row', hrow', by omega⟩
  · rw [hsame]
    exact hhas p i a ha hid hw

/-- **Every step keeps the connector calls apart.** -/
theorem SentInv.exec {m : String} {ls : List (Action cfg.py × Report cfg.py)} {s s' : Fleet cfg.py}
    {action : Action cfg.py} {r : Report cfg.py} (h : SentInv m ls s)
    (hstep : action.exec configs s = some (s', r)) : SentInv m (ls ++ [(action, r)]) s' := by
  have hi' := h.inv.exec hstep
  have hkind := exec_kind hstep
  have hkept := hkind
  cases hkind with
  | client call reply hrun hclaims hrejects hresolved hreport hmark hissued hhas =>
    refine h.quiet hi' hkept ?_ fun p i a ha hid hw => h.unsent p i a (hhas p i a ha) hid hw
    rcases hreport with rfl | ⟨_, _, rfl⟩ <;> rfl
  | idle hreport hdb hissued hhas =>
    refine h.quiet hi' hkept ?_ fun p i a ha hid hw => h.unsent p i a (hhas p i a ha) hid hw
    rcases hreport with rfl | rfl <;> rfl
  | attempt p i a out ha hcase hdb hissued hself hhas =>
    have hmoved : ∀ q j b, s'.Has q j b → (q, j) = (p, i) → b = { a with phase := out.phase } := by
      rintro q j b ⟨c, hc, hget⟩ heq
      obtain ⟨rfl, rfl⟩ := Prod.mk.inj heq
      obtain ⟨c', hc', hget'⟩ := hself
      rw [hc, Option.some.injEq] at hc'
      subst hc'
      rw [hget, Option.some.injEq] at hget'
      exact hget'
    cases hsent : sentCount m (action, out.report) with
    | none =>
      refine h.quiet hi' hkept hsent fun q j b hb hid hw => ?_
      by_cases heq : (q, j) = (p, i)
      · have hbe := hmoved q j b hb heq
        subst hbe
        exact h.unsent p i a ha hid (hcase.waited hw)
      · exact h.unsent q j b (hhas q j b hb heq) hid hw
    | some k =>
      unfold sentCount at hsent
      split at hsent
      next request hreport =>
        obtain ⟨hwaits, rfl, hphase, hsame⟩ := hcase.invoked hreport
        split at hsent
        next hid =>
          obtain rfl := Option.some.inj hsent
          have hnew : a.count ∉ sentTo m ls := h.unsent p i a ha hid hwaits
          have hsends : sentTo m (ls ++ [(action, out.report)]) = sentTo m ls ++ [a.count] := by
            rw [sentTo_append]
            congr 1
            have hreport' : out.report = .invoked (.fromStored a.stored) := hreport
            simp only [sentCount, hreport']
            rw [if_pos hid]
            rfl
          obtain ⟨⟨token, -, -, row, hrow, hle, -⟩, hcounted⟩ := h.inv.holders p i a ha
          have hida : a.messageId = m := hid
          rw [hida] at hrow
          refine ⟨hi', ?_, fun k hk => ?_, fun q j b hb hbid hw => ?_⟩
          · rw [hsends]
            exact List.nodup_append.mpr ⟨h.nodup, List.nodup_singleton _, fun x hx y hy e => by
              rw [List.mem_singleton] at hy
              rw [hy] at e
              exact hnew (e ▸ hx)⟩
          · rw [hsends] at hk
            rw [hdb, hsame]
            rcases List.mem_append.mp hk with hk | hk
            · exact h.bounded k hk
            · rw [List.mem_singleton] at hk
              rw [hk]
              exact ⟨hcounted, row, hrow, hle⟩
          · rw [hsends]
            by_cases heq : (q, j) = (p, i)
            · have hbe := hmoved q j b hb heq
              subst hbe
              have hphase' : out.phase.isWaiting = true := hw
              rw [hphase] at hphase'
              exact absurd hphase' (by simp [Phase.isWaiting])
            · have hb₀ := hhas q j b hb heq
              intro hmem
              rcases List.mem_append.mp hmem with hmem | hmem
              · exact h.unsent q j b hb₀ hbid hw hmem
              · rw [List.mem_singleton] at hmem
                obtain ⟨rfl, rfl⟩ := h.inv.distinct q j b p i a hb₀ ha (hbid.trans hida.symm) hmem
                exact heq rfl
        next => exact absurd hsent (by simp)
      next => exact absurd hsent (by simp)
  | claim p clock supply fault cancelled leased haction hleased hdb hfresh hissued hidle hnew hhas =>
    refine h.quiet hi' hkept rfl fun q j b hb hid hw => ?_
    by_cases hq : q = p
    · subst hq
      obtain ⟨hget, -⟩ := hnew j b hb
      subst hleased
      intro hmem
      obtain ⟨-, row, hrow, hle⟩ := h.bounded b.count hmem
      obtain ⟨reply, hrun, hclaimed⟩ := claimed_run hdb (List.mem_of_getElem? hget)
      have hgrown := (leased_exec h.inv.tokens.outbox hrun hclaimed).grown row (by rw [← hid] at hrow; exact hrow)
      simp only [Attempt.count] at hle
      omega
    · exact h.unsent q j b (hhas q j b hb hq) hid hw

/-- **The connector calls of a run.** -/
theorem run_sent {ls : List (Action cfg.py × Report cfg.py)} {s : Fleet cfg.py}
    (h : Run (fleetSystem cfg configs) Fleet.start ls s) (m : String) : SentInv m ls s := by
  refine Run.traced (fun before s l s' hi hs => hi.exec hs) h ⟨fleetInv_start, ?_, ?_, ?_⟩
  · exact List.nodup_nil
  · simp [sentTo]
  · simp [sentTo]

/-- As many calls as the message counts attempts, at most. -/
theorem SentInv.length_le {m : String} {ls : List (Action cfg.py × Report cfg.py)}
    {s : Fleet cfg.py} (h : SentInv m ls s) : (sentTo m ls).length ≤ attemptsOf (view s.db m) := by
  have hsub : sentTo m ls ⊆ List.range' 1 (attemptsOf (view s.db m)) := by
    intro k hk
    obtain ⟨hpos, row, hrow, hle⟩ := h.bounded k hk
    rw [attemptsOf_view hrow, List.mem_range'_1]
    omega
  have hlen := (List.subperm_of_subset h.nodup hsub).length_le
  rwa [List.length_range'] at hlen

/-! ## The limit -/

/-- The retries an operator asked for. -/
def retriesOf {py : PyVersion} (m : String) (ls : List (Action py × Report py)) : Nat :=
  ls.countP fun l => l.2 = .resolved m .retry

theorem retriesOf_append {py : PyVersion} (m : String) (ls : List (Action py × Report py))
    (l : Action py × Report py) :
    retriesOf m (ls ++ [l]) = retriesOf m ls + if l.2 = .resolved m .retry then 1 else 0 := by
  rw [retriesOf, List.countP_append, List.countP_singleton]
  simp only [decide_eq_true_eq]
  rfl

/-- A claim that takes over no lease of a message that has used its attempts. -/
def Spares (configs : Nat → PublisherConfig) (limit : Nat) (s : Fleet cfg.py) :
    Action cfg.py → Prop
  | .claim p clock supply _ _ =>
    ∀ r ∈ selectedBy (claimCall (configs p) (s.publishers p) clock supply) s.db,
      r.status = .inFlight → r.attemptCount < limit
  | _ => True

instance (limit : Nat) (s : Fleet cfg.py) (action : Action cfg.py) :
    Decidable (Spares configs limit s action) := by
  cases action <;> unfold Spares <;> infer_instance

/-- The fleet whose claims all do so. -/
def fleetWithin (cfg : StoreConfig) (configs : Nat → PublisherConfig) (limit : Nat) :
    System (Fleet cfg.py) (Action cfg.py × Report cfg.py) :=
  ⟨fun s => s = Fleet.start,
    fun s l s' => Spares configs limit s l.1 ∧ l.1.exec configs s = some (s', l.2)⟩

theorem fleetWithin_run {limit : Nat} {s s' : Fleet cfg.py}
    {ls : List (Action cfg.py × Report cfg.py)} (h : Run (fleetWithin cfg configs limit) s ls s') :
    Run (fleetSystem cfg configs) s ls s' := by
  induction h with
  | done s => exact .done s
  | next hs _ ih => exact .next hs.2 ih

/-- **The attempts a message has used**: the limit at most, and one more for
each retry; fewer while it waits. -/
structure SpentInv (limit : Nat) (m : String) (ls : List (Action cfg.py × Report cfg.py))
    (s : Fleet cfg.py) : Prop where
  inv : FleetInv s
  used : attemptsOf (view s.db m) ≤ limit + retriesOf m ls
  waiting : ∀ r, findOutbox s.db.outbox m = some r → r.status = .pending →
    r.attemptCount < limit + retriesOf m ls

/-- A step that leaves the outbox alone. -/
theorem SpentInv.same {limit : Nat} {m : String} {ls ls' : List (Action cfg.py × Report cfg.py)}
    {s s' : Fleet cfg.py} (h : SpentInv limit m ls s) (hi' : FleetInv s') (hdb : s'.db = s.db)
    (hretries : retriesOf m ls ≤ retriesOf m ls') : SpentInv limit m ls' s' := by
  refine ⟨hi', ?_, fun r hr hs => ?_⟩
  · have hused := h.used
    rw [hdb]
    omega
  · rw [hdb] at hr
    have hwaiting := h.waiting r hr hs
    omega

/-- A step that makes one call: it claims below the limit, gives back below the
limit, and resolves as the trace says. -/
theorem SpentInv.call {limit : Nat} {m : String} {ls ls' : List (Action cfg.py × Report cfg.py)}
    {s s' : Fleet cfg.py} {call : OutboxCall cfg.py} {reply : OutboxReply cfg.py}
    (h : SpentInv limit m ls s) (hi' : FleetInv s') (hlimit : 0 < limit)
    (hrun : call.exec s.db = (reply, s'.db)) (hretries : retriesOf m ls ≤ retriesOf m ls')
    (hclaimed : claimedBy m (call, reply) ≠ [] →
      attemptsOf (view s.db m) < limit + retriesOf m ls)
    (hrejected : ∀ r token, findOutbox s.db.outbox m = some r → r.status = .inFlight →
      r.leaseToken = some token → deedsOf m (call, reply) = [.rejected token false] →
        r.attemptCount < limit)
    (hretried : resolvedBy m (call, reply) = [.retry] → retriesOf m ls < retriesOf m ls') :
    SpentInv limit m ls' s' := by
  have hi := h.inv.tokens.outbox
  have hcount := exec_count hi hrun m
  have hone := (exec_claims hi hrun m).1
  have hused : attemptsOf (view s'.db m) ≤ limit + retriesOf m ls := by
    by_cases hnone : claimedBy m (call, reply) = []
    · rw [hcount, hnone]
      exact h.used
    · have hbelow := hclaimed hnone
      omega
  refine ⟨hi', by omega, fun r' hr' hs => ?_⟩
  rcases exec_waiting hi hrun hr' hs with ⟨r, hr, hrs, hn⟩ | hzero |
    ⟨r, token, hr, hrs, hrt, hn, hdeed⟩ | hresolved
  · have hwaiting := h.waiting r hr hrs
    omega
  · omega
  · have hbelow := hrejected r token hr hrs hrt hdeed
    omega
  · have hmore := hretried hresolved
    rw [attemptsOf_view hr'] at hused
    omega

/-- A message is given back by an attempt that was not its last. -/
theorem rejected_below {limit : Nat} (hconfigs : ∀ p, (configs p).maxAttempts ≤ limit)
    {s : Fleet cfg.py} (hi : FleetInv s) {p i : Nat} {a : Attempt cfg.py} (ha : s.Has p i a)
    {m token error clock : String} {retryAt : Option String}
    (hmakes : a.Makes (configs p) (.reject m token error retryAt false clock)) {row : OutboxRow}
    (hrow : findOutbox s.db.outbox m = some row) (hs : row.status = .inFlight)
    (ht : row.leaseToken = some token) : row.attemptCount < limit := by
  rcases hmakes with ⟨_, _, hcall⟩ | ⟨_, _, _, hcall⟩ | ⟨_, _, _, hcall⟩
  · exact absurd hcall (by simp [Attempt.ackCall])
  · exact absurd hcall (by simp [Attempt.markCall])
  · simp only [Attempt.rejectCall, OutboxCall.reject.injEq] at hcall
    obtain ⟨hid, htoken, -, -, hlast, -⟩ := hcall
    obtain ⟨token', hheld, -, row', hrow', -, hown⟩ := (hi.holders p i a ha).holds
    have hida : a.messageId = m := hid.symm
    rw [hida, hrow, Option.some.injEq] at hrow'
    subst hrow'
    have hsame : token = token' := by
      rw [htoken, Attempt.token, hheld]
      rfl
    rw [← hown hs (hsame ▸ ht)]
    have hbelow : a.count < (configs p).maxAttempts := by
      simp only [isLastAttempt] at hlast
      exact Nat.lt_of_not_le (of_decide_eq_false hlast.symm)
    exact Nat.lt_of_lt_of_le hbelow (hconfigs p)

/-- **Every step keeps within the limit**, if its claims do. -/
theorem SpentInv.exec {limit : Nat} (hconfigs : ∀ p, (configs p).maxAttempts ≤ limit) {m : String}
    {ls : List (Action cfg.py × Report cfg.py)} {s s' : Fleet cfg.py} {action : Action cfg.py}
    {r : Report cfg.py} (h : SpentInv limit m ls s) (hspares : Spares configs limit s action)
    (hstep : action.exec configs s = some (s', r)) :
    SpentInv limit m (ls ++ [(action, r)]) s' := by
  have hi' := h.inv.exec hstep
  have hlimit : 0 < limit := Nat.lt_of_lt_of_le (configs 0).positive.2.2.1 (hconfigs 0)
  have hretries : retriesOf m ls ≤ retriesOf m (ls ++ [(action, r)]) := by
    rw [retriesOf_append]
    omega
  cases exec_kind hstep with
  | client call reply hrun hclaims hrejects hresolved hreport hmark hissued hhas =>
    refine h.call hi' hlimit hrun hretries (fun hne => absurd (hclaims m) hne)
      (fun _ token _ _ _ hdeed => absurd hdeed (hrejects m token false)) fun hretry => ?_
    have hr : r = .resolved m .retry := (hresolved m .retry).mp hretry
    rw [retriesOf_append, if_pos hr]
    omega
  | idle hreport hdb hissued hhas => exact h.same hi' hdb hretries
  | attempt p i a out ha hcase hdb hissued hself hhas =>
    rcases hcase.store with hsame | ⟨-, call, reply, hmakes, hrun⟩
    · exact h.same hi' (hdb.trans hsame) hretries
    · obtain ⟨hclaims, hresolves⟩ := hmakes.deeds m reply
      rw [← hdb] at hrun
      refine h.call hi' hlimit hrun hretries (fun hne => absurd hclaims hne)
        (fun row token hrow hs ht hdeed => ?_) fun hretry => ?_
      · obtain ⟨error, retryAt, clock, rfl⟩ := deedsOf_rejected hdeed
        exact rejected_below hconfigs h.inv ha hmakes hrow hs ht
      · rw [hresolves] at hretry
        exact absurd hretry (by simp)
  | claim p clock supply fault cancelled leased haction hleased hdb hfresh hissued hidle hnew hhas =>
    rcases faulty_state fault (claimCall (configs p) (s.publishers p) clock supply) s.db with
      ⟨-, hreached⟩ | ⟨-, hsame⟩
    · have hrun : (claimCall (configs p) (s.publishers p) clock supply).exec s.db =
          (_, s'.db) := Prod.ext rfl (hreached.symm.trans hdb.symm)
      refine h.call hi' hlimit hrun hretries (fun hne => ?_) (fun _ _ _ _ _ hdeed => ?_)
        fun hretry => ?_
      · subst haction
        obtain ⟨x, hx⟩ := List.exists_mem_of_ne_nil _ hne
        obtain ⟨row, hsel, hrow, hpending | hflight⟩ := exec_selected h.inv.tokens.outbox hrun hx
        · rw [attemptsOf_view hrow]
          exact h.waiting row hrow hpending
        · have hbelow := hspares row hsel hflight
          rw [attemptsOf_view hrow]
          omega
      · obtain ⟨_, _, _, hcall⟩ := deedsOf_rejected hdeed
        exact absurd hcall (by simp [claimCall])
      · rw [resolvedBy_other (by simp [claimCall])] at hretry
        exact absurd hretry (by simp)
    · exact h.same hi' (hdb.trans hsame) hretries

/-- The attempts a message has used, over every run within the limit. -/
theorem run_spent {limit : Nat} (hconfigs : ∀ p, (configs p).maxAttempts ≤ limit)
    {ls : List (Action cfg.py × Report cfg.py)} {s : Fleet cfg.py}
    (h : Run (fleetWithin cfg configs limit) Fleet.start ls s) (m : String) :
    SpentInv limit m ls s :=
  Run.traced (fun _ _ _ _ hi hs => hi.exec hconfigs hs.1 hs.2) h
    ⟨fleetInv_start, Nat.zero_le _, by simp [Fleet.start, Db.empty, findOutbox]⟩

/-- Whether the claims of a list of actions all spare the messages that have
used their attempts. -/
def sparesAll (configs : Nat → PublisherConfig) (limit : Nat) :
    List (Action cfg.py) → Fleet cfg.py → Bool
  | [], _ => true
  | action :: rest, s =>
    decide (Spares configs limit s action) &&
      match action.exec configs s with
      | none => true
      | some (s', _) => sparesAll configs limit rest s'

theorem runActions_within {limit : Nat} {actions : List (Action cfg.py)} {s s' : Fleet cfg.py}
    {ls : List (Action cfg.py × Report cfg.py)}
    (h : runActions configs actions s = some (ls, s'))
    (hspares : sparesAll configs limit actions s = true) :
    Run (fleetWithin cfg configs limit) s ls s' := by
  induction actions generalizing s ls with
  | nil =>
    simp only [runActions, Option.some.injEq, Prod.mk.injEq] at h
    obtain ⟨rfl, rfl⟩ := h
    exact .done s
  | cons action rest ih =>
    rw [runActions] at h
    rw [sparesAll, Bool.and_eq_true, decide_eq_true_eq] at hspares
    cases hstep : action.exec configs s with
    | none => simp [hstep] at h
    | some out =>
      simp only [hstep] at hspares
      cases hrest : runActions configs rest out.1 with
      | none => simp [hstep, hrest] at h
      | some tail =>
        simp only [hstep, hrest, Option.some.injEq, Prod.mk.injEq] at h
        obtain ⟨rfl, rfl⟩ := h
        exact .next ⟨hspares.1, hstep⟩ (ih hrest hspares.2)

end Runs

section Deliveries

/-- SQLite as it documents its dates. -/
local instance deliveriesTime : SqliteTime := .milliseconds

/-- A message whose only attempt fails. -/
def exhaustedActions : List (Action storeConfig.py) :=
  [.enqueue sampleEvent [sampleMessage] none,
   .claim 0 "2024-01-01T00:00:00Z" (fun _ => "x") .none false,
   .attempt 0 0 (.run (.aware sampleNow)),
   .attempt 0 0 .start,
   .attempt 0 0 (.settled .raised .raised),
   .attempt 0 0 (.rejected .none "2024-01-01T00:00:01Z" none none false),
   .finish 0]

/-- 2024-01-01T00:01:00Z, when the lease of 00:00:00 has expired. -/
def sampleLater : UtcMoment := ⟨63839750460000000, by decide +kernel⟩

/-- The same message, with a crash in the middle of the attempt. -/
def crashedActions : List (Action storeConfig.py) :=
  [.enqueue sampleEvent [sampleMessage] none,
   .claim 0 "2024-01-01T00:00:00Z" (fun _ => "x") .none false,
   .attempt 0 0 (.run (.aware sampleNow)),
   .attempt 0 0 .start,
   .crash 0,
   .claim 1 "2024-01-01T00:01:00Z" (fun _ => "y") .none false,
   .attempt 1 0 (.run (.aware sampleLater)),
   .attempt 1 0 .start]

/-- The connector calls for the message, the retries, and its row. -/
def deliveryOf (actions : List (Action storeConfig.py)) :
    Option (List Nat × Nat × List (OutboxStatus × Nat)) :=
  (@runActions _ storeConfig (fun _ => sampleConfig) actions .start).map fun out =>
    (sentTo "m1" out.1, retriesOf "m1" out.1,
      out.2.db.outbox.map fun r => (r.status, r.attemptCount))

theorem exhaustedActions_delivery : deliveryOf exhaustedActions = some ([1], 0, [(.deadLetter, 1)]) := by
  decide +kernel

theorem exhaustedActions_spares :
    @sparesAll _ storeConfig (fun _ => sampleConfig) 1 exhaustedActions .start = true := by
  decide +kernel

theorem crashedActions_delivery :
    deliveryOf crashedActions = some ([1, 2], 0, [(.inFlight, 2)]) := by
  decide +kernel

/-- The run behind such a delivery. -/
theorem deliveryOf_run {actions : List (Action storeConfig.py)} {counts : List Nat} {retries : Nat}
    {rows : List (OutboxStatus × Nat)} (h : deliveryOf actions = some (counts, retries, rows)) :
    ∃ ls s, @runActions _ storeConfig (fun _ => sampleConfig) actions .start = some (ls, s) ∧
      sentTo "m1" ls = counts ∧ retriesOf "m1" ls = retries ∧
      s.db.outbox.map (fun r => (r.status, r.attemptCount)) = rows := by
  obtain ⟨⟨ls, s⟩, hrun, hparts⟩ := Option.map_eq_some_iff.mp h
  simp only [Prod.mk.injEq] at hparts
  exact ⟨ls, s, hrun, hparts.1, hparts.2.1, hparts.2.2⟩

end Deliveries

end QuantumEntanglement.Publisher
