import QuantumEntanglement.Store.OutboxLife

/-
  Runs of the outbox — any workers, any clocks, any order of calls

  A label of `outboxSystem` is a call with its reply. A call that raises
  leaves the database as it was; a call that returns is, for every message, a
  run of the item's life (`OutboxLife`) whose claims and publications are
  those the reply reports. So a run of calls is, for every message, one life.

  What is proved:
    1. `exec_raised` — a call that raises changes nothing.
    2. `exec_life`, `run_life` — the life behind a call and behind a run.
    3. `outbox_state_machine` — leases, attempts, quarantine, fencing and
       publication over every run.
-/

namespace QuantumEntanglement.Outbox

open Transaction TransitionSystem LeasedDelivery PyText IsoTime Sha256

/-- A call on the outbox, with the clock it runs at and what the store draws. -/
inductive OutboxCall (py : PyVersion) where
  | enqueue (event : DomainEvent) (messages : List (OutboxMessage py)) (expectedVersion : Option Int)
  | claim (workerId : String) (limit : Int) (leaseMicros : Nat) (clock : String)
      (supply : Nat → String)
  | acknowledge (messageId leaseToken : String) (publishedAt : Option String) (clock : String)
  | reject (messageId leaseToken error : String) (retryAt : Option String) (deadLetter : Bool)
      (clock : String)
  | mark (messageId leaseToken : String) (reason : AmbiguityReason) (markedAt : Option String)
      (now : UtcMoment)
  | resolve (messageId digest : String) (resolution : AmbiguityResolution)
      (resolvedAt retryAt : Option String) (now : UtcMoment)

/-- What a call answers. -/
inductive OutboxReply (py : PyVersion) where
  | enqueued (stored : StoredEvent) (linked : List (StoredOutboxMessage py))
  | claimed (messages : List (StoredOutboxMessage py))
  | held (held : Bool)
  | raised (error : StoreError)

/-- The reply of a program that ended. -/
def answer {py : PyVersion} {α : Type} (wrap : α → OutboxReply py) :
    Except StoreError α × Db → OutboxReply py × Db
  | (.ok a, db) => (wrap a, db)
  | (.error e, db) => (.raised e, db)

section Runs

variable [SqliteTime] {cfg : StoreConfig}

/-- A call on the database. -/
def OutboxCall.exec : OutboxCall cfg.py → Db → OutboxReply cfg.py × Db
  | .enqueue event messages expected, db =>
    answer (fun r => .enqueued r.1 r.2) (appendWithOutbox cfg event messages expected db)
  | .claim workerId limit lease clock supply, db =>
    answer .claimed (claimOutbox cfg workerId limit lease clock supply db)
  | .acknowledge messageId token publishedAt clock, db =>
    answer .held (acknowledgeOutbox cfg messageId token publishedAt clock db)
  | .reject messageId token error retryAt dead clock, db =>
    answer .held (rejectOutbox cfg messageId token error retryAt dead clock db)
  | .mark messageId token reason markedAt now, db =>
    answer .held (markOutboxAmbiguous cfg messageId token reason markedAt now db)
  | .resolve messageId digest resolution resolvedAt retryAt now, db =>
    answer .held (resolveOutboxAmbiguity cfg messageId digest resolution resolvedAt retryAt now db)

/-- The outbox as a system: one call at a time, by anyone, at any clock. -/
def outboxSystem (cfg : StoreConfig) : System Db (OutboxCall cfg.py × OutboxReply cfg.py) :=
  ⟨fun db => db = Db.empty, fun db l db' => l.1.exec db = (l.2, db')⟩

theorem answer_cases {α : Type} {wrap : α → OutboxReply cfg.py} {x : Except StoreError α × Db}
    {reply : OutboxReply cfg.py} {db' : Db} (h : answer wrap x = (reply, db')) :
    (∃ a, x = (.ok a, db') ∧ reply = wrap a) ∨ ∃ e, x = (.error e, db') ∧ reply = .raised e := by
  obtain ⟨r, s⟩ := x
  cases r with
  | ok a =>
    simp only [answer, Prod.mk.injEq] at h
    exact .inl ⟨a, by rw [h.2], h.1.symm⟩
  | error e =>
    simp only [answer, Prod.mk.injEq] at h
    exact .inr ⟨e, by rw [h.2], h.1.symm⟩

/-! ## Calls that raise -/

theorem answer_raised {α : Type} {wrap : α → OutboxReply cfg.py} {m : DbTxn α} {e : StoreError}
    {db db' : Db} (hm : Txn.Restores m) (hwrap : ∀ a, wrap a ≠ .raised e)
    (h : answer wrap (m db) = (.raised e, db')) : db' = db := by
  rcases answer_cases h with ⟨a, -, ha⟩ | ⟨e', hrun, -⟩
  · exact absurd ha.symm (hwrap a)
  · exact hm _ _ _ hrun

/-- **A call that raises leaves every table as it was.** -/
theorem exec_raised {call : OutboxCall cfg.py} {e : StoreError} {db db' : Db}
    (h : call.exec db = (.raised e, db')) : db' = db := by
  cases call with
  | enqueue event messages expected =>
    exact answer_raised (.bind (by simp) fun _ => .bind (by simp) fun _ => .bind (by simp) fun _ =>
      .atomically _) (by simp) h
  | claim workerId limit lease clock supply =>
    exact answer_raised (.bind (by simp) fun _ => .bind (by simp) fun _ => .atomically _) (by simp) h
  | acknowledge messageId token publishedAt clock =>
    exact answer_raised (.atomically _) (by simp) h
  | reject messageId token error retryAt dead clock =>
    exact answer_raised (.atomically _) (by simp) h
  | mark messageId token reason markedAt now =>
    exact answer_raised (.bind (by simp) fun _ => .bind (by simp) fun _ => .atomically _) (by simp) h
  | resolve messageId digest resolution resolvedAt retryAt now =>
    exact answer_raised (.bind (by simp) fun _ => .bind (by simp) fun _ => .bind (by simp) fun _ =>
      .atomically _) (by simp) h

/-! ## What the replies report -/

/-- The messages under this identifier that a call leased. -/
def claimedBy {py : PyVersion} (m : String) :
    OutboxCall py × OutboxReply py → List (StoredOutboxMessage py)
  | (.claim .., .claimed ms) => ms.filter (fun x => x.message.messageId = m)
  | _ => []

/-- The leases a run granted for a message, oldest first. -/
def claimsOf {py : PyVersion} (m : String) (ls : List (OutboxCall py × OutboxReply py)) :
    List (StoredOutboxMessage py) :=
  ls.flatMap (claimedBy m)

/-- A call that published a message: it acknowledged it, or resolved it as
published. -/
def publishes {py : PyVersion} (m : String) : OutboxCall py × OutboxReply py → Bool
  | (.acknowledge messageId .., .held true) => messageId = m
  | (.resolve messageId _ resolution .., .held true) => resolution = .published && messageId = m
  | _ => false

/-- The token and the expiry a claimed message shows. -/
def leaseOf {py : PyVersion} (x : StoredOutboxMessage py) : String × Rat :=
  (x.leaseToken.getD "", timeOf (x.leaseExpiresAt.getD ""))

/-- A claimed message shows a token and an expiry. -/
def ShowsLease {py : PyVersion} (x : StoredOutboxMessage py) : Prop :=
  ∃ token e, x.leaseToken = some token ∧ InRange e ∧ x.leaseExpiresAt = some (momentText e)

/-- What a call did to a message, as its reply reports it. -/
def deedsOf {py : PyVersion} (m : String) :
    OutboxCall py × OutboxReply py → List (Deed String Rat)
  | (.claim .., .claimed ms) =>
    (ms.filter (fun x => x.message.messageId = m)).map fun x => .claimed (leaseOf x).1 (leaseOf x).2
  | (.acknowledge messageId .., .held true) => if messageId = m then [.acknowledged] else []
  | (.reject messageId token _ _ dead _, .held true) =>
    if messageId = m then [.rejected token dead] else []
  | (.resolve messageId _ resolution .., .held true) =>
    if messageId = m then [.resolved resolution.toResolution] else []
  | _ => []

/-- At most one signal of a message's life, which shows what a call did to it. -/
structure Shows (m : String) (l : OutboxCall cfg.py × OutboxReply cfg.py)
    (ss : List (LeasedDelivery.Signal String Rat)) : Prop where
  deeds : ss.filterMap (·.deed?) = deedsOf m l
  short : ss.length ≤ 1

/-- The leases among the deeds of a call are those of the messages it claimed. -/
theorem deedsOf_lease {py : PyVersion} (m : String) (l : OutboxCall py × OutboxReply py) :
    (deedsOf m l).filterMap (·.lease?) = (claimedBy m l).map leaseOf := by
  unfold deedsOf
  split
  · rw [List.filterMap_map]
    exact congrFun (@List.filterMap_eq_map _ _ leaseOf) _
  · split <;> rfl
  · split <;> rfl
  · split <;> rfl
  next hclaim _ _ _ =>
    unfold claimedBy
    split
    · exact absurd rfl (hclaim _ _ _ _ _ _)
    · rfl

/-- The publications among the deeds of a call. -/
theorem deedsOf_publishes {py : PyVersion} (m : String) (l : OutboxCall py × OutboxReply py) :
    (deedsOf m l).countP (·.publishes) = if publishes m l then 1 else 0 := by
  unfold deedsOf
  split
  · rw [List.countP_map]
    exact List.countP_eq_zero.mpr fun x _ => by simp [Deed.publishes]
  · split <;> simp_all [publishes, Deed.publishes]
  · split <;> simp [publishes, Deed.publishes]
  next messageId _ resolution _ _ _ =>
    split
    next h => cases resolution <;> simp [publishes, Deed.publishes, h, AmbiguityResolution.toResolution]
    next h => simp [publishes, h]
  next hack _ hresolve =>
    unfold publishes
    split
    · exact absurd rfl (hack _ _ _ _)
    · exact absurd rfl (hresolve _ _ _ _ _ _)
    · rfl

theorem claimSignals_deeds {m : String} {now : Rat} (ms : List (StoredOutboxMessage cfg.py)) :
    (claimSignals now m ms).filterMap (·.deed?) =
      (ms.filter (fun x => x.message.messageId = m)).map
        fun x => .claimed (leaseOf x).1 (leaseOf x).2 := by
  rw [claimSignals]
  generalize ms.filter (fun x => x.message.messageId = m) = xs
  induction xs with
  | nil => rfl
  | cons x rest ih =>
    rw [List.map_cons, List.filterMap_cons, ih]
    rfl

/-- A claimed message shows a token, and this expiry. -/
def ShowsExpiry {py : PyVersion} (expiry : Int) (x : StoredOutboxMessage py) : Prop :=
  ∃ token, x.leaseToken = some token ∧ x.leaseExpiresAt = some (momentText expiry)

/-- A row of a claim is returned with the lease the claim wrote. -/
theorem claimRow_showsExpiry {workerId suffix : String} {expiry : Int} {row : OutboxRow}
    {x : StoredOutboxMessage cfg.py} {db db' : Db}
    (h : claimRow cfg workerId (momentText expiry) suffix row db = (.ok x, db')) :
    ShowsExpiry expiry x := by
  obtain ⟨-, rfl, updated, hfind, hread⟩ := claimRow_ok.mp h
  obtain ⟨-, hshows⟩ := rowToOutbox_inversion hread
  have hf : ∀ q : OutboxRow,
      (q.leased (leaseTokenOf workerId suffix) (momentText expiry)).messageId = q.messageId :=
    fun _ => rfl
  rw [findOutbox_updateWhere hf] at hfind
  obtain ⟨q, hq, hqu⟩ := Option.map_eq_some_iff.mp hfind
  rw [if_pos (by simpa using (findOutbox_some hq).2)] at hqu
  subst hqu
  exact ⟨_, hshows.leaseToken, hshows.leaseExpiresAt⟩

theorem claimRows_showExpiry {workerId : String} {supply : Nat → String} {expiry : Int}
    {rows : List OutboxRow} {i : Nat} {ms : List (StoredOutboxMessage cfg.py)} {db db' : Db}
    (h : claimRows cfg workerId (momentText expiry) supply i rows db = (.ok ms, db')) :
    ∀ x ∈ ms, ShowsExpiry expiry x := by
  induction rows generalizing i ms db with
  | nil =>
    obtain ⟨rfl, -⟩ := Txn.pure_ok.mp h
    simp
  | cons r rest ih =>
    simp only [claimRows, Txn.bind_ok, Txn.pure_ok] at h
    obtain ⟨x, db₁, hone, xs, _, hrest, rfl, rfl⟩ := h
    intro y hy
    rcases List.mem_cons.mp hy with rfl | hy
    · exact claimRow_showsExpiry hone
    · exact ih hrest y hy

/-- A claim returns a message at most once, each with its lease. -/
theorem claim_distinct {workerId : String} {limit : Int} {lease : Nat} {clock : String}
    {supply : Nat → String} {ms : List (StoredOutboxMessage cfg.py)} {db db' : Db}
    (hi : OutboxInv cfg db)
    (h : claimOutbox cfg workerId limit lease clock supply db = (.ok ms, db')) :
    (ms.map (·.message.messageId)).Nodup ∧ ∀ x ∈ ms, ShowsLease x := by
  obtain ⟨hworker, -, now, hnow, -, hdeadline, hloop⟩ := claimOutbox_ok.mp h
  have hpair := @claimableRows_pairwise _ db (momentText now) limit hi.ids
  obtain ⟨-, -, hids, -⟩ := claimRows_life hi hworker hnow hdeadline hpair (fun r hr => by
    obtain ⟨hmem, hc⟩ := claimableRows_mem hr
    exact ⟨findOutbox_of_mem hi.ids hmem, hc⟩) hloop
  constructor
  · rw [hids]
    exact List.pairwise_map.mpr hpair
  · intro x hx
    obtain ⟨token, htoken, hexpiry⟩ := claimRows_showExpiry hloop x hx
    exact ⟨token, _, htoken, hdeadline, hexpiry⟩

/-! ## The life behind a call -/

/-- A call leases a message at most once, and shows the lease. -/
theorem exec_claims {call : OutboxCall cfg.py} {reply : OutboxReply cfg.py} {db db' : Db}
    (hi : OutboxInv cfg db) (h : call.exec db = (reply, db')) (m : String) :
    (claimedBy m (call, reply)).length ≤ 1 ∧ ∀ x ∈ claimedBy m (call, reply), ShowsLease x := by
  have hnone : claimedBy m (call, reply) = [] →
      (claimedBy m (call, reply)).length ≤ 1 ∧ ∀ x ∈ claimedBy m (call, reply), ShowsLease x := by
    intro h
    simp [h]
  cases call with
  | claim workerId limit lease clock supply =>
    rcases answer_cases h with ⟨ms, hrun, rfl⟩ | ⟨e, -, rfl⟩
    · obtain ⟨hnodup, hshows⟩ := claim_distinct hi hrun
      refine ⟨?_, fun x hx => hshows x (List.mem_of_mem_filter hx)⟩
      have hcount := List.nodup_iff_count_le_one.mp hnodup m
      rwa [List.count, List.countP_map, List.countP_eq_length_filter] at hcount
    · exact hnone rfl
  | _ => exact hnone rfl

/-- **A call is, for every message, at most one step of its life, which shows
what the reply reports.** -/
theorem exec_life {call : OutboxCall cfg.py} {reply : OutboxReply cfg.py} {db db' : Db}
    (hi : OutboxInv cfg db) (h : call.exec db = (reply, db')) :
    OutboxInv cfg db' ∧
      ∀ m, ∃ ss, Run life (view db m) ss (view db' m) ∧ Shows m (call, reply) ss := by
  have hquiet : ∀ e, reply = .raised e → OutboxInv cfg db' ∧
      ∀ m, ∃ ss, Run life (view db m) ss (view db' m) ∧ Shows m (call, reply) ss := by
    rintro e rfl
    have hsame := exec_raised h
    rw [hsame]
    refine ⟨hi, fun m => ⟨[], .done _, ?_, by simp⟩⟩
    cases call <;> rfl
  cases call with
  | enqueue event messages expected =>
    rcases answer_cases h with ⟨r, hrun, rfl⟩ | ⟨e, -, he⟩
    · obtain ⟨hi', hlife⟩ := enqueue_life hi hrun
      refine ⟨hi', fun m => ?_⟩
      obtain ⟨ss, hss, hm⟩ := hlife m
      refine ⟨ss, hm, ?_⟩
      rcases hss with rfl | rfl <;> exact ⟨rfl, by simp⟩
    · exact hquiet e he
  | claim workerId limit lease clock supply =>
    have hone := fun m => (exec_claims hi h m).1
    rcases answer_cases h with ⟨ms, hrun, rfl⟩ | ⟨e, -, he⟩
    · obtain ⟨hi', -, -, now, -, hlife⟩ := claim_life hi hrun
      refine ⟨hi', fun m => ⟨_, hlife m, claimSignals_deeds ms, ?_⟩⟩
      rw [claimSignals, List.length_map]
      exact hone m
    · exact hquiet e he
  | acknowledge messageId token publishedAt clock =>
    rcases answer_cases h with ⟨b, hrun, rfl⟩ | ⟨e, -, he⟩
    · obtain ⟨hi', now, -, hlife⟩ := acknowledge_life hi hrun
      refine ⟨hi', fun m => ⟨_, hlife m, ?_⟩⟩
      cases b with
      | false => exact ⟨by simp [deedsOf], by simp⟩
      | true =>
        by_cases hm : m = messageId
        · simp only [hm, true_and, if_true]
          exact ⟨by simp [deedsOf, Signal.deed?], by simp⟩
        · have hne : messageId ≠ m := fun e => hm e.symm
          exact ⟨by simp [deedsOf, hm, hne], by simp [hm]⟩
    · exact hquiet e he
  | reject messageId token error retryAt dead clock =>
    rcases answer_cases h with ⟨b, hrun, rfl⟩ | ⟨e, -, he⟩
    · obtain ⟨hi', now, -, hlife⟩ := reject_life hi hrun
      refine ⟨hi', fun m => ⟨_, hlife m, ?_⟩⟩
      cases b with
      | false => exact ⟨by simp [deedsOf], by simp⟩
      | true =>
        by_cases hm : m = messageId
        · simp only [hm, true_and, if_true]
          exact ⟨by simp [deedsOf, Signal.deed?], by simp⟩
        · have hne : messageId ≠ m := fun e => hm e.symm
          exact ⟨by simp [deedsOf, hm, hne], by simp [hm]⟩
    · exact hquiet e he
  | mark messageId token reason markedAt now =>
    rcases answer_cases h with ⟨b, hrun, rfl⟩ | ⟨e, -, he⟩
    · obtain ⟨hi', hlife⟩ := mark_life hi hrun
      refine ⟨hi', fun m => ?_⟩
      obtain ⟨ss, hss, hm⟩ := hlife m
      refine ⟨ss, hm, ?_⟩
      rcases hss with rfl | rfl <;> exact ⟨rfl, by simp⟩
    · exact hquiet e he
  | resolve messageId digest resolution resolvedAt retryAt now =>
    rcases answer_cases h with ⟨b, hrun, rfl⟩ | ⟨e, -, he⟩
    · obtain ⟨hi', hlife⟩ := resolve_life hi hrun
      refine ⟨hi', fun m => ⟨_, hlife m, ?_⟩⟩
      cases b with
      | false => exact ⟨by simp [deedsOf], by simp⟩
      | true =>
        by_cases hm : m = messageId
        · simp only [hm, true_and, if_true]
          exact ⟨by simp [deedsOf, Signal.deed?], by simp⟩
        · have hne : messageId ≠ m := fun e => hm e.symm
          exact ⟨by simp [deedsOf, hm, hne], by simp [hm]⟩
    · exact hquiet e he

/-- **A quarantined message is not leased.** -/
theorem exec_quarantined {call : OutboxCall cfg.py} {reply : OutboxReply cfg.py} {db db' : Db}
    (hi : OutboxInv cfg db) (h : call.exec db = (reply, db')) {m : String}
    (hopen : hasOpenAmbiguity db.ambiguities m = true) : claimedBy m (call, reply) = [] := by
  cases call with
  | claim workerId limit lease clock supply =>
    rcases answer_cases h with ⟨ms, hrun, rfl⟩ | ⟨e, -, rfl⟩
    · obtain ⟨-, -, hshut, -⟩ := claim_life hi hrun
      show ms.filter _ = []
      rw [List.filter_eq_nil_iff]
      intro x hx hid
      have hfalse := hshut x hx
      rw [of_decide_eq_true hid, hopen] at hfalse
      exact Bool.noConfusion hfalse
    · rfl
  | _ => rfl

/-! ## The life behind a run -/

/-- **A run is, for every message, a run of its life that shows what the
replies report.** -/
theorem run_life {ls : List (OutboxCall cfg.py × OutboxReply cfg.py)} {db db' : Db}
    (hi : OutboxInv cfg db) (h : Run (outboxSystem cfg) db ls db') :
    OutboxInv cfg db' ∧
      ∀ m, ∃ ss, Run life (view db m) ss (view db' m) ∧
        ss.filterMap (·.claim?) = (claimsOf m ls).map leaseOf ∧
        ss.countP (·.publishes) = ls.countP (publishes m) := by
  induction h with
  | done db => exact ⟨hi, fun m => ⟨[], .done _, rfl, rfl⟩⟩
  | @next s s' s'' l ls hs _ ih =>
    obtain ⟨hi', hlife⟩ := exec_life hi (show l.1.exec s = (l.2, s') from hs)
    obtain ⟨hi'', hlife'⟩ := ih hi'
    refine ⟨hi'', fun m => ?_⟩
    obtain ⟨ss, hrun, hshows⟩ := hlife m
    obtain ⟨ss', hrun', hclaims, hpub⟩ := hlife' m
    refine ⟨ss ++ ss', hrun.append hrun', ?_, ?_⟩
    · rw [List.filterMap_append, ← deeds_lease ss, hshows.deeds, deedsOf_lease, hclaims,
        ← List.map_append]
      rfl
    · rw [List.countP_append, ← deeds_publishes ss, hshows.deeds, deedsOf_publishes, hpub,
        List.countP_cons, Nat.add_comm]

theorem run_claims {ls : List (OutboxCall cfg.py × OutboxReply cfg.py)} {db db' : Db}
    (hi : OutboxInv cfg db) (h : Run (outboxSystem cfg) db ls db') (m : String) :
    ∀ l ∈ ls, (claimedBy m l).length ≤ 1 ∧ ∀ x ∈ claimedBy m l, ShowsLease x := by
  induction h with
  | done db => simp
  | @next s s' s'' l ls hs _ ih =>
    have hexec : l.1.exec s = (l.2, s') := hs
    intro l' hl'
    rcases List.mem_cons.mp hl' with rfl | hl'
    · exact exec_claims hi hexec m
    · exact ih (exec_life hi hexec).1 l' hl'

/-! ## The laws -/

/-- The message, the token and the clock of a call that ends a lease. -/
def OutboxCall.ends {py : PyVersion} : OutboxCall py → Option (String × String × String)
  | .acknowledge messageId token _ clock => some (messageId, token, clock)
  | .reject messageId token _ _ _ clock => some (messageId, token, clock)
  | _ => none

/-- The laws of the outbox after a run from an empty database. -/
structure OutboxLaws (cfg : StoreConfig) (ls : List (OutboxCall cfg.py × OutboxReply cfg.py))
    (db : Db) : Prop where
  distinct : db.outbox.Pairwise (fun a b => a.messageId ≠ b.messageId)
  /-- In flight exactly when both lease columns are set; else neither is. -/
  leased : ∀ r ∈ db.outbox,
    (r.status = .inFlight ↔ r.leaseToken.isSome = true ∧ r.leaseExpiresAt.isSome = true) ∧
    (r.status ≠ .inFlight → r.leaseToken = none ∧ r.leaseExpiresAt = none)
  /-- No later call takes a message out of PUBLISHED or DEAD_LETTER. -/
  finished : ∀ r ∈ db.outbox, r.status = .published ∨ r.status = .deadLetter →
    ∀ more db', Run (outboxSystem cfg) db more db' →
      ∃ r', findOutbox db'.outbox r.messageId = some r' ∧ r'.status = r.status ∧
        r'.attemptCount = r.attemptCount
  /-- A message was claimed as often as it counts, by each call once at most. -/
  attempts : ∀ r ∈ db.outbox, r.attemptCount = (claimsOf r.messageId ls).length
  oneClaim : ∀ l ∈ ls, ∀ m, (claimedBy m l).length ≤ 1
  oneAmbiguity : ∀ m, (db.ambiguities.filter (isOpenFor m)).length ≤ 1
  ambiguous : ∀ a ∈ db.ambiguities, a.resolvedAt = none →
    ∃ r token, findOutbox db.outbox a.messageId = some r ∧ r.status = .inFlight ∧
      r.leaseToken = some token ∧ a.leaseTokenDigest = hexDigest token
  /-- A call ends a lease only under the token of the latest claim, before
  that claim's expiry, and with no open ambiguity. -/
  fenced : ∀ (call : OutboxCall cfg.py) m token clock db', call.ends = some (m, token, clock) →
    call.exec db = (.held true, db') →
    ∃ x now e, (claimsOf m ls).getLast? = some x ∧ x.leaseToken = some token ∧
      x.leaseExpiresAt = some (momentText e) ∧ timestampMoment cfg.py clock "clock" = .ok now ∧
      now < e ∧ db.ambiguities.filter (isOpenFor m) = []
  /-- A call does not claim a message with an open ambiguity. -/
  quarantined : ∀ (call : OutboxCall cfg.py) reply db', call.exec db = (reply, db') →
    ∀ a ∈ db.ambiguities, a.resolvedAt = none → claimedBy a.messageId (call, reply) = []
  publishedOnce : ∀ m, ls.countP (publishes m) ≤ 1

theorem filter_openFor {rows : List AmbiguityRow} {m : String} :
    hasOpenAmbiguity rows m = false ↔ rows.filter (isOpenFor m) = [] := by
  rw [hasOpenAmbiguity, List.any_eq_false, List.filter_eq_nil_iff]

/-- A message viewed as leased is quarantined as it is viewed. -/
theorem view_leased {db : Db} {m token : String} {n : Nat} {e : Rat} {q : Bool}
    (h : view db m = some (.leased n token e q)) : hasOpenAmbiguity db.ambiguities m = q := by
  obtain ⟨r, -, hr⟩ := Option.map_eq_some_iff.mp h
  unfold OutboxRow.delivery at hr
  split at hr
  · exact absurd hr (by simp)
  · injection hr
  · exact absurd hr (by simp)
  · exact absurd hr (by simp)

theorem one_open {db : Db} (hi : OutboxInv cfg db) (m : String) :
    (db.ambiguities.filter (isOpenFor m)).length ≤ 1 := by
  have hpair := hi.oneOpen.filter (isOpenFor m)
  have hmem : ∀ a ∈ db.ambiguities.filter (isOpenFor m), a.messageId = m ∧ a.resolvedAt = none := by
    intro a ha
    simpa [isOpenFor] using (List.mem_filter.mp ha).2
  rcases hl : db.ambiguities.filter (isOpenFor m) with _ | ⟨a, _ | ⟨b, rest⟩⟩
  · simp
  · simp
  · rw [hl] at hpair hmem
    obtain ⟨ha, -⟩ := List.pairwise_cons.mp hpair
    obtain ⟨haid, hanone⟩ := hmem a (by simp)
    obtain ⟨hbid, hbnone⟩ := hmem b (by simp)
    exact absurd ⟨haid.trans hbid.symm, hanone, hbnone⟩ (ha b (by simp))

/-- What a step that ends a lease finds. -/
theorem ended_lease {d d' : Option (Delivery String Rat)} {s : LeasedDelivery.Signal String Rat}
    {token : String} {now : Rat} (h : Run life d [s] d')
    (hs : s = .acknowledged token now ∨ ∃ dead, s = .rejected token dead now) :
    ∃ n e, d = some (.leased n token e false) ∧ now < e := by
  cases h with
  | next hstep _ =>
    rcases hs with rfl | ⟨dead, rfl⟩
    · cases hstep with
      | acknowledge n t e now live => exact ⟨n, e, rfl, live⟩
    · cases hstep with
      | reject n t e now isDead live => exact ⟨n, e, rfl, live⟩

/-- A call that ended a lease found it, live and not quarantined. -/
theorem exec_ends {call : OutboxCall cfg.py} {m token clock : String} {db db' : Db}
    (hi : OutboxInv cfg db) (hends : call.ends = some (m, token, clock))
    (h : call.exec db = (.held true, db')) :
    ∃ now : Int, timestampMoment cfg.py clock "clock" = .ok now ∧
      ∃ n e, view db m = some (.leased n token e false) ∧ SqliteTime.keep now < e := by
  cases call with
  | acknowledge messageId token' publishedAt clock' =>
    simp only [OutboxCall.ends, Option.some.injEq, Prod.mk.injEq] at hends
    obtain ⟨rfl, rfl, rfl⟩ := hends
    rcases answer_cases h with ⟨b, hrun, hb⟩ | ⟨e, -, he⟩
    · obtain rfl : true = b := by injection hb
      obtain ⟨-, now, hnow, hlife⟩ := acknowledge_life hi hrun
      have hone := hlife messageId
      rw [if_pos ⟨rfl, rfl⟩] at hone
      exact ⟨now, hnow, ended_lease hone (.inl rfl)⟩
    · cases he
  | reject messageId token' error retryAt dead clock' =>
    simp only [OutboxCall.ends, Option.some.injEq, Prod.mk.injEq] at hends
    obtain ⟨rfl, rfl, rfl⟩ := hends
    rcases answer_cases h with ⟨b, hrun, hb⟩ | ⟨e, -, he⟩
    · obtain rfl : true = b := by injection hb
      obtain ⟨-, now, hnow, hlife⟩ := reject_life hi hrun
      have hone := hlife messageId
      rw [if_pos ⟨rfl, rfl⟩] at hone
      exact ⟨now, hnow, ended_lease hone (.inr ⟨dead, rfl⟩)⟩
    · cases he
  | _ => exact absurd hends (by simp [OutboxCall.ends])

theorem view_published {db : Db} {m : String} {n : Nat} :
    view db m = some (.published n) ↔
      ∃ r, findOutbox db.outbox m = some r ∧ r.status = .published ∧ r.attemptCount = n := by
  rw [view, Option.map_eq_some_iff]
  refine exists_congr fun r => and_congr_right fun _ => ?_
  unfold OutboxRow.delivery
  cases hs : r.status <;> simp

theorem view_dead {db : Db} {m : String} {n : Nat} :
    view db m = some (.dead n) ↔
      ∃ r, findOutbox db.outbox m = some r ∧ r.status = .deadLetter ∧ r.attemptCount = n := by
  rw [view, Option.map_eq_some_iff]
  refine exists_congr fun r => and_congr_right fun _ => ?_
  unfold OutboxRow.delivery
  cases hs : r.status <;> simp

theorem delivery_attempts (r : OutboxRow) (q : Bool) : (r.delivery q).attempts = r.attemptCount := by
  unfold OutboxRow.delivery
  cases r.status <;> rfl

/-- The attempts of a message's life are those its row counts. -/
theorem view_attempts {db : Db} {r : OutboxRow} {m : String} (hr : findOutbox db.outbox m = some r) :
    ∃ d, view db m = some d ∧ d.attempts = r.attemptCount := by
  refine ⟨_, by rw [view, hr]; rfl, ?_⟩
  exact delivery_attempts r _

/-- A finished message stays finished. -/
theorem run_finished {ls : List (OutboxCall cfg.py × OutboxReply cfg.py)} {db db' : Db}
    {r : OutboxRow} (hi : OutboxInv cfg db) (h : Run (outboxSystem cfg) db ls db')
    (hr : findOutbox db.outbox r.messageId = some r)
    (hs : r.status = .published ∨ r.status = .deadLetter) :
    ∃ r', findOutbox db'.outbox r.messageId = some r' ∧ r'.status = r.status ∧
      r'.attemptCount = r.attemptCount := by
  obtain ⟨-, hlife⟩ := run_life hi h
  obtain ⟨ss, hrun, -, -⟩ := hlife r.messageId
  rcases hs with hs | hs
  · rw [view_published.mpr ⟨r, hr, hs, rfl⟩] at hrun
    obtain ⟨r', hr', hs', hn⟩ := view_published.mp (Run.published_stays hrun).2
    exact ⟨r', hr', hs'.trans hs.symm, hn⟩
  · rw [view_dead.mpr ⟨r, hr, hs, rfl⟩] at hrun
    obtain ⟨r', hr', hs', hn⟩ := view_dead.mp (Run.dead_stays hrun).2
    exact ⟨r', hr', hs'.trans hs.symm, hn⟩

/-- The row of a message is in flight exactly when it holds a lease. -/
theorem leased_iff {r : OutboxRow} (h : OutboxRowOk cfg r) :
    r.status = .inFlight ↔ r.leaseToken.isSome = true ∧ r.leaseExpiresAt.isSome = true := by
  constructor
  · intro hs
    obtain ⟨token, expiry, hlease⟩ := h.leased hs
    rw [hlease.holds, hlease.expires]
    exact ⟨rfl, rfl⟩
  · rintro ⟨htoken, -⟩
    by_cases hs : r.status = .inFlight
    · exact hs
    · rw [(h.unleased hs).1] at htoken
      exact absurd htoken (by simp)

/-- **The outbox keeps its laws over every run**, whoever calls what and
whatever the clocks show. -/
theorem outbox_state_machine {ls : List (OutboxCall cfg.py × OutboxReply cfg.py)} {db : Db}
    (h : Run (outboxSystem cfg) Db.empty ls db) : OutboxLaws cfg ls db := by
  obtain ⟨hi, hlife⟩ := run_life (outboxInv_empty cfg) h
  have hclaims := run_claims (outboxInv_empty cfg) h
  refine ⟨hi.ids, ?_, ?_, ?_, ?_, one_open hi, hi.openLeased, ?_, ?_, ?_⟩
  · intro r hr
    exact ⟨leased_iff (hi.rows r hr), (hi.rows r hr).unleased⟩
  · intro r hr hs more db' hmore
    exact run_finished hi hmore (findOutbox_of_mem hi.ids hr) hs
  · intro r hr
    obtain ⟨ss, hrun, hshown, -⟩ := hlife r.messageId
    obtain ⟨d, hd, hn⟩ := view_attempts (findOutbox_of_mem hi.ids hr)
    rw [hd] at hrun
    rw [← hn, ← attempts_eq hrun, countP_isClaim, hshown, List.length_map]
  · intro l hl m
    exact (hclaims m l hl).1
  · intro call m token clock db' hends hexec
    obtain ⟨now, hnow, n, e, hview, hlive⟩ := exec_ends hi hends hexec
    obtain ⟨ss, hrun, hshown, -⟩ := hlife m
    rw [hview] at hrun
    have hlast := leased_lastClaim hrun
    rw [lastClaim_eq, hshown, List.getLast?_map] at hlast
    obtain ⟨x, hx, hlease⟩ := Option.map_eq_some_iff.mp hlast
    obtain ⟨l, hl, hxl⟩ := List.mem_flatMap.mp (List.mem_of_getLast? hx)
    obtain ⟨token', e', htoken, hin, hexpiry⟩ := (hclaims m l hl).2 x hxl
    rw [leaseOf, htoken, hexpiry, Option.getD_some, Option.getD_some, timeOf_momentText hin,
      Prod.mk.injEq] at hlease
    obtain ⟨rfl, rfl⟩ := hlease
    exact ⟨x, now, e', hx, htoken, hexpiry, hnow, Int.cast_lt.mp (SqliteTime.lt_of_keep hlive),
      filter_openFor.mp (view_leased hview)⟩
  · intro call reply db' hexec a ha hnone
    exact exec_quarantined hi hexec (hasOpenAmbiguity_iff.mpr ⟨a, ha, rfl, hnone⟩)
  · intro m
    obtain ⟨ss, hrun, -, hpub⟩ := hlife m
    rw [← hpub, published_count hrun]
    split <;> omega

/-! ## A delivery -/

/-- The labels of a list of calls, one after the other. -/
def traceOf : List (OutboxCall cfg.py) → Db → List (OutboxCall cfg.py × OutboxReply cfg.py)
  | [], _ => []
  | call :: rest, db => (call, (call.exec db).1) :: traceOf rest (call.exec db).2

/-- The database they leave. -/
def stateAfter : List (OutboxCall cfg.py) → Db → Db
  | [], db => db
  | call :: rest, db => stateAfter rest (call.exec db).2

theorem run_calls (calls : List (OutboxCall cfg.py)) (db : Db) :
    Run (outboxSystem cfg) db (traceOf calls db) (stateAfter calls db) := by
  induction calls generalizing db with
  | nil => exact .done db
  | cons call rest ih => exact .next rfl (ih _)

end Runs

section Delivered

/-- SQLite as it documents its dates. -/
local instance deliveredTime : SqliteTime := .milliseconds

/-- A store on Python 3.11. -/
def storeConfig : StoreConfig := ⟨1048576, .py311⟩

def sampleEvent : DomainEvent :=
  ⟨"s", "note", .dict [], "a", "e1", "2024-01-01T00:00:00Z", none, none, none, by decide⟩

def sampleMessage : OutboxMessage storeConfig.py :=
  ⟨"d", .dict [], .dict [], "m1", "m1", "2024-01-01T00:00:00Z", "2024-01-01T00:00:00Z", by
    decide +kernel⟩

/-- A message whose first worker loses its lease, and whose second publishes it. -/
def deliveredCalls : List (OutboxCall storeConfig.py) :=
  [.enqueue sampleEvent [sampleMessage] none,
   .claim "w" 10 1000000 "2024-01-01T00:00:00Z" (fun _ => "x"),
   .claim "v" 10 1000000 "2024-01-01T00:00:05Z" (fun _ => "y"),
   .acknowledge "m1" "w:lease_x" none "2024-01-01T00:00:05Z",
   .acknowledge "m1" "v:lease_y" none "2024-01-01T00:00:05Z"]

theorem deliveredCalls_row :
    (@stateAfter _ storeConfig deliveredCalls Db.empty).outbox.map
      (fun r => (r.messageId, r.status, r.attemptCount)) = [("m1", .published, 2)] := by
  decide +kernel

/-- The message of that run was claimed twice and published once. -/
theorem outbox_state_machine_delivered :
    OutboxLaws storeConfig (traceOf deliveredCalls Db.empty) (stateAfter deliveredCalls Db.empty) ∧
      (@stateAfter _ storeConfig deliveredCalls Db.empty).outbox.map
        (fun r => (r.messageId, r.status, r.attemptCount)) = [("m1", .published, 2)] :=
  ⟨outbox_state_machine (run_calls deliveredCalls Db.empty), deliveredCalls_row⟩

end Delivered

end QuantumEntanglement.Outbox
