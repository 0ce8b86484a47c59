import QuantumEntanglement.Publisher.Fleet

/-
  Accounting — what the counters of a publisher add up to

  A cycle that ends normally counts its messages as claimed together with
  their outcomes. A cancelled cycle counts nothing, but each attempt whose
  connector call or acknowledgement was cancelled has counted itself as
  unconfirmed by then.

  What is proved:
    1. `step_accounts` — one event of an attempt moves the counters by what it
       weighs; an outcome weighs one (`returned_weight`).
    2. `accounting` — between cycles, the outcomes exceed the claimed messages
       by the interrupted attempts.
    3. `accounting_balances_iff` — so they are equal exactly when none was.
-/

namespace QuantumEntanglement.Publisher

open TransitionSystem Outbox IsoTime

section Runs

variable [SqliteTime] {cfg : StoreConfig} {configs : Nat → PublisherConfig}

/-! ## One attempt -/

theorem Unconfirmed.outcome_weight (why : Unconfirmed) (persisted : Bool) :
    (why.outcome persisted).weight = 1 := by
  cases why <;> rfl

theorem rejectOutcome_weight {py : PyVersion} (error : AttemptError) (dead : Bool)
    (reply : OutboxReply py) : (rejectOutcome error dead reply).weight = 1 := by
  have hbare : ∀ o : AttemptOutcome,
      (if error = .leaseBudgetExhausted then { o with leaseBudgetRejected := 1 } else o).weight =
        o.weight := by
    intro o
    split <;> rfl
  unfold rejectOutcome
  rw [hbare]
  split <;> rfl

/-- A phase that holds an outcome of weight one, if it holds one. -/
def Phase.WeighsOne (phase : Phase) : Prop :=
  ∀ o, phase = .returned o → o.weight = 1

/-- An attempt that will still count itself as unconfirmed. -/
def Attempt.isInterrupted {py : PyVersion} (a : Attempt py) : Bool :=
  a.phase = .persistingBeforeCancel

theorem afterCheck_notReturned {py : PyVersion} (pub : PublisherConfig) (deadline : Option String)
    (clock : ClockReading) :
    (afterCheck py pub deadline clock).WeighsOne ∧
      afterCheck py pub deadline clock ≠ .persistingBeforeCancel := by
  unfold afterCheck Phase.WeighsOne
  split <;> simp

theorem afterAnswer_notReturned {py : PyVersion} (deadline : Option String)
    (answer : ConnectorAnswer) (clock : ClockReading) :
    (afterAnswer py deadline answer clock).WeighsOne ∧
      afterAnswer py deadline answer clock ≠ .persistingBeforeCancel := by
  unfold afterAnswer Phase.WeighsOne
  split
  · simp
  · split <;> simp

theorem afterAck_weighsOne {py : PyVersion} (reply : OutboxReply py) :
    (afterAck reply).WeighsOne ∧ afterAck reply ≠ .persistingBeforeCancel := by
  unfold afterAck Phase.WeighsOne
  split
  · refine ⟨fun o ho => ?_, by simp⟩
    rw [← Phase.returned.inj ho]
    rfl
  · simp
  · simp

/-- How many attempts a report interrupts. -/
def Report.interruptions {py : PyVersion} : Report py → Nat
  | .interrupted => 1
  | _ => 0

theorem markReport_interruptions {py : PyVersion} (m : String) (reply : OutboxReply py) :
    (markReport m reply).interruptions = 0 := by
  unfold markReport
  split <;> rfl

/-- An attempt counts one while it is interrupted. -/
def Phase.owes (phase : Phase) : Nat := if phase = .persistingBeforeCancel then 1 else 0

/-- **One event moves the counters by what the attempt stops owing.** -/
theorem step_accounts {pub : PublisherConfig} {a : Attempt cfg.py} {counters : Counters} {db : Db}
    {event : AttemptEvent} {out : Stepped cfg.py} (h : AttemptStep pub a counters db event out) :
    out.phase.WeighsOne ∧ out.counters.claimed = counters.claimed ∧
      out.counters.outcomes + out.phase.owes =
        counters.outcomes + a.phase.owes + out.report.interruptions := by
  have hplain : ∀ {q : Phase} (phase : Phase) (hp : a.phase = q),
      phase ≠ .persistingBeforeCancel → q ≠ .persistingBeforeCancel →
      counters.outcomes + phase.owes = counters.outcomes + a.phase.owes + 0 := by
    intro q phase hp h₁ h₂
    rw [Phase.owes, if_neg h₁, Phase.owes, if_neg (by rw [hp]; exact h₂)]
  cases h with
  | run hp clock =>
    obtain ⟨hw, hne⟩ := @afterCheck_notReturned _ cfg.py pub a.stored.leaseExpiresAt clock
    exact ⟨hw, rfl, hplain _ hp hne (by simp)⟩
  | dropped hp => exact ⟨by simp [Phase.WeighsOne], rfl, hplain _ hp (by simp) (by simp)⟩
  | start hp => exact ⟨by simp [Phase.WeighsOne], rfl, hplain _ hp (by simp) (by simp)⟩
  | settled hp answer clock =>
    obtain ⟨hw, hne⟩ := @afterAnswer_notReturned _ cfg.py a.stored.leaseExpiresAt answer clock
    exact ⟨hw, rfl, hplain _ hp hne (by simp)⟩
  | deadline hp => exact ⟨by simp [Phase.WeighsOne], rfl, hplain _ hp (by simp) (by simp)⟩
  | interrupted hp =>
    refine ⟨by simp [Phase.WeighsOne], rfl, ?_⟩
    rw [hp]
    rfl
  | ackCancelled hp fault clock =>
    refine ⟨by simp [Phase.WeighsOne], rfl, ?_⟩
    rw [hp]
    rfl
  | @ack publishedAt hp fault clock reply db' hrun =>
    obtain ⟨hw, hne⟩ := afterAck_weighsOne reply
    exact ⟨hw, rfl, hplain _ hp hne (by simp)⟩
  | markCancelled hp fault clock now =>
    exact ⟨by simp [Phase.WeighsOne], rfl, hplain _ hp (by simp) (by simp)⟩
  | @mark why hp fault clock now reply db' hrun =>
    refine ⟨fun o ho => ?_, rfl, ?_⟩
    · rw [← Phase.returned.inj ho]
      exact why.outcome_weight _
    · rw [markReport_interruptions]
      exact hplain _ hp (by simp) (by simp)
  | @markBeforeCancel hp fault clock now cancelled reply db' hrun =>
    refine ⟨by simp [Phase.WeighsOne], rfl, ?_⟩
    rw [markReport_interruptions, hp]
    rfl
  | rejectCancelled hp fault clock retryAt rendered =>
    exact ⟨by simp [Phase.WeighsOne], rfl, hplain _ hp (by simp) (by simp)⟩
  | @reject error hp fault clock retryAt rendered reply db' hrun =>
    refine ⟨fun o ho => ?_, rfl, hplain _ hp (by simp) (by simp)⟩
    rw [← Phase.returned.inj ho]
    exact rejectOutcome_weight _ _ _

/-! ## One publisher -/

/-- The interrupted attempts of a publisher that have not counted themselves. -/
def OutboxPublisher.owed {py : PyVersion} (me : OutboxPublisher py) : Nat :=
  match me.cycle with
  | none => 0
  | some c => c.attempts.countP (·.isInterrupted)

/-- The books of a publisher after `k` interruptions. -/
structure Accounts {py : PyVersion} (me : OutboxPublisher py) (k : Nat) : Prop where
  balance : me.counters.claimed + k = me.counters.outcomes + me.owed
  weights : ∀ c, me.cycle = some c → ∀ a ∈ c.attempts, a.phase.WeighsOne

theorem accounts_fresh {py : PyVersion} : Accounts (OutboxPublisher.fresh : OutboxPublisher py) 0 :=
  ⟨rfl, by simp [OutboxPublisher.fresh]⟩

/-- A batch with no outcomes moves neither side. -/
theorem recordBatch_neutral (c : Counters) (batch : PublishBatchStats) (hclaimed : batch.claimed = 0)
    (hout : batch.published + batch.publishFailures + batch.acceptedUnconfirmed = 0) :
    (c.recordBatch batch).claimed = c.claimed ∧ (c.recordBatch batch).outcomes = c.outcomes := by
  simp only [Counters.recordBatch, Counters.outcomes]
  omega

/-- A publisher whose counters changed on neither side and whose cycle is idle. -/
theorem Accounts.idle {py : PyVersion} {me me' : OutboxPublisher py} {k : Nat} (h : Accounts me k)
    (howed : me.owed = 0) (hcycle : me'.cycle = none)
    (hc : me'.counters.claimed = me.counters.claimed ∧
      me'.counters.outcomes = me.counters.outcomes) : Accounts me' k := by
  refine ⟨?_, by simp [hcycle]⟩
  have hbalance := h.balance
  have howed' : me'.owed = 0 := by simp [OutboxPublisher.owed, hcycle]
  rw [hc.1, hc.2, howed', hbalance, howed]

theorem owed_idle {py : PyVersion} {me : OutboxPublisher py} (h : me.cycle = none) : me.owed = 0 := by
  simp [OutboxPublisher.owed, h]

/-- The answer to a claim counts no message yet. -/
theorem afterClaim_accounts {py : PyVersion} {me : OutboxPublisher py} {k : Nat}
    (h : Accounts me k) (hidle : me.cycle = none) (reply : OutboxReply py) :
    Accounts (afterClaim me reply) k := by
  have howed := owed_idle hidle
  unfold afterClaim
  split
  next => exact h.idle howed hidle (recordBatch_neutral _ _ rfl rfl)
  next ms _ =>
    have hzero : (ms.map (⟨·, .created⟩ : StoredOutboxMessage py → Attempt py)).countP
        (·.isInterrupted) = 0 := by
      rw [List.countP_map, List.countP_eq_zero]
      intro x _
      simp [Attempt.isInterrupted]
    refine ⟨?_, fun c hc a ha => ?_⟩
    · have hbalance := h.balance
      rw [howed] at hbalance
      show me.counters.claimed + k = me.counters.outcomes + _
      rw [hbalance]
      exact congrArg (me.counters.outcomes + ·) hzero.symm
    · rw [← Option.some.inj hc] at ha
      obtain ⟨x, -, rfl⟩ := List.mem_map.mp ha
      simp [Phase.WeighsOne]
  next => exact h.idle howed hidle (recordBatch_neutral _ _ rfl rfl)

/-- One event keeps the books, with what it interrupts. -/
theorem stepAttempt_accounts {pub : PublisherConfig} {s s' : Fleet cfg.py} {p i : Nat}
    {event : AttemptEvent} {r : Report cfg.py} {k : Nat} (h : Accounts (s.publishers p) k)
    (hstep : stepAttempt pub s p i event = some (s', r)) :
    Accounts (s'.publishers p) (k + r.interruptions) := by
  obtain ⟨c, a, out, hcycle, ha, hcase, rfl, rfl⟩ := stepAttempt_cases hstep
  obtain ⟨hw, hclaimed, hmoved⟩ := step_accounts hcase
  obtain ⟨hi, hget⟩ := List.getElem?_eq_some_iff.mp ha
  rw [Fleet.put_self]
  refine ⟨?_, fun c' hc' b hb => ?_⟩
  · have hbalance := h.balance
    have howed : (s.publishers p).owed = c.attempts.countP (·.isInterrupted) := by
      simp [OutboxPublisher.owed, hcycle]
    have hset := List.countP_set (p := fun b : Attempt cfg.py => b.isInterrupted) hi
      (a := { a with phase := out.phase })
    have hle : (if a.isInterrupted = true then 1 else 0) ≤ c.attempts.countP (·.isInterrupted) := by
      split
      next hint => exact List.countP_pos_iff.mpr ⟨a, List.mem_of_getElem? ha, hint⟩
      next => exact Nat.zero_le _
    have hbefore : (if a.isInterrupted = true then 1 else 0) = a.phase.owes := by
      simp [Attempt.isInterrupted, Phase.owes]
    have hafter : (if ({ a with phase := out.phase } : Attempt cfg.py).isInterrupted = true
        then 1 else 0) = out.phase.owes := by
      simp [Attempt.isInterrupted, Phase.owes]
    rw [hget, hbefore, hafter] at hset
    rw [hbefore] at hle
    show out.counters.claimed + (k + out.report.interruptions) = out.counters.outcomes +
      (c.attempts.set i { a with phase := out.phase }).countP (·.isInterrupted)
    omega
  · rw [← Option.some.inj hc'] at hb
    rcases List.mem_or_eq_of_mem_set hb with hb | rfl
    · exact h.weights c hcycle b hb
    · exact hw

/-- The attempts of a batch that is counted all returned, and owe nothing. -/
theorem returned_all {py : PyVersion} {attempts : List (Attempt py)}
    (h : attempts.all (·.outcome?.isSome) = true) :
    attempts.countP (·.isInterrupted) = 0 ∧
      (attempts.filterMap (·.outcome?)).length = attempts.length := by
  rw [List.all_eq_true] at h
  refine ⟨?_, ?_⟩
  · rw [List.countP_eq_zero]
    intro a ha hint
    have hsome := h a ha
    rw [Attempt.isInterrupted, decide_eq_true_eq] at hint
    simp [Attempt.outcome?, hint] at hsome
  · rw [List.length_filterMap_eq_countP, List.countP_eq_length]
    exact h

theorem done_owes_nothing {py : PyVersion} {attempts : List (Attempt py)}
    (h : attempts.all (·.isDone) = true) : attempts.countP (·.isInterrupted) = 0 := by
  rw [List.all_eq_true] at h
  rw [List.countP_eq_zero]
  intro a ha hint
  have hdone := h a ha
  rw [Attempt.isInterrupted, decide_eq_true_eq] at hint
  simp [Attempt.isDone, hint] at hdone

/-- The end of a cycle keeps the books: a counted batch adds as many outcomes
as messages. -/
theorem finishCycle_accounts {s s' : Fleet cfg.py} {p : Nat} {r : Report cfg.py} {k : Nat}
    (h : Accounts (s.publishers p) k) (hstep : finishCycle s p = some (s', r)) :
    Accounts (s'.publishers p) k := by
  obtain ⟨c, hcycle, hdone, -, ⟨hall, rfl⟩ | rfl⟩ := finishCycle_cases hstep
  · rw [Fleet.put_self]
    obtain ⟨-, hlength⟩ := returned_all hall
    have howed : (s.publishers p).owed = 0 := by
      simp only [OutboxPublisher.owed, hcycle]
      exact done_owes_nothing hdone
    have hbatch := batchOf_outcomes (c.attempts.filterMap (·.outcome?))
    rw [total_weight] at hbatch
    · refine ⟨?_, by simp⟩
      have hbalance := h.balance
      simp only [Counters.outcomes] at hbalance
      show (s.publishers p).counters.claimed + (c.attempts.filterMap (·.outcome?)).length + k =
        (s.publishers p).counters.published + _ + ((s.publishers p).counters.publishFailures + _) +
          ((s.publishers p).counters.acceptedUnconfirmed + _) + 0
      omega
    · intro o ho
      obtain ⟨a, ha, hao⟩ := List.mem_filterMap.mp ho
      refine h.weights c hcycle a ha o ?_
      unfold Attempt.outcome? at hao
      split at hao
      next hphase => rw [hphase, Option.some.inj hao]
      next => exact absurd hao (by simp)
  · rw [Fleet.put_self]
    refine h.idle ?_ rfl ⟨rfl, rfl⟩
    simp only [OutboxPublisher.owed, hcycle]
    exact done_owes_nothing hdone

/-! ## The fleet -/

/-- The interruptions of one publisher since it last started. -/
def interruptionStep {py : PyVersion} (p : Nat) (k : Nat) : Action py × Report py → Nat
  | (.crash q, _) => if q = p then 0 else k
  | (.attempt q _ _, r) => if q = p then k + r.interruptions else k
  | _ => k

def interruptions {py : PyVersion} (p : Nat) (ls : List (Action py × Report py)) : Nat :=
  ls.foldl (interruptionStep p) 0

/-- **One step of the fleet keeps the books of every publisher.** -/
theorem exec_accounts {s s' : Fleet cfg.py} {action : Action cfg.py} {r : Report cfg.py} {p k : Nat}
    (h : Accounts (s.publishers p) k) (hstep : action.exec configs s = some (s', r)) :
    Accounts (s'.publishers p) (interruptionStep p k (action, r)) := by
  have hclient : ∀ {call : OutboxCall cfg.py} {report : OutboxReply cfg.py → Report cfg.py},
      clientStep s call report = some (s', r) → Accounts (s'.publishers p) k := by
    intro call report hrun
    rw [clientStep, Option.some.injEq, Prod.mk.injEq] at hrun
    rw [← hrun.1]
    exact h
  cases action with
  | enqueue event messages expected =>
    unfold Action.exec at hstep
    exact hclient hstep
  | resolve messageId digest resolution resolvedAt retryAt now =>
    unfold Action.exec at hstep
    exact hclient hstep
  | claim q clock supply fault cancelled =>
    show Accounts _ k
    obtain ⟨hidle, hcase⟩ := claimBatch_cases hstep
    by_cases hp : p = q
    · subst hp
      rcases hcase with ⟨-, rfl⟩ | ⟨call, -, -, -, rfl⟩
      · rw [Fleet.put_self]
        exact h.idle (owed_idle hidle) hidle (recordBatch_neutral _ _ rfl rfl)
      · rw [Fleet.put_self]
        cases cancelled with
        | true => exact h.idle (owed_idle hidle) hidle ⟨rfl, rfl⟩
        | false => exact afterClaim_accounts h hidle _
    · rcases hcase with ⟨-, rfl⟩ | ⟨call, -, -, -, rfl⟩
      · rwa [Fleet.put_other _ _ hp]
      · rw [Fleet.put_other _ _ hp]
        exact h
  | attempt q i event =>
    by_cases hp : p = q
    · subst hp
      show Accounts _ (if p = p then _ else _)
      rw [if_pos rfl]
      exact stepAttempt_accounts h hstep
    · show Accounts _ (if q = p then _ else _)
      rw [if_neg (fun e => hp e.symm)]
      obtain ⟨c, a, out, -, -, -, -, rfl⟩ := stepAttempt_cases hstep
      rw [Fleet.put_other _ _ hp]
      exact h
  | cancelCycle q =>
    show Accounts _ k
    by_cases hp : p = q
    · subst hp
      unfold Action.exec at hstep
      cases hcycle : (s.publishers p).cycle with
      | none =>
        simp only [hcycle, Option.some.injEq, Prod.mk.injEq] at hstep
        rw [← hstep.1, Fleet.put_self]
        exact h.idle (owed_idle hcycle) rfl ⟨rfl, rfl⟩
      | some c =>
        simp only [hcycle, Option.some.injEq, Prod.mk.injEq] at hstep
        rw [← hstep.1, Fleet.put_self]
        refine ⟨?_, fun c' hc' a ha => ?_⟩
        · have hbalance := h.balance
          rwa [OutboxPublisher.owed, hcycle] at hbalance
        · rw [← Option.some.inj hc'] at ha
          exact h.weights c hcycle a ha
    · unfold Action.exec at hstep
      cases hcycle : (s.publishers q).cycle with
      | none =>
        simp only [hcycle, Option.some.injEq, Prod.mk.injEq] at hstep
        rw [← hstep.1, Fleet.put_other _ _ hp]
        exact h
      | some c =>
        simp only [hcycle, Option.some.injEq, Prod.mk.injEq] at hstep
        rw [← hstep.1, Fleet.put_other _ _ hp]
        exact h
  | finish q =>
    show Accounts _ k
    by_cases hp : p = q
    · subst hp
      exact finishCycle_accounts h hstep
    · obtain ⟨c, -, -, -, ⟨-, rfl⟩ | rfl⟩ := finishCycle_cases hstep
      · rwa [Fleet.put_other _ _ hp]
      · rwa [Fleet.put_other _ _ hp]
  | callbackDone q =>
    show Accounts _ k
    unfold Action.exec at hstep
    simp only at hstep
    split at hstep
    next => exact absurd hstep (by simp)
    next =>
      simp only [Option.some.injEq, Prod.mk.injEq] at hstep
      rw [← hstep.1]
      by_cases hp : p = q
      · subst hp
        rw [Fleet.put_self]
        exact ⟨h.balance, h.weights⟩
      · rwa [Fleet.put_other _ _ hp]
  | crash q =>
    unfold Action.exec at hstep
    simp only [Option.some.injEq, Prod.mk.injEq] at hstep
    rw [← hstep.1]
    by_cases hp : p = q
    · subst hp
      show Accounts _ (if p = p then 0 else k)
      rw [Fleet.put_self, if_pos rfl]
      exact accounts_fresh
    · show Accounts _ (if q = p then 0 else k)
      rwa [Fleet.put_other _ _ hp, if_neg (fun e => hp e.symm)]

/-- The books of every publisher, over every run. -/
theorem run_accounts {ls : List (Action cfg.py × Report cfg.py)} {s : Fleet cfg.py}
    (h : Run (fleetSystem cfg configs) Fleet.start ls s) (p : Nat) :
    Accounts (s.publishers p) (interruptions p ls) := by
  refine Run.traced (I := fun ls s => Accounts (s.publishers p) (interruptions p ls))
    (fun before s l s' hi hs => ?_) h accounts_fresh
  have hnext : interruptions p (before ++ [l]) =
      interruptionStep p (interruptions p before) (l.1, l.2) := by
    simp [interruptions, List.foldl_append]
  rw [hnext]
  exact exec_accounts hi hs

/-- **Between cycles, the outcomes exceed the claimed messages by the attempts
whose connector call or acknowledgement was cancelled.** -/
theorem accounting {ls : List (Action cfg.py × Report cfg.py)} {s : Fleet cfg.py}
    (h : Run (fleetSystem cfg configs) Fleet.start ls s) {p : Nat}
    (hidle : (s.publishers p).cycle = none) :
    (s.publishers p).counters.outcomes =
      (s.publishers p).counters.claimed + interruptions p ls := by
  have hbalance := (run_accounts h p).balance
  rw [owed_idle hidle] at hbalance
  exact hbalance.symm

/-- **The counters balance between cycles exactly when no attempt was cancelled
while its connector call or its acknowledgement was pending.** -/
theorem accounting_balances_iff {ls : List (Action cfg.py × Report cfg.py)} {s : Fleet cfg.py}
    (h : Run (fleetSystem cfg configs) Fleet.start ls s) {p : Nat}
    (hidle : (s.publishers p).cycle = none) :
    (s.publishers p).counters.claimed =
        (s.publishers p).counters.published + (s.publishers p).counters.publishFailures +
          (s.publishers p).counters.acceptedUnconfirmed ↔
      interruptions p ls = 0 := by
  have hlaw := accounting h hidle
  rw [Counters.outcomes] at hlaw
  omega

end Runs

section Books

/-- SQLite as it documents its dates. -/
local instance booksTime : SqliteTime := .milliseconds

/-- A message that is claimed, accepted and acknowledged. -/
def publishedActions : List (Action storeConfig.py) :=
  [.enqueue sampleEvent [sampleMessage] none,
   .claim 0 "2024-01-01T00:00:00Z" (fun _ => "x") .none false,
   .attempt 0 0 (.run (.aware sampleNow)),
   .attempt 0 0 .start,
   .attempt 0 0 (.settled (.receipt ⟨.accepted, some "r", none⟩) (.aware sampleNow)),
   .attempt 0 0 (.acknowledged .none "2024-01-01T00:00:01Z" false),
   .finish 0]

/-- The same message, with the cycle cancelled during the connector call. -/
def cancelledActions : List (Action storeConfig.py) :=
  [.enqueue sampleEvent [sampleMessage] none,
   .claim 0 "2024-01-01T00:00:00Z" (fun _ => "x") .none false,
   .attempt 0 0 (.run (.aware sampleNow)),
   .attempt 0 0 .start,
   .cancelCycle 0,
   .attempt 0 0 .cancel,
   .attempt 0 0 (.marked .none (.aware sampleNow) sampleNow true),
   .finish 0]

/-- Whether the first publisher is idle, and what it counted. -/
def booksOf (actions : List (Action storeConfig.py)) : Option (Bool × Nat × Nat × Nat × Nat) :=
  (@runActions _ storeConfig (fun _ => sampleConfig) actions .start).map fun out =>
    let me := out.2.publishers 0
    (me.cycle.isNone, me.counters.claimed, me.counters.published, me.counters.publishFailures,
      me.counters.acceptedUnconfirmed)

theorem publishedActions_books : booksOf publishedActions = some (true, 1, 1, 0, 0) := by
  decide +kernel

theorem cancelledActions_books : booksOf cancelledActions = some (true, 0, 0, 0, 1) := by
  decide +kernel

/-- The run behind such books. -/
theorem booksOf_run {actions : List (Action storeConfig.py)} {claimed published failures unconfirmed : Nat}
    (h : booksOf actions = some (true, claimed, published, failures, unconfirmed)) :
    ∃ ls s, Run (fleetSystem storeConfig fun _ => sampleConfig) Fleet.start ls s ∧
      (s.publishers 0).cycle = none ∧ (s.publishers 0).counters.claimed = claimed ∧
      (s.publishers 0).counters.published = published ∧
      (s.publishers 0).counters.publishFailures = failures ∧
      (s.publishers 0).counters.acceptedUnconfirmed = unconfirmed := by
  obtain ⟨⟨ls, s⟩, hrun, hbooks⟩ := Option.map_eq_some_iff.mp h
  simp only [Prod.mk.injEq] at hbooks
  obtain ⟨hidle, hc, hp, hf, hu⟩ := hbooks
  exact ⟨ls, s, runActions_run hrun, Option.isNone_iff_eq_none.mp hidle, hc, hp, hf, hu⟩

/-- **An outcome that is counted for a message that is not.** -/
theorem cancelled_uncounted :
    ∃ ls s, Run (fleetSystem storeConfig fun _ => sampleConfig) Fleet.start ls s ∧
      (s.publishers 0).cycle = none ∧
      (s.publishers 0).counters.claimed = 0 ∧ (s.publishers 0).counters.acceptedUnconfirmed = 1 ∧
      (s.publishers 0).counters.claimed ≠
        (s.publishers 0).counters.published + (s.publishers 0).counters.publishFailures +
          (s.publishers 0).counters.acceptedUnconfirmed := by
  obtain ⟨ls, s, hrun, hidle, hc, hp, hf, hu⟩ := booksOf_run cancelledActions_books
  refine ⟨ls, s, hrun, hidle, hc, hu, ?_⟩
  rw [hc, hp, hf, hu]
  decide

/-- The publisher of an ordinary delivery was never interrupted, as its balance shows. -/
theorem accounting_balances_iff_published :
    ∃ ls s, Run (fleetSystem storeConfig fun _ => sampleConfig) Fleet.start ls s ∧
      (s.publishers 0).counters.claimed = 1 ∧ (s.publishers 0).counters.published = 1 ∧
      interruptions 0 ls = 0 := by
  obtain ⟨ls, s, hrun, hidle, hc, hp, hf, hu⟩ := booksOf_run publishedActions_books
  refine ⟨ls, s, hrun, hc, hp, (accounting_balances_iff hrun hidle).mp ?_⟩
  rw [hc, hp, hf, hu]

end Books

end QuantumEntanglement.Publisher
