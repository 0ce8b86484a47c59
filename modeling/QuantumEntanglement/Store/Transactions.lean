import QuantumEntanglement.Lib.FaultyConnection
import QuantumEntanglement.Store.Errors

/-
  The event store's transaction wrapper — what a failed call reports

  A store instance holds one connection and a flag that quarantines it. Every
  write runs inside `transactionInner`: BEGIN, the body, COMMIT, and where one
  of them raises, the question whether a transaction is open and a ROLLBACK.
  A classified transaction says how it ended: rolled back, or ambiguous, and
  then the instance is poisoned. An unclassified one raises what the driver
  raised.

  What is proved, of every pattern of failures and every body:
    1. `transactionInner_ok` — a result was reported only where COMMIT was
       acknowledged.
    2. `transactionInner_classified` — a classified transaction that reports a
       definite failure moved nothing, and one that reports an unknown outcome
       poisoned the store.
    3. `poisoned_refuses` — a poisoned store refuses every call but `close`,
       and leaves its connection alone.
    4. `transaction_outcomes` — these three together, for the calls built on
       classified transactions.

  Correspondence (Python ↔ Lean), of `store`:
    `_EventStoreAdmissionTransactionSignal`        ↔ `Signal.rolledBack`, `Signal.ambiguous`
  Interrupts (KeyboardInterrupt and the like) take the path of the call they
  strike, so they are failures of that call here. The process guards are left
  out: there is one process.
-/

namespace QuantumEntanglement.Store

open Transaction FaultyConnection

/-- A store instance: its connection, and whether it is quarantined. -/
structure Handle (σ : Type) where
  connection : Connection σ
  poisoned : Bool

/-- How a transaction raises. -/
inductive Signal (ε : Type) where
  /-- `EventStorePoisonedError`. -/
  | poisoned
  /-- The classified outcome "rolled_back". -/
  | rolledBack
  /-- The classified outcome "ambiguous". -/
  | ambiguous
  /-- What the driver raised. -/
  | driver
  /-- What the body raised. -/
  | body (error : ε)
  deriving DecidableEq

variable {σ ε α : Type}

/-- The cleanup all three handlers share: whether a transaction was open, and
whether its ROLLBACK was confirmed; nothing where one of its calls raised. -/
def undo (faults : Faults) (c : Connection σ) : Option (Bool × Bool) × Connection σ :=
  match c.inTransaction faults.probe with
  | none => (none, c)
  | some false => (some (false, false), c)
  | some true =>
    match c.rollback faults.rollback with
    | (false, c') => (none, c')
    | (true, c') =>
      match c'.inTransaction faults.confirm with
      | none => (none, c')
      | some stillOpen => (some (true, !stillOpen), c')

/-- The cleanup of a BEGIN or a body that raised. -/
def undone : Option (Bool × Bool) → Bool
  | none => false
  | some (wasOpen, confirmed) => !wasOpen || confirmed

/-- `_transaction_inner`. -/
def transactionInner (classify : Bool) (faults : Faults) (body : Txn σ ε α) (h : Handle σ) :
    Except (Signal ε) α × Handle σ :=
  if h.poisoned then (.error .poisoned, h)
  else
    match h.connection.begin faults.begin with
    | (false, c) =>
      if !classify then (.error .driver, { h with connection := c })
      else
        let (outcome, c') := undo faults c
        if undone outcome then (.error .rolledBack, { h with connection := c' })
        else (.error .ambiguous, ⟨c', true⟩)
    | (true, c) =>
      match c.body body faults.drops with
      | (.error e, c') =>
        let (outcome, c'') := undo faults c'
        if undone outcome then (.error (.body e), { h with connection := c'' })
        else if classify then (.error .ambiguous, ⟨c'', true⟩)
        else (.error .driver, { h with connection := c'' })
      | (.ok a, c') =>
        match c'.commit faults.commit with
        | (true, c'') => (.ok a, { h with connection := c'' })
        | (false, c'') =>
          let (outcome, c₃) := undo faults c''
          if !classify then (.error .driver, { h with connection := c₃ })
          else if outcome = some (true, true) then
            (.error .rolledBack, { h with connection := c₃ })
          else (.error .ambiguous, ⟨c₃, true⟩)

/-! ## What a transaction reports -/

@[simp] theorem undo_durable (faults : Faults) (c : Connection σ) :
    (undo faults c).2.durable = c.durable := by
  have hrollback := Connection.rollback_durable faults.rollback c
  unfold undo
  split
  · rfl
  · rfl
  · split
    next c' hc => rw [← hrollback, hc]
    next c' hc =>
      split <;> rw [← hrollback, hc]

/-- A transaction was open where the cleanup says so. -/
theorem undo_open {faults : Faults} {c c' : Connection σ} {confirmed : Bool}
    (h : undo faults c = (some (true, confirmed), c')) : c.work.isSome = true := by
  unfold undo at h
  split at h
  · simp at h
  · simp at h
  next hprobe =>
    unfold Connection.inTransaction at hprobe
    split at hprobe
    · simpa using hprobe
    · simp at hprobe
    · simp at hprobe

/-- COMMIT was acknowledged: the body ended with this result on the durable
state, and what it left is durable. -/
def Acknowledged (faults : Faults) (body : Txn σ ε α) (h : Handle σ) (a : α) (h' : Handle σ) :
    Prop :=
  h.poisoned = false ∧ faults.begin = .none ∧ faults.commit = .none ∧
    ∃ s, body h.connection.durable = (.ok a, s) ∧ h' = ⟨⟨s, none⟩, false⟩

/-- **A result is reported only where COMMIT was acknowledged.** -/
theorem transactionInner_ok {classify : Bool} {faults : Faults} {body : Txn σ ε α}
    {h h' : Handle σ} {a : α} (hrun : transactionInner classify faults body h = (.ok a, h')) :
    Acknowledged faults body h a h' := by
  unfold transactionInner at hrun
  by_cases hpoisoned : h.poisoned = true
  · simp [hpoisoned] at hrun
  have hclean : h.poisoned = false := by simpa using hpoisoned
  simp only [hclean, Bool.false_eq_true, if_false] at hrun
  rcases hbegin : h.connection.begin faults.begin with ⟨began, c⟩
  rw [hbegin] at hrun
  cases began with
  | false =>
    exfalso
    simp only at hrun
    split at hrun
    · simp at hrun
    · split at hrun <;> simp at hrun
  | true =>
    obtain ⟨-, hnone, rfl⟩ := Connection.begin_acknowledged hbegin
    simp only at hrun
    rcases hbody : Connection.body body faults.drops ⟨h.connection.durable, some h.connection.durable⟩
      with ⟨r, c'⟩
    rw [hbody] at hrun
    cases r with
    | error e =>
      exfalso
      simp only at hrun
      split at hrun
      · simp at hrun
      · split at hrun <;> simp at hrun
    | ok b =>
      obtain ⟨s, hs, rfl⟩ := Connection.body_ok hbody
      simp only at hrun
      rcases hcommit : Connection.commit faults.commit ⟨h.connection.durable, some s⟩
        with ⟨acked, c''⟩
      rw [hcommit] at hrun
      cases acked with
      | false =>
        exfalso
        simp only at hrun
        split at hrun
        · simp at hrun
        · split at hrun <;> simp at hrun
      | true =>
        obtain ⟨s', hwork, hfault, rfl⟩ := Connection.commit_acknowledged hcommit
        simp only [Prod.mk.injEq, Except.ok.injEq] at hrun
        obtain ⟨rfl, rfl⟩ := hrun
        obtain rfl : s = s' := by simpa using hwork
        exact ⟨hclean, hnone, hfault, s, hs, rfl⟩

/-- The reports of a definite failure. -/
def Signal.Definite : Signal ε → Prop
  | .rolledBack | .driver | .body _ => True
  | .poisoned | .ambiguous => False

/-- The three outcomes a transaction may have: an acknowledged result, a
definite failure that moved nothing, or a store that is poisoned from now on. -/
def Outcome (faults : Faults) (body : Txn σ ε α) (h : Handle σ) :
    Except (Signal ε) α → Handle σ → Prop
  | .ok a, h' => Acknowledged faults body h a h'
  | .error .poisoned, h' => h.poisoned = true ∧ h' = h
  | .error .ambiguous, h' => h'.poisoned = true
  | .error _, h' => h'.connection.durable = h.connection.durable ∧ h'.poisoned = false

/-- **A classified transaction has one of the three outcomes.** -/
theorem transactionInner_classified {faults : Faults} {body : Txn σ ε α} {h h' : Handle σ}
    {r : Except (Signal ε) α} (hrun : transactionInner true faults body h = (r, h')) :
    Outcome faults body h r h' := by
  cases r with
  | ok a => exact transactionInner_ok hrun
  | error signal =>
    unfold transactionInner at hrun
    by_cases hpoisoned : h.poisoned = true
    · simp only [hpoisoned, if_true, Prod.mk.injEq, Except.error.injEq] at hrun
      obtain ⟨rfl, rfl⟩ := hrun
      exact ⟨hpoisoned, rfl⟩
    have hclean : h.poisoned = false := by simpa using hpoisoned
    simp only [hclean, Bool.false_eq_true, if_false] at hrun
    have hstart := Connection.begin_durable faults.begin h.connection
    rcases hbegin : h.connection.begin faults.begin with ⟨began, c⟩
    rw [hbegin] at hrun hstart
    cases began with
    | false =>
      simp only [Bool.not_true, Bool.false_eq_true, if_false] at hrun
      split at hrun <;> simp only [Prod.mk.injEq, Except.error.injEq] at hrun <;>
        obtain ⟨rfl, rfl⟩ := hrun
      · exact ⟨by simpa using hstart, rfl⟩
      · exact rfl
    | true =>
      have hbodyd := Connection.body_durable body faults.drops c
      rcases hbody : c.body body faults.drops with ⟨r, c'⟩
      rw [hbody] at hbodyd
      simp only [hbody] at hrun
      cases r with
      | error e =>
        simp only [if_true] at hrun
        split at hrun <;> simp only [Prod.mk.injEq, Except.error.injEq] at hrun <;>
          obtain ⟨rfl, rfl⟩ := hrun
        · refine ⟨?_, rfl⟩
          simp only [undo_durable]
          exact hbodyd.trans hstart
        · exact rfl
      | ok a =>
        simp only at hrun
        rcases hcommit : c'.commit faults.commit with ⟨acked, c''⟩
        rw [hcommit] at hrun
        cases acked with
        | true => simp at hrun
        | false =>
          simp only [Bool.not_true, Bool.false_eq_true, if_false] at hrun
          rcases hundo : undo faults c'' with ⟨outcome, c₃⟩
          rw [hundo] at hrun
          simp only at hrun
          split at hrun
          next hconfirmed =>
            -- an open transaction after a COMMIT that raised: nothing moved
            subst hconfirmed
            simp only [Prod.mk.injEq, Except.error.injEq] at hrun
            obtain ⟨rfl, rfl⟩ := hrun
            obtain ⟨-, rfl⟩ := Connection.commit_open hcommit (undo_open hundo)
            have hdurable := undo_durable faults c''
            rw [hundo] at hdurable
            exact ⟨hdurable.trans (hbodyd.trans hstart), rfl⟩
          next =>
            simp only [Prod.mk.injEq, Except.error.injEq] at hrun
            obtain ⟨rfl, rfl⟩ := hrun
            exact rfl

/-! ## A poisoned store -/

/-- The methods a poisoned store still runs. -/
def exemptMethods : List String := ["close", "__exit__"]

/-- `_bind_event_store_process`. -/
def bindProcess (name : String) (method : Handle σ → Except (Signal ε) α × Handle σ)
    (h : Handle σ) : Except (Signal ε) α × Handle σ :=
  if h.poisoned && !exemptMethods.contains name then (.error .poisoned, h) else method h

/-- A public call: the method's name, and what it does. -/
structure PublicCall (σ ε α : Type) where
  name : String
  method : Handle σ → Except (Signal ε) α × Handle σ

/-- Public calls one after another. -/
def runCalls : List (PublicCall σ ε α) → Handle σ → List (Except (Signal ε) α) × Handle σ
  | [], h => ([], h)
  | call :: rest, h =>
    let (r, h') := bindProcess call.name call.method h
    let (rs, h'') := runCalls rest h'
    (r :: rs, h'')

/-- **A poisoned store refuses every call but `close`**, and its connection
stays as it is. -/
theorem poisoned_refuses {h : Handle σ} (hpoisoned : h.poisoned = true)
    (calls : List (PublicCall σ ε α)) (hnames : ∀ c ∈ calls, c.name ∉ exemptMethods) :
    runCalls calls h = (calls.map (fun _ => .error .poisoned), h) := by
  induction calls with
  | nil => rfl
  | cons call rest ih =>
    have hname : call.name ∉ exemptMethods := hnames call (List.mem_cons_self ..)
    have hone : bindProcess call.name call.method h = (.error .poisoned, h) := by
      simp [bindProcess, hpoisoned, hname]
    simp only [runCalls, hone, List.map_cons]
    rw [ih fun c hc => hnames c (List.mem_cons_of_mem _ hc)]

/-! ## Calls on classified transactions -/

/-- How `claim_invocation_start` reports: the fixed errors of the start
boundary, or what its body raised. -/
inductive StartError where
  /-- `InvocationStartTransactionError`. -/
  | transaction
  /-- `InvocationStartCommitAmbiguityError`. -/
  | ambiguous
  /-- `EventStorePoisonedError`. -/
  | poisoned
  | body (error : StoreError)
  deriving DecidableEq

/-- The classes of `sqlite3.Error`. -/
def isSqliteError (e : StoreError) : Bool :=
  e.kind = .sqliteIntegrity || e.kind = .sqliteOperational

/-- The handlers around the transaction of `claim_invocation_start`, and of
the start's readers. -/
def startErrorOf : Signal StoreError → StartError
  | .poisoned => .poisoned
  | .rolledBack => .transaction
  | .ambiguous => .ambiguous
  | .driver => .transaction
  | .body e => if isSqliteError e then .transaction else .body e

/-- `claim_invocation_start`, over the body of its transaction. -/
def claimInvocationStart (faults : Faults) (body : Txn σ StoreError α) (h : Handle σ) :
    Except StartError α × Handle σ :=
  match transactionInner true faults body h with
  | (.ok a, h') => (.ok a, h')
  | (.error signal, h') => (.error (startErrorOf signal), h')

/-- **A start is claimed only where COMMIT was acknowledged**; a start that
reports a failed transaction moved nothing; and one whose outcome is unknown
poisoned the store. -/
theorem claimInvocationStart_outcomes {faults : Faults} {body : Txn σ StoreError α}
    {h h' : Handle σ} {r : Except StartError α}
    (hrun : claimInvocationStart faults body h = (r, h')) :
    (∀ a, r = .ok a → Acknowledged faults body h a h') ∧
    (∀ e, (r = .error .transaction ∨ r = .error (.body e)) →
      h'.connection.durable = h.connection.durable) ∧
    (r = .error .ambiguous → h'.poisoned = true) := by
  unfold claimInvocationStart at hrun
  rcases hinner : transactionInner true faults body h with ⟨r', s⟩
  rw [hinner] at hrun
  have hout := transactionInner_classified hinner
  cases r' with
  | ok a =>
    simp only [Prod.mk.injEq] at hrun
    obtain ⟨rfl, rfl⟩ := hrun
    refine ⟨fun b hb => ?_, fun e he => by simp at he, fun he => by simp at he⟩
    rw [Except.ok.injEq] at hb
    exact hb ▸ hout
  | error signal =>
    simp only [Prod.mk.injEq] at hrun
    obtain ⟨rfl, rfl⟩ := hrun
    cases signal with
    | poisoned => simp [startErrorOf]
    | ambiguous => exact ⟨by simp [startErrorOf], by simp [startErrorOf], fun _ => hout⟩
    | rolledBack => simp [startErrorOf, hout.1]
    | driver => simp [startErrorOf, hout.1]
    | body e => by_cases hsqlite : isSqliteError e = true <;> simp [startErrorOf, hsqlite, hout.1]

/-- **The outcomes of a transaction.** A result is reported only where COMMIT
was acknowledged, by classified and unclassified transactions alike; a
classified transaction that reports a definite failure left the durable state
as it was; and one that reports an unknown outcome left a store that refuses
every later call but `close` without touching its connection. A start is
claimed only where COMMIT was acknowledged. -/
theorem transaction_outcomes (faults : Faults) (body : Txn σ StoreError α) (h : Handle σ) :
    (∀ classify a h', transactionInner classify faults body h = (.ok a, h') →
      Acknowledged faults body h a h') ∧
    (∀ (signal : Signal StoreError) h', signal.Definite →
      transactionInner true faults body h = (.error signal, h') →
      h'.connection.durable = h.connection.durable) ∧
    (∀ h', transactionInner true faults body h = (.error .ambiguous, h') →
      ∀ calls : List (PublicCall σ StoreError α), (∀ c ∈ calls, c.name ∉ exemptMethods) →
        runCalls calls h' = (calls.map (fun _ => .error .poisoned), h')) ∧
    ∀ a h', claimInvocationStart faults body h = (.ok a, h') → Acknowledged faults body h a h' := by
  refine ⟨fun classify a h' hrun => transactionInner_ok hrun, fun signal h' hdefinite hrun => ?_,
    fun h' hrun calls hnames => ?_, fun a h' hrun => (claimInvocationStart_outcomes hrun).1 a rfl⟩
  · have hout := transactionInner_classified hrun
    cases signal with
    | poisoned | ambiguous => exact absurd hdefinite id
    | rolledBack | driver | body => exact hout.1
  · exact poisoned_refuses (transactionInner_classified hrun) calls hnames

/-- The COMMIT takes effect and is not acknowledged. -/
def lostAcknowledgement : Faults := ⟨.none, .after, .none, .none, .none, false⟩

/-- An unclassified transaction reports a driver's error for a COMMIT that took
effect, and leaves the store in use. -/
theorem unclassified_moves :
    ¬∀ (classify : Bool) (faults : Faults) (body : Txn Nat Unit Unit) (h h' : Handle Nat)
      (r : Except (Signal Unit) Unit), transactionInner classify faults body h = (r, h') →
      Outcome faults body h r h' := by
  intro hall
  have hout := hall false lostAcknowledgement (Txn.update fun n => n + 1) ⟨⟨0, none⟩, false⟩
    ⟨⟨1, none⟩, false⟩ (.error .driver) rfl
  exact absurd hout.1 (by decide)

end QuantumEntanglement.Store
