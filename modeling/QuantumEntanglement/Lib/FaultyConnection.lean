import QuantumEntanglement.Lib.Transaction

/-
  A connection whose calls can fail — before or after they took effect

  A connection has the durable state and, while a transaction is open, the
  state the transaction works on. BEGIN, COMMIT and ROLLBACK answer whether
  they were acknowledged; one that was not may still have taken effect, and a
  COMMIT may also have given the transaction up. What the connection says
  about an open transaction is the truth, where it says anything.

  What is proved:
    1. `begin_durable`, `rollback_durable`, `drop_durable` — only a COMMIT
       moves the durable state.
    2. `commit_acknowledged` — an acknowledged COMMIT made the work durable.
    3. `commit_open` — a COMMIT that left the transaction open moved nothing.
-/

namespace FaultyConnection

open Transaction

/-- How a call fails: not at all, before it took effect, or after. -/
inductive Fault where
  | none
  | before
  | after
  deriving DecidableEq

/-- How a COMMIT fails; an aborted one gave the transaction up. -/
inductive CommitFault where
  | none
  | before
  | after
  | aborted
  deriving DecidableEq

/-- How asking for an open transaction fails. -/
inductive ProbeFault where
  | none
  | raises
  | notBool
  deriving DecidableEq

/-- What fails in one transaction. -/
structure Faults where
  begin : Fault
  commit : CommitFault
  rollback : Fault
  /-- The first question for an open transaction. -/
  probe : ProbeFault
  /-- The question after a ROLLBACK. -/
  confirm : ProbeFault
  /-- The engine gives the transaction up when the body raises. -/
  drops : Bool

/-- The durable state, and the one an open transaction works on. -/
structure Connection (σ : Type) where
  durable : σ
  work : Option σ

namespace Connection

variable {σ ε α : Type}

/-- BEGIN IMMEDIATE: refused inside a transaction. -/
def begin (f : Fault) (c : Connection σ) : Bool × Connection σ :=
  match c.work, f with
  | some _, _ => (false, c)
  | none, .none => (true, { c with work := some c.durable })
  | none, .before => (false, c)
  | none, .after => (false, { c with work := some c.durable })

/-- COMMIT: refused outside a transaction. -/
def commit (f : CommitFault) (c : Connection σ) : Bool × Connection σ :=
  match c.work, f with
  | none, _ => (false, c)
  | some s, .none => (true, ⟨s, none⟩)
  | some _, .before => (false, c)
  | some s, .after => (false, ⟨s, none⟩)
  | some _, .aborted => (false, ⟨c.durable, none⟩)

/-- ROLLBACK: refused outside a transaction. -/
def rollback (f : Fault) (c : Connection σ) : Bool × Connection σ :=
  match c.work, f with
  | none, _ => (false, c)
  | some _, .none => (true, ⟨c.durable, none⟩)
  | some _, .before => (false, c)
  | some _, .after => (false, ⟨c.durable, none⟩)

/-- Whether a transaction is open, where the connection says. -/
def inTransaction (f : ProbeFault) (c : Connection σ) : Option Bool :=
  match f with
  | .none => some c.work.isSome
  | .raises | .notBool => none

/-- The body of a transaction; a body that raises may lose the transaction. -/
def body (m : Txn σ ε α) (drops : Bool) (c : Connection σ) : Except ε α × Connection σ :=
  match m (c.work.getD c.durable) with
  | (.ok a, s) => (.ok a, ⟨c.durable, some s⟩)
  | (.error e, s) => (.error e, ⟨c.durable, if drops then none else some s⟩)

/-! ## What moves the durable state -/

@[simp] theorem begin_durable (f : Fault) (c : Connection σ) :
    (c.begin f).2.durable = c.durable := by
  unfold begin
  split <;> rfl

@[simp] theorem rollback_durable (f : Fault) (c : Connection σ) :
    (c.rollback f).2.durable = c.durable := by
  unfold rollback
  split <;> rfl

@[simp] theorem body_durable (m : Txn σ ε α) (drops : Bool) (c : Connection σ) :
    (c.body m drops).2.durable = c.durable := by
  unfold body
  split <;> rfl

/-- An acknowledged BEGIN opened a transaction on the durable state. -/
theorem begin_acknowledged {f : Fault} {c c' : Connection σ} (h : c.begin f = (true, c')) :
    c.work = none ∧ f = .none ∧ c' = ⟨c.durable, some c.durable⟩ := by
  unfold begin at h
  split at h
  · simp at h
  next hwork =>
    simp only [Prod.mk.injEq, true_and] at h
    exact ⟨hwork, rfl, h.symm⟩
  · simp at h
  · simp at h

/-- An acknowledged ROLLBACK closed the transaction. -/
theorem rollback_acknowledged {f : Fault} {c c' : Connection σ} (h : c.rollback f = (true, c')) :
    c'.work = none := by
  unfold rollback at h
  split at h <;> simp only [Prod.mk.injEq] at h
  · simp at h
  · rw [← h.2]
  · simp at h
  · simp at h

/-- A body that ended with a result left its state as the work. -/
theorem body_ok {m : Txn σ ε α} {drops : Bool} {c c' : Connection σ} {a : α}
    (h : c.body m drops = (.ok a, c')) :
    ∃ s, m (c.work.getD c.durable) = (.ok a, s) ∧ c' = ⟨c.durable, some s⟩ := by
  unfold body at h
  split at h
  next b s hm =>
    simp only [Prod.mk.injEq, Except.ok.injEq] at h
    obtain ⟨rfl, rfl⟩ := h
    exact ⟨s, hm, rfl⟩
  · simp at h

/-- **An acknowledged COMMIT made the work durable.** -/
theorem commit_acknowledged {f : CommitFault} {c c' : Connection σ}
    (h : c.commit f = (true, c')) : ∃ s, c.work = some s ∧ f = .none ∧ c' = ⟨s, none⟩ := by
  unfold commit at h
  split at h
  · simp at h
  next s hwork =>
    simp only [Prod.mk.injEq, true_and] at h
    exact ⟨s, hwork, rfl, h.symm⟩
  all_goals simp at h

/-- **A COMMIT that left the transaction open moved nothing.** -/
theorem commit_open {f : CommitFault} {c c' : Connection σ} {b : Bool}
    (h : c.commit f = (b, c')) (hopen : c'.work.isSome = true) : b = false ∧ c' = c := by
  unfold commit at h
  split at h <;> simp only [Prod.mk.injEq] at h <;> obtain ⟨rfl, rfl⟩ := h
  · exact ⟨rfl, rfl⟩
  · simp at hopen
  · exact ⟨rfl, rfl⟩
  · simp at hopen
  · simp at hopen

/-- A COMMIT that was not acknowledged left the durable state, or made the
work durable. -/
theorem commit_durable {f : CommitFault} {c c' : Connection σ} {b : Bool}
    (h : c.commit f = (b, c')) : c'.durable = c.durable ∨ c.work = some c'.durable := by
  unfold commit at h
  split at h <;> simp only [Prod.mk.injEq] at h <;> obtain ⟨-, rfl⟩ := h <;> simp_all

end Connection

end FaultyConnection
