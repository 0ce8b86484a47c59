import QuantumEntanglement.Lib.TransitionSystem

/-
  Single dispatch — the life of a job that is leased at most once

  A job waits, is leased, and ends. The holder of the lease extends it or ends
  the job while the lease is live; a lease whose deadline passed is fenced,
  which ends the job too. There is no step back from an ended job to a lease,
  so what a holder was once given is given to nobody else.

  What is proved:
    1. `grants_le_one` — along any life the job is leased at most once.
    2. `outcomes_eq` — an ended job carries the outcome of the one signal that
       ended it, and a job that did not end was ended by none.
-/

namespace SingleDispatch

open TransitionSystem

/-- The state of one job. -/
inductive Dispatch (κ τ ω : Type) where
  | ready
  | leased (holder : κ) (deadline : τ)
  | ended (outcome : ω)
  deriving DecidableEq

/-- What happens to a job. -/
inductive Signal (κ τ ω : Type) where
  | enqueued
  | granted (holder : κ) (deadline : τ)
  | extended (holder : κ) (now deadline : τ)
  | finished (holder : κ) (now : τ) (outcome : ω)
  | fenced (now : τ) (outcome : ω)
  deriving DecidableEq

variable {κ τ ω : Type}

/-- The holder a signal leases the job to. -/
def Signal.grant? : Signal κ τ ω → Option κ
  | .granted h _ => some h
  | _ => none

/-- The outcome a holder ends the job with. -/
def Signal.finish? : Signal κ τ ω → Option ω
  | .finished _ _ o => some o
  | _ => none

/-- The outcome a fence ends the job with. -/
def Signal.fence? : Signal κ τ ω → Option ω
  | .fenced _ o => some o
  | _ => none

def Dispatch.outcome? : Dispatch κ τ ω → Option ω
  | .ended o => some o
  | _ => none

variable [LT τ]

/-- **The steps of one job.** A live lease is extended or ended by its holder,
a lease past its deadline is fenced. -/
inductive Step : Option (Dispatch κ τ ω) → Signal κ τ ω → Option (Dispatch κ τ ω) → Prop where
  | enqueue : Step none .enqueued (some .ready)
  | grant (h : κ) (d : τ) : Step (some .ready) (.granted h d) (some (.leased h d))
  | extend (h : κ) (d now d' : τ) (live : now < d) :
      Step (some (.leased h d)) (.extended h now d') (some (.leased h d'))
  | finish (h : κ) (d now : τ) (o : ω) (live : now < d) :
      Step (some (.leased h d)) (.finished h now o) (some (.ended o))
  | fence (h : κ) (d now : τ) (o : ω) (past : ¬now < d) :
      Step (some (.leased h d)) (.fenced now o) (some (.ended o))

/-- The life of one job, from no job. -/
def life : System (Option (Dispatch κ τ ω)) (Signal κ τ ω) := ⟨fun d => d = none, Step⟩

/-- The facts that tie a state to the signals that led to it. -/
structure Accounts (ls : List (Signal κ τ ω)) (d : Option (Dispatch κ τ ω)) : Prop where
  unleased : d = none ∨ d = some .ready → ls.filterMap (·.grant?) = []
  leased : ∀ h e, d = some (.leased h e) → ls.filterMap (·.grant?) = [h]
  ended : ∀ o, d = some (.ended o) → (ls.filterMap (·.grant?)).length = 1
  finished : ls.filterMap (·.finish?) ++ ls.filterMap (·.fence?) = (d.bind (·.outcome?)).toList

omit [LT τ] in
theorem accounts_nil : Accounts ([] : List (Signal κ τ ω)) none :=
  ⟨fun _ => rfl, by simp, by simp, rfl⟩

omit [LT τ] in
/-- What one more signal adds to the grants and the outcomes. -/
theorem filterMap_concat {β : Type} (f : Signal κ τ ω → Option β) (ls : List (Signal κ τ ω))
    (s : Signal κ τ ω) : (ls ++ [s]).filterMap f = ls.filterMap f ++ (f s).toList := by
  rw [List.filterMap_append]
  cases h : f s <;> simp [h]

/-- One step keeps the accounts. -/
theorem Accounts.step {ls : List (Signal κ τ ω)} {d d' : Option (Dispatch κ τ ω)}
    {s : Signal κ τ ω} (h : Accounts ls d) (hs : Step d s d') : Accounts (ls ++ [s]) d' := by
  obtain ⟨hunleased, hleased, hended, hfinished⟩ := h
  cases hs with
  | enqueue =>
    have hnone := hunleased (.inl rfl)
    refine ⟨fun _ => ?_, by simp, by simp, ?_⟩
    · rw [filterMap_concat, hnone]
      rfl
    · rw [filterMap_concat, filterMap_concat]
      show (_ ++ []) ++ (_ ++ []) = []
      rw [List.append_nil, List.append_nil]
      exact hfinished
  | grant k e =>
    have hnone := hunleased (.inr rfl)
    refine ⟨by simp, fun k' e' heq => ?_, by simp, ?_⟩
    · simp only [Option.some.injEq, Dispatch.leased.injEq] at heq
      rw [filterMap_concat, hnone, ← heq.1]
      rfl
    · rw [filterMap_concat, filterMap_concat]
      show (_ ++ []) ++ (_ ++ []) = []
      rw [List.append_nil, List.append_nil]
      exact hfinished
  | extend k e now e' live =>
    have hone := hleased k e rfl
    refine ⟨by simp, fun k' e'' heq => ?_, by simp, ?_⟩
    · simp only [Option.some.injEq, Dispatch.leased.injEq] at heq
      rw [filterMap_concat, hone, ← heq.1]
      rfl
    · rw [filterMap_concat, filterMap_concat]
      show (_ ++ []) ++ (_ ++ []) = []
      rw [List.append_nil, List.append_nil]
      exact hfinished
  | finish k e now o live =>
    have hone := hleased k e rfl
    obtain ⟨hf, hg⟩ := List.append_eq_nil_iff.mp (show _ = [] from hfinished)
    refine ⟨by simp, by simp, fun o' _ => ?_, ?_⟩
    · rw [filterMap_concat, hone]
      rfl
    · rw [filterMap_concat, filterMap_concat, hf, hg]
      rfl
  | fence k e now o past =>
    have hone := hleased k e rfl
    obtain ⟨hf, hg⟩ := List.append_eq_nil_iff.mp (show _ = [] from hfinished)
    refine ⟨by simp, by simp, fun o' _ => ?_, ?_⟩
    · rw [filterMap_concat, hone]
      rfl
    · rw [filterMap_concat, filterMap_concat, hf, hg]
      rfl

/-- A run keeps the accounts. -/
theorem Accounts.run {d d' : Option (Dispatch κ τ ω)} {ls more : List (Signal κ τ ω)}
    (h : Accounts ls d) (hr : Run life d more d') : Accounts (ls ++ more) d' := by
  induction hr generalizing ls with
  | done d => simpa using h
  | next hs _ ih =>
    have := ih (h.step hs)
    simpa using this

theorem Run.accounts {d : Option (Dispatch κ τ ω)} {ls : List (Signal κ τ ω)}
    (h : Run life none ls d) : Accounts ls d := by
  simpa using accounts_nil.run h

/-- **A job is leased at most once in its life.** -/
theorem grants_le_one {d : Option (Dispatch κ τ ω)} {ls : List (Signal κ τ ω)}
    (h : Run life none ls d) : (ls.filterMap (·.grant?)).length ≤ 1 := by
  have hacc := Run.accounts h
  match d with
  | none => simp [hacc.unleased (.inl rfl)]
  | some .ready => simp [hacc.unleased (.inr rfl)]
  | some (.leased k e) => simp [hacc.leased k e rfl]
  | some (.ended o) => exact Nat.le_of_eq (hacc.ended o rfl)

/-- **The signals that ended the job are the outcome it has.** -/
theorem outcomes_eq {d : Option (Dispatch κ τ ω)} {ls : List (Signal κ τ ω)}
    (h : Run life none ls d) :
    ls.filterMap (·.finish?) ++ ls.filterMap (·.fence?) = (d.bind (·.outcome?)).toList :=
  (Run.accounts h).finished

end SingleDispatch
