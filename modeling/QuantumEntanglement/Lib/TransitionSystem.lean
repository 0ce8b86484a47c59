import Mathlib

/-
  Transition systems — labelled steps, runs and the invariant rules

  A system is a set of start states and a labelled step relation. A `Run`
  carries the labels it took in order, so a property of a whole run (how
  often a label occurs, what comes before what) is a property of its trace.

  What is proved:
    1. `Run.append` — runs compose, and so do their traces.
    2. `invariant_of_reachable` — what holds at the start and is kept by every
       step holds in every reachable state.
    3. `Run.relates` — a reflexive and transitive relation that every step
       respects relates the two ends of a run.
    4. `Run.invariant` — what every step keeps, a run keeps, from any state;
       `Run.traced` — the same for a state together with its trace.
-/

namespace TransitionSystem

/-- A labelled transition system: start states and labelled steps. -/
structure System (σ ι : Type) where
  start : σ → Prop
  step : σ → ι → σ → Prop

variable {σ ι : Type} {S : System σ ι}

/-- A finite run with the labels it took, oldest first. -/
inductive Run (S : System σ ι) : σ → List ι → σ → Prop where
  | done (s : σ) : Run S s [] s
  | next {s s' s'' : σ} {l : ι} {ls : List ι} :
      S.step s l s' → Run S s' ls s'' → Run S s (l :: ls) s''

/-- A state some run from a start state ends in. -/
def Reachable (S : System σ ι) (s : σ) : Prop :=
  ∃ s₀ ls, S.start s₀ ∧ Run S s₀ ls s

namespace Run

theorem append {s s' s'' : σ} {ls ls' : List ι} (h : Run S s ls s') (h' : Run S s' ls' s'') :
    Run S s (ls ++ ls') s'' := by
  induction h with
  | done s => exact h'
  | next hs _ ih => exact .next hs (ih h')

theorem single {s s' : σ} {l : ι} (h : S.step s l s') : Run S s [l] s' :=
  .next h (.done s')

/-- A run of at most one label is no step, or one. -/
theorem short {s s' : σ} {ls : List ι} (h : Run S s ls s') (hlen : ls.length ≤ 1) :
    (ls = [] ∧ s' = s) ∨ ∃ l, ls = [l] ∧ S.step s l s' := by
  cases h with
  | done => exact .inl ⟨rfl, rfl⟩
  | @next _ s₁ _ l rest hs hrest =>
    cases hrest with
    | done => exact .inr ⟨l, rfl, hs⟩
    | next _ _ => simp at hlen

/-- What every step keeps, a run keeps. -/
theorem invariant {I : σ → Prop} (hstep : ∀ s l s', I s → S.step s l s' → I s')
    {s s' : σ} {ls : List ι} (h : Run S s ls s') (hi : I s) : I s' := by
  induction h with
  | done s => exact hi
  | next hs _ ih => exact ih (hstep _ _ _ hi hs)

/-- What every step relates, a run relates. -/
theorem relates {R : σ → σ → Prop} (hr : ∀ s, R s s) (ht : ∀ a b c, R a b → R b c → R a c)
    (hstep : ∀ s l s', S.step s l s' → R s s') {s s' : σ} {ls : List ι}
    (h : Run S s ls s') : R s s' := by
  induction h with
  | done s => exact hr s
  | next hs _ ih => exact ht _ _ _ (hstep _ _ _ hs) ih

theorem traced_after {I : List ι → σ → Prop}
    (hstep : ∀ before s l s', I before s → S.step s l s' → I (before ++ [l]) s')
    {s s' : σ} {ls before : List ι} (h : Run S s ls s') (hi : I before s) : I (before ++ ls) s' := by
  induction h generalizing before with
  | done s => simpa using hi
  | next hs _ ih =>
    rw [List.append_cons]
    exact ih (hstep _ _ _ _ hi hs)

/-- **The trace rule**: what every step keeps of a state and the labels that
led to it, a run keeps. -/
theorem traced {I : List ι → σ → Prop}
    (hstep : ∀ before s l s', I before s → S.step s l s' → I (before ++ [l]) s')
    {s s' : σ} {ls : List ι} (h : Run S s ls s') (hi : I [] s) : I ls s' := by
  simpa using h.traced_after hstep hi

end Run

theorem Reachable.start {s : σ} (h : S.start s) : Reachable S s :=
  ⟨s, [], h, .done s⟩

theorem Reachable.step {s s' : σ} {l : ι} (h : Reachable S s) (hs : S.step s l s') :
    Reachable S s' := by
  obtain ⟨s₀, ls, h₀, hrun⟩ := h
  exact ⟨s₀, ls ++ [l], h₀, hrun.append (.single hs)⟩

theorem Reachable.run {s s' : σ} {ls : List ι} (h : Reachable S s) (hr : Run S s ls s') :
    Reachable S s' := by
  obtain ⟨s₀, ls₀, h₀, hrun⟩ := h
  exact ⟨s₀, ls₀ ++ ls, h₀, hrun.append hr⟩

/-- **The invariant rule**: what holds at the start and is kept by every step
holds in every reachable state. -/
theorem invariant_of_reachable {I : σ → Prop} (hstart : ∀ s, S.start s → I s)
    (hstep : ∀ s l s', I s → S.step s l s' → I s') {s : σ} (h : Reachable S s) : I s := by
  obtain ⟨s₀, ls, h₀, hrun⟩ := h
  exact hrun.invariant hstep (hstart s₀ h₀)

end TransitionSystem
