import Mathlib

/-
  An observed clock — readings that may go back, and a value that never does

  A reading is a moment, or none where the clock could not be read. A reading
  behind the last observed moment is taken for that moment while it is within
  the tolerated skew, and refused beyond. `time` tells how late a moment is.

  What is proved:
    1. `observe_ok` — what was observed is the last observation from then on,
       and is no earlier than the one before.
    2. `observe_mono` — no reading takes the last observation back.
-/

namespace ObservedClock

variable {τ : Type} (time : τ → Int)

inductive Failure where
  | unavailable
  | regressed
  deriving DecidableEq

/-- One reading: what is observed, and the last observation from then on. -/
def observe (skew : Int) (last reading : Option τ) : Except Failure τ × Option τ :=
  match reading with
  | none => (.error .unavailable, last)
  | some now =>
    match last with
    | none => (.ok now, some now)
    | some previous =>
      if time now < time previous then
        if time previous - time now > skew then (.error .regressed, last) else (.ok previous, last)
      else (.ok now, some now)

/-- The second observation is there if the first is, and no earlier. -/
def NoEarlier (last last' : Option τ) : Prop :=
  ∀ t, last = some t → ∃ t', last' = some t' ∧ time t ≤ time t'

variable {time}

theorem NoEarlier.refl (last : Option τ) : NoEarlier time last last :=
  fun t h => ⟨t, h, Int.le_refl _⟩

theorem NoEarlier.trans {a b c : Option τ} (h : NoEarlier time a b) (h' : NoEarlier time b c) :
    NoEarlier time a c := by
  intro t ht
  obtain ⟨t', ht', hle⟩ := h t ht
  obtain ⟨t'', ht'', hle'⟩ := h' t' ht'
  exact ⟨t'', ht'', Int.le_trans hle hle'⟩

/-- **What was observed** is the last observation from then on. -/
theorem observe_ok {skew : Int} {last reading last' : Option τ} {now : τ}
    (h : observe time skew last reading = (.ok now, last')) :
    last' = some now ∧ NoEarlier time last last' := by
  unfold observe at h
  split at h
  · simp at h
  next value =>
    split at h
    · obtain ⟨hok, rfl⟩ := Prod.mk.inj h
      exact ⟨by rw [Except.ok.inj hok], by intro t ht; simp at ht⟩
    next previous =>
      split at h
      · split at h
        · simp at h
        · obtain ⟨hok, rfl⟩ := Prod.mk.inj h
          exact ⟨by rw [Except.ok.inj hok], .refl _⟩
      next hlater =>
        obtain ⟨hok, rfl⟩ := Prod.mk.inj h
        refine ⟨by rw [Except.ok.inj hok], fun t ht => ⟨value, rfl, ?_⟩⟩
        obtain rfl := Option.some.inj ht
        exact Int.not_lt.mp hlater

/-- **No reading takes the last observation back.** -/
theorem observe_mono (skew : Int) (last reading : Option τ) :
    NoEarlier time last (observe time skew last reading).2 := by
  rcases h : observe time skew last reading with ⟨r, last'⟩
  cases r with
  | ok now => exact (observe_ok h).2
  | error e =>
    have hlast : last' = last := by
      unfold observe at h
      split at h
      · exact (Prod.mk.inj h).2.symm
      · split at h
        · simp at h
        · split at h
          · split at h
            · exact (Prod.mk.inj h).2.symm
            · simp at h
          · simp at h
    rw [hlast]
    exact .refl _

end ObservedClock
