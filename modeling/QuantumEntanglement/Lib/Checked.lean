import Mathlib

/-
  Checked computations — taking a run of `Except` apart

  A computation that ended with a result ran each of its steps to a result;
  one that raised did so in a step all of whose predecessors ended.

  What is proved:
    1. `except_bind_ok`, `except_bind_error` — one sequencing.
    2. `forM_ok` — a check over a list passed on every element.
-/

namespace Checked

variable {ε α β : Type}

theorem except_bind_ok {x : Except ε α} {f : α → Except ε β} {b : β} :
    (x >>= f) = .ok b ↔ ∃ a, x = .ok a ∧ f a = .ok b := by
  cases x <;> simp [bind, Except.bind]

theorem except_bind_error {x : Except ε α} {f : α → Except ε β} {e : ε} :
    (x >>= f) = .error e ↔ x = .error e ∨ ∃ a, x = .ok a ∧ f a = .error e := by
  cases x <;> simp [bind, Except.bind]

theorem except_ok_bind (a : α) (f : α → Except ε β) : (.ok a >>= f) = f a := rfl

/-- A check over a list passes exactly if it passes on every element. -/
theorem forM_ok {f : α → Except ε Unit} {l : List α} :
    l.forM f = .ok () ↔ ∀ a ∈ l, f a = .ok () := by
  induction l with
  | nil => simp [pure, Except.pure]
  | cons a rest ih =>
    have hcons : (a :: rest).forM f = (f a >>= fun _ => rest.forM f) := rfl
    rw [hcons, except_bind_ok, List.forall_mem_cons, ← ih]
    constructor
    · intro h
      obtain ⟨u, ha, hrest⟩ := h
      exact ⟨ha, hrest⟩
    · intro h
      exact ⟨(), h.1, h.2⟩

end Checked
