import Mathlib

/-
  Transactions — programs over one shared state that may raise half-way

  A `Txn σ ε α` reads and writes a state `σ` and ends with a result or an
  error. An error does not undo what was written before it: a raised program
  leaves the state its last write left. `atomically` is the boundary that
  does undo it (BEGIN, body, then COMMIT on a result and ROLLBACK on an
  error), so it is a definition here and not a property of the monad.

  What is proved:
    1. The `run` equations: what each primitive returns and leaves behind.
    2. The `ok` rules: a program that ended with a result is taken apart into
       the primitives it ran (`bind_ok`, `forEach_cons_ok`). These are the
       inversion lemmas every operation's spec is proved from. The `error`
       rules say the same of a program that raised.
    3. `atomically_error_state` — a transaction that raises leaves the state
       it found — and `atomically_ok`.
    4. `Always`, the two-state rule: a reflexive and transitive relation that
       every primitive step respects is respected by the whole program,
       whether it raises or not.
    5. `Restores`, the failure rule: a program that only reads before its
       transaction leaves the state it found whenever it raises.
-/

namespace Transaction

/-- A program over the state `σ` that ends with an `α` or raises an `ε`. -/
def Txn (σ ε α : Type) : Type := σ → Except ε α × σ

variable {σ ε α β : Type}

namespace Txn

instance : Monad (Txn σ ε) where
  pure a := fun s => (.ok a, s)
  bind m f := fun s =>
    match m s with
    | (.ok a, s') => f a s'
    | (.error e, s') => (.error e, s')

/-- Raise; what was written so far stays written. -/
def raise (e : ε) : Txn σ ε α := fun s => (.error e, s)

/-- Raise `e` unless `c` holds. -/
def ensure (c : Prop) [Decidable c] (e : ε) : Txn σ ε Unit :=
  if c then pure () else raise e

/-- A computation that touches no state. -/
def lift (r : Except ε α) : Txn σ ε α := fun s => (r, s)

/-- Read the state. -/
def query (f : σ → α) : Txn σ ε α := fun s => (.ok (f s), s)

/-- Write the state. -/
def update (f : σ → σ) : Txn σ ε Unit := fun s => (.ok (), f s)

/-- Run `f` on every element in order, collecting the results. -/
def forEach (f : α → Txn σ ε β) : List α → Txn σ ε (List β)
  | [] => pure []
  | a :: rest => do
    let b ← f a
    let bs ← forEach f rest
    pure (b :: bs)

/-- The transaction boundary: commit a result, roll an error back. -/
def atomically (m : Txn σ ε α) : Txn σ ε α := fun s =>
  match m s with
  | (.ok a, s') => (.ok a, s')
  | (.error e, _) => (.error e, s)

/-- Run, and hand on how it ended: `try` with every exception caught. -/
def attempt (m : Txn σ ε α) : Txn σ ε (Except ε α) := fun s =>
  let (r, s') := m s
  (.ok r, s')

/-! ## Runs that end with a result -/

@[simp] theorem pure_ok {a b : α} {s s' : σ} :
    (pure a : Txn σ ε α) s = (.ok b, s') ↔ a = b ∧ s = s' := by
  simp [pure]

@[simp] theorem raise_ok {e : ε} {b : α} {s s' : σ} :
    (raise e : Txn σ ε α) s = (.ok b, s') ↔ False := by
  simp [raise]

@[simp] theorem lift_ok {r : Except ε α} {b : α} {s s' : σ} :
    (lift r : Txn σ ε α) s = (.ok b, s') ↔ r = .ok b ∧ s = s' := by
  simp [lift]

@[simp] theorem query_ok {f : σ → α} {b : α} {s s' : σ} :
    (query f : Txn σ ε α) s = (.ok b, s') ↔ f s = b ∧ s = s' := by
  simp [query]

@[simp] theorem update_ok {f : σ → σ} {u : Unit} {s s' : σ} :
    (update f : Txn σ ε Unit) s = (.ok u, s') ↔ f s = s' := by
  simp [update]

@[simp] theorem ensure_ok {c : Prop} [Decidable c] {e : ε} {u : Unit} {s s' : σ} :
    (ensure c e : Txn σ ε Unit) s = (.ok u, s') ↔ c ∧ s = s' := by
  unfold ensure
  by_cases h : c <;> simp [h]

@[simp] theorem bind_ok {m : Txn σ ε α} {f : α → Txn σ ε β} {b : β} {s s' : σ} :
    (m >>= f) s = (.ok b, s') ↔ ∃ a s₁, m s = (.ok a, s₁) ∧ f a s₁ = (.ok b, s') := by
  simp only [bind]
  rcases hm : m s with ⟨r, s₁⟩
  cases r with
  | error e => simp
  | ok a =>
    constructor
    · intro h
      exact ⟨a, s₁, rfl, h⟩
    · rintro ⟨a', s₁', heq, h⟩
      simp only [Prod.mk.injEq, Except.ok.injEq] at heq
      obtain ⟨rfl, rfl⟩ := heq
      exact h

@[simp] theorem attempt_ok {m : Txn σ ε α} {r : Except ε α} {s s' : σ} :
    attempt m s = (.ok r, s') ↔ m s = (r, s') := by
  unfold attempt
  rcases hm : m s with ⟨r', s₁⟩
  simp

@[simp] theorem forEach_nil_ok {f : α → Txn σ ε β} {bs : List β} {s s' : σ} :
    forEach f [] s = (.ok bs, s') ↔ bs = [] ∧ s = s' := by
  rw [forEach, pure_ok, eq_comm]

theorem forEach_cons_ok {f : α → Txn σ ε β} {a : α} {l : List α} {bs : List β} {s s' : σ} :
    forEach f (a :: l) s = (.ok bs, s') ↔
      ∃ b s₁ rest, f a s = (.ok b, s₁) ∧ forEach f l s₁ = (.ok rest, s') ∧ bs = b :: rest := by
  simp only [forEach, bind_ok, pure_ok]
  constructor
  · rintro ⟨b, s₁, hb, rest, s₂, hrest, rfl, rfl⟩
    exact ⟨b, s₁, rest, hb, hrest, rfl⟩
  · rintro ⟨b, s₁, rest, hb, hrest, rfl⟩
    exact ⟨b, s₁, hb, rest, s', hrest, rfl, rfl⟩

theorem forEach_ok_mem {f : α → Txn σ ε β} {l : List α} {bs : List β} {s s' : σ}
    (h : forEach f l s = (.ok bs, s')) : ∀ a ∈ l, ∃ s₁ b s₂, f a s₁ = (.ok b, s₂) := by
  induction l generalizing s bs with
  | nil => simp
  | cons a rest ih =>
    obtain ⟨b, s₁, bs', ha, hrest, -⟩ := forEach_cons_ok.mp h
    intro a' ha'
    rcases List.mem_cons.mp ha' with rfl | ha'
    · exact ⟨s, b, s₁, ha⟩
    · exact ih hrest a' ha'

/-! ## The transaction boundary -/

@[simp] theorem atomically_ok {m : Txn σ ε α} {a : α} {s s' : σ} :
    atomically m s = (.ok a, s') ↔ m s = (.ok a, s') := by
  unfold atomically
  rcases hm : m s with ⟨r, s₁⟩
  cases r <;> simp

/-- **A transaction that raises leaves the state it found.** -/
theorem atomically_error_state {m : Txn σ ε α} {e : ε} {s s' : σ}
    (h : atomically m s = (.error e, s')) : s' = s := by
  unfold atomically at h
  rcases hm : m s with ⟨r, s₁⟩
  rw [hm] at h
  cases r with
  | ok a => simp at h
  | error e' =>
    simp only [Prod.mk.injEq] at h
    exact h.2.symm

/-! ## Runs that raise -/

@[simp] theorem pure_error {a : α} {e : ε} {s s' : σ} :
    (pure a : Txn σ ε α) s = (.error e, s') ↔ False := by
  simp [pure]

@[simp] theorem raise_error {e e' : ε} {s s' : σ} :
    (raise e : Txn σ ε α) s = (.error e', s') ↔ e = e' ∧ s = s' := by
  simp [raise]

@[simp] theorem lift_error {r : Except ε α} {e : ε} {s s' : σ} :
    (lift r : Txn σ ε α) s = (.error e, s') ↔ r = .error e ∧ s = s' := by
  simp [lift]

@[simp] theorem query_error {f : σ → α} {e : ε} {s s' : σ} :
    (query f : Txn σ ε α) s = (.error e, s') ↔ False := by
  simp [query]

@[simp] theorem update_error {f : σ → σ} {e : ε} {s s' : σ} :
    (update f : Txn σ ε Unit) s = (.error e, s') ↔ False := by
  simp [update]

theorem ensure_error {c : Prop} [Decidable c] {e e' : ε} {s s' : σ} :
    (ensure c e : Txn σ ε Unit) s = (.error e', s') ↔ ¬c ∧ e = e' ∧ s = s' := by
  unfold ensure
  by_cases h : c <;> simp [h]

/-- A sequence raised in its first half or in its second. -/
theorem bind_error {m : Txn σ ε α} {f : α → Txn σ ε β} {e : ε} {s s' : σ} :
    (m >>= f) s = (.error e, s') ↔
      m s = (.error e, s') ∨ ∃ a s₁, m s = (.ok a, s₁) ∧ f a s₁ = (.error e, s') := by
  simp only [bind]
  rcases hm : m s with ⟨r, s₁⟩
  cases r with
  | error e' => simp
  | ok a =>
    constructor
    · intro h
      exact .inr ⟨a, s₁, rfl, h⟩
    · rintro (h | ⟨a', s₁', heq, h⟩)
      · simp at h
      · simp only [Prod.mk.injEq, Except.ok.injEq] at heq
        obtain ⟨rfl, rfl⟩ := heq
        exact h

/-! ## Two-state relations -/

/-- Every run of `m`, however it ends, relates the states by `R`. -/
def Always (R : σ → σ → Prop) (m : Txn σ ε α) : Prop :=
  ∀ s, R s (m s).2

namespace Always

variable {R : σ → σ → Prop}

theorem bind {m : Txn σ ε α} {f : α → Txn σ ε β} (ht : ∀ a b c, R a b → R b c → R a c)
    (hm : Always R m) (hf : ∀ a, Always R (f a)) : Always R (m >>= f) := by
  intro s
  have hs := hm s
  simp only [Bind.bind]
  rcases hrun : m s with ⟨r, s₁⟩
  rw [hrun] at hs
  cases r with
  | ok a => exact ht _ _ _ hs (hf a s₁)
  | error e => exact hs

end Always

/-! ## Programs that restore the state when they raise -/

/-- A run of `m` that raises leaves the state it found. -/
def Restores (m : Txn σ ε α) : Prop :=
  ∀ s e s', m s = (.error e, s') → s' = s

/-- A run of `m` writes nothing. -/
def Reads (m : Txn σ ε α) : Prop :=
  ∀ s, (m s).2 = s

namespace Restores

theorem of_reads {m : Txn σ ε α} (h : Reads m) : Restores m := by
  intro s e s' hm
  have hs := h s
  rw [hm] at hs
  exact hs

theorem atomically (m : Txn σ ε α) : Restores (Txn.atomically m) :=
  fun _ _ _ h => atomically_error_state h

theorem bind {m : Txn σ ε α} {f : α → Txn σ ε β} (hm : Reads m) (hf : ∀ a, Restores (f a)) :
    Restores (m >>= f) := by
  intro s e s' h
  have hs := hm s
  simp only [Bind.bind] at h
  rcases hrun : m s with ⟨r, s₁⟩
  rw [hrun] at h hs
  simp only at hs
  cases r with
  | ok a =>
    rw [← hs]
    exact hf a s₁ e s' h
  | error e' =>
    simp only [Prod.mk.injEq] at h
    rw [← h.2, hs]

/-- What is done with the result does not matter. -/
theorem map {m : Txn σ ε α} (hm : Restores m) (f : α → β) :
    Restores (m >>= fun a => pure (f a)) := by
  intro s e s' h
  simp only [Bind.bind, Pure.pure] at h
  rcases hrun : m s with ⟨r, s₁⟩
  rw [hrun] at h
  cases r with
  | ok a => simp at h
  | error e' =>
    simp only [Prod.mk.injEq] at h
    rw [← h.2]
    exact hm s e' s₁ hrun

end Restores

theorem Reads.bind {m : Txn σ ε α} {f : α → Txn σ ε β} (hm : Reads m) (hf : ∀ a, Reads (f a)) :
    Reads (m >>= f) := by
  intro s
  have hs := hm s
  simp only [Bind.bind]
  rcases hrun : m s with ⟨r, s₁⟩
  rw [hrun] at hs
  simp only at hs
  subst hs
  cases r with
  | ok a => exact hf a s₁
  | error e => rfl

/-- A program that writes nothing relates its states by every reflexive
relation. -/
theorem Always.of_reads {R : σ → σ → Prop} {m : Txn σ ε α} (hr : ∀ s, R s s) (hm : Reads m) :
    Always R m := by
  intro s
  rw [hm s]
  exact hr s

@[simp] theorem reads_pure (a : α) : Reads (pure a : Txn σ ε α) := fun _ => rfl

@[simp] theorem reads_lift (r : Except ε α) : Reads (lift r : Txn σ ε α) := fun _ => rfl

@[simp] theorem reads_query (f : σ → α) : Reads (query f : Txn σ ε α) := fun _ => rfl

@[simp] theorem reads_raise (e : ε) : Reads (raise e : Txn σ ε α) := fun _ => rfl

@[simp] theorem reads_ensure (c : Prop) [Decidable c] (e : ε) : Reads (ensure c e : Txn σ ε Unit) := by
  intro s
  unfold ensure
  split <;> rfl

end Txn

end Transaction
