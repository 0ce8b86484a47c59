import QuantumEntanglement.Lib.Checked

/-
  Descent — recognisers over tokens, and items with a separator

  A recogniser takes a stretch of tokens off the front and leaves the rest. A
  list of items with a separator is recognised by a loop that looks one token
  ahead. The fuel of the loop is the number of tokens that are left, and since
  an item takes a token at least, it never runs out; past that, the loop is
  read as a right recursion.

  What is proved:
    1. `separated_more`, `separated_one` — the two ways on.
    2. `separated_cases` — there is no third one.
    3. `separated_sound` — what is taken is a list of items.
-/

namespace Descent

open Checked

variable {τ ε : Type}

/-- Takes a stretch off the front and leaves the rest, or raises. -/
abbrev Recogniser (τ ε : Type) : Type := List τ → Except ε (List τ)

/-- Each run takes a token at least. -/
def Takes (r : Recogniser τ ε) : Prop := ∀ {ts rest}, r ts = .ok rest → rest.length < ts.length

variable [DecidableEq τ]

/-- `while peek() == op: take(); item()`. -/
def repeated (op : τ) (item : Recogniser τ ε) : Nat → Recogniser τ ε
  | 0, ts => .ok ts
  | _ + 1, [] => .ok []
  | fuel + 1, t :: rest => if t = op then item rest >>= repeated op item fuel else .ok (t :: rest)

/-- An item, and more of them, each after a separator. -/
def separated (op : τ) (item : Recogniser τ ε) : Recogniser τ ε :=
  fun ts => item ts >>= fun rest => repeated op item rest.length rest

variable {op : τ} {item : Recogniser τ ε} {ts rest us : List τ}

/-- The fuel does not run out. -/
theorem repeated_fuel (h : Takes item) {fuel : Nat} (hfuel : ts.length ≤ fuel) :
    repeated op item fuel ts = repeated op item ts.length ts := by
  induction fuel using Nat.strongRecOn generalizing ts with
  | ind fuel ih =>
    cases ts with
    | nil => cases fuel <;> rfl
    | cons t rest =>
      rw [List.length_cons] at hfuel
      obtain ⟨n, rfl⟩ : ∃ n, fuel = n + 1 := ⟨fuel - 1, by omega⟩
      rw [List.length_cons, repeated, repeated]
      split
      · cases hitem : item rest with
        | error e => rfl
        | ok left =>
          have hshort := h hitem
          show repeated op item n left = repeated op item rest.length left
          rw [ih n (by omega) (by omega), ih rest.length (by omega) (by omega)]
      · rfl

/-- A separator, and the loop goes on as from the start. -/
theorem repeated_op (h : Takes item) : repeated op item (op :: us).length (op :: us) = separated op item us := by
  rw [List.length_cons, repeated, if_pos rfl, separated]
  cases hitem : item us with
  | error e => rfl
  | ok left => exact repeated_fuel h (Nat.le_of_lt (h hitem))

/-- No separator, and the loop ends. -/
theorem repeated_stop (h : rest.head? ≠ some op) : repeated op item rest.length rest = .ok rest := by
  cases rest with
  | nil => rfl
  | cons t rest => rw [List.length_cons, repeated, if_neg (fun heq => h (by rw [heq]; rfl))]

theorem separated_more (h : Takes item) (hitem : item ts = .ok (op :: us)) :
    separated op item ts = separated op item us := by
  rw [separated, hitem]
  exact repeated_op h

theorem separated_one (hitem : item ts = .ok rest) (h : rest.head? ≠ some op) :
    separated op item ts = .ok rest := by
  rw [separated, hitem]
  exact repeated_stop h

/-- **One item, or an item, a separator and the same again.** -/
theorem separated_cases (h : Takes item) (hrun : separated op item ts = .ok rest) :
    item ts = .ok rest ∨ ∃ us, item ts = .ok (op :: us) ∧ separated op item us = .ok rest := by
  obtain ⟨left, hitem, hloop⟩ := except_bind_ok.mp hrun
  by_cases hop : left.head? = some op
  · obtain ⟨us, rfl⟩ : ∃ us, left = op :: us := by
      cases left with
      | nil => cases hop
      | cons t us => exact ⟨us, by rw [Option.some.inj hop]⟩
    rw [repeated_op h] at hloop
    exact .inr ⟨us, hitem, hloop⟩
  · rw [repeated_stop hop] at hloop
    obtain rfl := Except.ok.inj hloop
    exact .inl hitem

theorem separated_takes (h : Takes item) : Takes (separated op item) := by
  intro ts rest hrun
  induction hn : ts.length using Nat.strongRecOn generalizing ts with
  | ind n ih =>
    obtain hone | ⟨us, hitem, hmore⟩ := separated_cases h hrun
    · have hlt := h hone
      omega
    · have hlt := h hitem
      rw [List.length_cons] at hlt
      have hrest := ih us.length (by omega) hmore rfl
      omega

/-- **What is taken is a list of items.** `V` is what is known of every token. -/
theorem separated_sound {V : τ → Prop} {P Q : List τ → Prop} (h : Takes item)
    (hitem : ∀ {ts rest}, (∀ t ∈ ts, V t) → item ts = .ok rest → ∃ pre, P pre ∧ ts = pre ++ rest)
    (hone : ∀ {pre}, P pre → Q pre) (hmore : ∀ {pre next}, P pre → Q next → Q (pre ++ op :: next))
    (hv : ∀ t ∈ ts, V t) (hrun : separated op item ts = .ok rest) : ∃ pre, Q pre ∧ ts = pre ++ rest := by
  induction hn : ts.length using Nat.strongRecOn generalizing ts with
  | ind n ih =>
    obtain hsingle | ⟨us, hfirst, hagain⟩ := separated_cases h hrun
    · obtain ⟨pre, hp, heq⟩ := hitem hv hsingle
      exact ⟨pre, hone hp, heq⟩
    · obtain ⟨pre, hp, rfl⟩ := hitem hv hfirst
      have hvus : ∀ t ∈ us, V t := by
        intro t ht
        exact hv t (List.mem_append_right _ (List.mem_cons_of_mem _ ht))
      have hlength : us.length < n := by
        rw [List.length_append, List.length_cons] at hn
        omega
      obtain ⟨next, hq, rfl⟩ := ih us.length hlength hvus hagain rfl
      exact ⟨pre ++ op :: next, hmore hp hq, by rw [List.append_assoc, List.cons_append]⟩

end Descent
