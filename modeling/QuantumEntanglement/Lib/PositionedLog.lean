import Mathlib

/-
  Positioned logs — the prefix of an append-only log at a position

  The rows of a log carry positions that increase in the order they were
  added. A reader that has folded the rows up to a position p holds the fold
  of `upTo p`; what is added later lies beyond p and changes nothing the
  reader holds.

  What is proved:
    1. `upTo_append` — rows beyond p do not change the prefix at p.
    2. `upTo_next` — reading the next row extends the prefix by that row.
    3. `le_of_next_none` — with no next row the prefix is the whole log.
    4. `upTo_beyond`, `beyond_next` — a log is its prefix and the rows beyond
       it, the next row first.
-/

namespace PositionedLog

variable {ρ : Type} (pos : ρ → Nat)

/-- Positions increase in the order the rows were added. -/
def Ordered (rows : List ρ) : Prop := rows.Pairwise (fun a b => pos a < pos b)

/-- The rows up to a position. -/
def upTo (p : Nat) (rows : List ρ) : List ρ := rows.filter (fun r => pos r ≤ p)

/-- The first row beyond a position. -/
def next (p : Nat) (rows : List ρ) : Option ρ := rows.find? (fun r => p < pos r)

/-- The rows beyond a position. -/
def beyond (p : Nat) (rows : List ρ) : List ρ := rows.filter (fun r => p < pos r)

variable {pos}

/-- **Rows beyond a position do not change the prefix at it.** -/
theorem upTo_append {p : Nat} {rows more : List ρ} (h : ∀ r ∈ more, p < pos r) :
    upTo pos p (rows ++ more) = upTo pos p rows := by
  have hnone : more.filter (fun r => pos r ≤ p) = [] := by
    rw [List.filter_eq_nil_iff]
    intro r hr
    have hlt := h r hr
    simp only [decide_eq_true_eq]
    omega
  rw [upTo, List.filter_append, hnone, List.append_nil, upTo]

theorem upTo_all {p : Nat} {rows : List ρ} (h : ∀ r ∈ rows, pos r ≤ p) : upTo pos p rows = rows := by
  rw [upTo, List.filter_eq_self]
  intro r hr
  simpa using h r hr

theorem mem_upTo {p : Nat} {rows : List ρ} {r : ρ} :
    r ∈ upTo pos p rows ↔ r ∈ rows ∧ pos r ≤ p := by
  simp [upTo]

/-- **Reading the next row extends the prefix by that row.** -/
theorem upTo_next {p : Nat} {rows : List ρ} {r : ρ} (ho : Ordered pos rows)
    (h : next pos p rows = some r) : upTo pos (pos r) rows = upTo pos p rows ++ [r] := by
  induction rows with
  | nil => simp [next] at h
  | cons x rest ih =>
    have hx : ∀ y ∈ rest, pos x < pos y := (List.pairwise_cons.mp ho).1
    by_cases hp : p < pos x
    · -- x is the next row, and everything after it is further on
      have hr : x = r := by
        rw [next, List.find?_cons_of_pos (by simpa using hp)] at h
        exact Option.some.inj h
      subst hr
      have hnone : ∀ q ≤ pos x, rest.filter (fun y => pos y ≤ q) = [] := by
        intro q hq
        rw [List.filter_eq_nil_iff]
        intro y hy
        have hlt := hx y hy
        simp only [decide_eq_true_eq]
        omega
      simp only [upTo, List.filter_cons, hnone (pos x) (Nat.le_refl _), hnone p (Nat.le_of_lt hp),
        Nat.le_refl, decide_true, if_true, Nat.not_le.mpr hp, decide_false, Bool.false_eq_true,
        if_false, List.nil_append]
    · have hrest : next pos p rest = some r := by
        rw [next, List.find?_cons_of_neg (by simpa using hp)] at h
        exact h
      have hlt : p < pos r := by simpa using List.find?_some hrest
      have hle : pos x ≤ pos r := by omega
      have hstep := ih (List.pairwise_cons.mp ho).2 hrest
      simp only [upTo] at hstep
      simp only [upTo, List.filter_cons, hle, Nat.not_lt.mp hp, decide_true, if_true, hstep,
        List.cons_append]

theorem next_mem {p : Nat} {rows : List ρ} {r : ρ} (h : next pos p rows = some r) : r ∈ rows :=
  List.mem_of_find?_eq_some h

/-- **With no next row the prefix is the whole log.** -/
theorem le_of_next_none {p : Nat} {rows : List ρ} (h : next pos p rows = none) :
    ∀ r ∈ rows, pos r ≤ p := by
  intro r hr
  have hnot := List.find?_eq_none.mp h r hr
  simpa using hnot

/-- The next row is the first of those beyond. -/
theorem beyond_next {p : Nat} {rows : List ρ} {r : ρ} (ho : Ordered pos rows)
    (h : next pos p rows = some r) : beyond pos p rows = r :: beyond pos (pos r) rows := by
  induction rows with
  | nil => simp [next] at h
  | cons x rest ih =>
    have hx : ∀ y ∈ rest, pos x < pos y := (List.pairwise_cons.mp ho).1
    have hall : ∀ q ≤ pos x, rest.filter (fun y => q < pos y) = rest := by
      intro q hq
      rw [List.filter_eq_self]
      intro y hy
      have hlt := hx y hy
      simp only [decide_eq_true_eq]
      omega
    by_cases hp : p < pos x
    · have hr : x = r := by
        rw [next, List.find?_cons_of_pos (by simpa using hp)] at h
        exact Option.some.inj h
      subst hr
      simp only [beyond, List.filter_cons, hall (pos x) (Nat.le_refl _), hall p (Nat.le_of_lt hp), hp,
        decide_true, if_true, Nat.lt_irrefl, decide_false, Bool.false_eq_true, if_false]
    · have hrest : next pos p rest = some r := by
        rw [next, List.find?_cons_of_neg (by simpa using hp)] at h
        exact h
      have hlt : p < pos r := by simpa using List.find?_some hrest
      have hle : ¬pos r < pos x := by omega
      have hstep := ih (List.pairwise_cons.mp ho).2 hrest
      simp only [beyond] at hstep
      simp only [beyond, List.filter_cons, hle, hp, decide_false, Bool.false_eq_true, if_false, hstep]

/-- **A log is its prefix at a position and the rows beyond.** -/
theorem upTo_beyond {p : Nat} {rows : List ρ} (ho : Ordered pos rows) :
    rows = upTo pos p rows ++ beyond pos p rows := by
  induction rows with
  | nil => rfl
  | cons x rest ih =>
    have hx : ∀ y ∈ rest, pos x < pos y := (List.pairwise_cons.mp ho).1
    have hrest := ih (List.pairwise_cons.mp ho).2
    by_cases hp : pos x ≤ p
    · simp only [upTo, beyond, List.filter_cons, hp, Nat.not_lt.mpr hp, decide_true, decide_false,
        if_true, Bool.false_eq_true, if_false, List.cons_append] at hrest ⊢
      exact congrArg (x :: ·) hrest
    · have hnone : rest.filter (fun y => pos y ≤ p) = [] := by
        rw [List.filter_eq_nil_iff]
        intro y hy
        have hlt := hx y hy
        simp only [decide_eq_true_eq]
        omega
      have hlt : p < pos x := by omega
      simp only [upTo, beyond, List.filter_cons, hp, hlt, hnone, decide_true, decide_false, if_true,
        Bool.false_eq_true, if_false, List.nil_append] at hrest ⊢
      exact congrArg (x :: ·) hrest

end PositionedLog
