import Mathlib

/-
  Greedy filling — items taken in order while they fit a budget

  Items are considered once, in the order they are given; one that fits what
  is left of the budget is taken, and one that does not is left out, which
  keeps the room for smaller ones behind it.

  What is proved:
    1. `fill_used`, `fill_le` — what is used is the weight of what was taken,
       and is within the budget.
    2. `fill_perm` — taken and left out together are the items.
    3. `fill_of_fits` — a front part that fits as a whole is taken as a whole.
    4. `fill_turn` — each item is taken at its turn exactly if it fits then.
    5. `front_of_pairwise` — what is ordered by a property has a front part.
-/

namespace GreedyFill

variable {α M : Type} [AddCommMonoid M] [LinearOrder M]

/-- What was taken, what was left out, and the weight taken. -/
structure Packing (α M : Type) where
  selected : List α
  omitted : List α
  used : M

variable (weight : α → M) (budget : M)

/-- One item's turn. -/
def put (p : Packing α M) (a : α) : Packing α M :=
  if p.used + weight a ≤ budget then
    { p with selected := p.selected ++ [a], used := p.used + weight a }
  else { p with omitted := p.omitted ++ [a] }

def fill (items : List α) : Packing α M := items.foldl (put weight budget) ⟨[], [], 0⟩

variable {weight budget}

theorem fill_snoc (items : List α) (a : α) :
    fill weight budget (items ++ [a]) = put weight budget (fill weight budget items) a := by
  simp [fill, List.foldl_append]

/-- **What is used** is the weight of what was taken. -/
theorem fill_used (items : List α) :
    (fill weight budget items).used = ((fill weight budget items).selected.map weight).sum := by
  induction items using List.reverseRecOn with
  | nil => rfl
  | append_singleton items a ih =>
    rw [fill_snoc, put]
    split
    · simp [ih]
    · exact ih

/-- **What is used** is within the budget. -/
theorem fill_le (hbudget : 0 ≤ budget) (items : List α) :
    (fill weight budget items).used ≤ budget := by
  induction items using List.reverseRecOn with
  | nil => exact hbudget
  | append_singleton items a ih =>
    rw [fill_snoc, put]
    split
    · assumption
    · exact ih

/-- **Taken and left out** together are the items. -/
theorem fill_perm (items : List α) :
    ((fill weight budget items).selected ++ (fill weight budget items).omitted).Perm items := by
  induction items using List.reverseRecOn with
  | nil => exact .refl _
  | append_singleton items a ih =>
    rw [fill_snoc, put]
    split
    · show ((fill weight budget items).selected ++ [a] ++ _).Perm _
      refine List.Perm.trans ?_ (ih.append_right [a])
      rw [List.append_assoc, List.append_assoc]
      exact List.perm_append_comm.append_left _
    · show (_ ++ ((fill weight budget items).omitted ++ [a])).Perm _
      rw [← List.append_assoc]
      exact ih.append_right [a]

/-- The weight of a front part is at most that of the whole. -/
theorem sum_le_sum_append [IsOrderedAddMonoid M] (hweight : ∀ a, 0 ≤ weight a) (items more : List α) :
    (items.map weight).sum ≤ ((items ++ more).map weight).sum := by
  rw [List.map_append, List.sum_append]
  refine le_add_of_nonneg_right (List.sum_nonneg ?_)
  simp only [List.mem_map]
  rintro _ ⟨a, -, rfl⟩
  exact hweight a

/-- **A front part that fits** as a whole is taken as a whole. -/
theorem fill_of_fits [IsOrderedAddMonoid M] (hweight : ∀ a, 0 ≤ weight a) {items : List α}
    (hfits : (items.map weight).sum ≤ budget) :
    fill weight budget items = ⟨items, [], (items.map weight).sum⟩ := by
  induction items using List.reverseRecOn with
  | nil => rfl
  | append_singleton items a ih =>
    have hsum : ((items ++ [a]).map weight).sum = (items.map weight).sum + weight a := by simp
    rw [fill_snoc, ih ((sum_le_sum_append hweight items [a]).trans hfits), put,
      if_pos (hsum.symm.trans_le hfits), hsum]

/-- Later turns add behind what was taken and what was left out. -/
theorem fill_append (items more : List α) :
    ∃ taken left, (fill weight budget (items ++ more)).selected =
        (fill weight budget items).selected ++ taken ∧
      (fill weight budget (items ++ more)).omitted = (fill weight budget items).omitted ++ left := by
  induction more using List.reverseRecOn with
  | nil => exact ⟨[], [], by simp, by simp⟩
  | append_singleton more a ih =>
    obtain ⟨taken, left, htaken, hleft⟩ := ih
    rw [← List.append_assoc, fill_snoc, put]
    split
    · exact ⟨taken ++ [a], left, by simp [htaken], hleft⟩
    · exact ⟨taken, left ++ [a], htaken, by simp [hleft]⟩

/-- **Each item's turn**: it is taken next exactly if it fits what is left, and
left out next otherwise. -/
theorem fill_turn (before : List α) (a : α) (after : List α) :
    ((fill weight budget before).used + weight a ≤ budget ∧
      ∃ taken, (fill weight budget (before ++ a :: after)).selected =
        (fill weight budget before).selected ++ a :: taken) ∨
    (budget < (fill weight budget before).used + weight a ∧
      ∃ left, (fill weight budget (before ++ a :: after)).omitted =
        (fill weight budget before).omitted ++ a :: left) := by
  obtain ⟨taken, left, htaken, hleft⟩ :=
    @fill_append _ _ _ _ weight budget (before ++ [a]) after
  rw [List.append_assoc, List.singleton_append, fill_snoc, put] at htaken hleft
  by_cases hfits : (fill weight budget before).used + weight a ≤ budget
  · rw [if_pos hfits] at htaken
    exact .inl ⟨hfits, taken, by simpa using htaken⟩
  · rw [if_neg hfits] at hleft
    exact .inr ⟨not_le.mp hfits, left, by simpa using hleft⟩

/-- In a list where nothing that has `p` comes after something that has not,
those that have it are the front part. -/
theorem front_of_pairwise {p : α → Bool} {items : List α}
    (h : items.Pairwise (fun a b => p b = true → p a = true)) :
    items = items.filter p ++ items.filter (fun a => !p a) := by
  induction items with
  | nil => rfl
  | cons a rest ih =>
    obtain ⟨hhead, htail⟩ := List.pairwise_cons.mp h
    by_cases ha : p a = true
    · simp only [List.filter_cons, ha, if_true, Bool.not_true, Bool.false_eq_true, if_false,
        List.cons_append]
      rw [← ih htail]
    · have hnone : rest.filter p = [] := by
        refine List.filter_eq_nil_iff.mpr (fun b hb hp => ha (hhead b hb hp))
      have hall : rest.filter (fun b => !p b) = rest := by
        refine List.filter_eq_self.mpr (fun b hb => ?_)
        simpa using fun hp => ha (hhead b hb hp)
      simp [List.filter_cons, ha, hnone, hall]

end GreedyFill
