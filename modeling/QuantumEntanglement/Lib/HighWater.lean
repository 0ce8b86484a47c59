import Mathlib

/-
  High-water marks — a table of ranks that never goes back

  Every key has a mark, a rank with the content it was reached with, or none
  yet. An offer is accepted when its rank is above the key's mark, or is the
  mark itself with the same content, and then becomes the mark.

  What is proved:
    1. `offer_new`, `offer_lower`, `offer_again`, `offer_above` — what an offer
       does, by its key's mark; `offer_other` — it leaves other keys alone.
    2. `accepted_pairwise` — of two offers accepted for one key, the later one
       ranks no lower, and has the same content where it has the same rank.
    3. `replay_append` — replaying a list of offers is replaying its parts;
       `replay_key` — a key's offers are answered as if there were no others.
-/

namespace HighWater

variable {κ ρ δ : Type} [DecidableEq κ] [LinearOrder ρ] [DecidableEq δ]

/-- What is offered for one key. -/
structure Offer (κ ρ δ : Type) where
  key : κ
  rank : ρ
  content : δ
  deriving DecidableEq

/-- The mark of every key. -/
abbrev Marks (κ ρ δ : Type) := κ → Option (ρ × δ)

/-- A mark lets this rank and content pass. -/
def passes (mark : Option (ρ × δ)) (rank : ρ) (content : δ) : Bool :=
  match mark with
  | none => true
  | some (r, c) => decide (r < rank) || (decide (r = rank) && decide (c = content))

/-- One offer: whether it was accepted, and the marks after it. -/
def offer (marks : Marks κ ρ δ) (o : Offer κ ρ δ) : Bool × Marks κ ρ δ :=
  if passes (marks o.key) o.rank o.content then
    (true, Function.update marks o.key (some (o.rank, o.content)))
  else (false, marks)

/-- The second offer ranks no lower, and equal ranks have equal contents. -/
def Follows (a b : Offer κ ρ δ) : Prop :=
  a.rank ≤ b.rank ∧ (a.rank = b.rank → a.content = b.content)

/-- Offers made one after another: their answers, and the marks at the end. -/
def replay (marks : Marks κ ρ δ) : List (Offer κ ρ δ) → List Bool × Marks κ ρ δ
  | [] => ([], marks)
  | o :: rest => ((offer marks o).1 :: (replay (offer marks o).2 rest).1, (replay (offer marks o).2 rest).2)

/-- The offers that were accepted, in order. -/
def accepted (marks : Marks κ ρ δ) : List (Offer κ ρ δ) → List (Offer κ ρ δ)
  | [] => []
  | o :: rest =>
    if (offer marks o).1 then o :: accepted (offer marks o).2 rest else accepted (offer marks o).2 rest

variable {marks : Marks κ ρ δ} {o : Offer κ ρ δ}

/-! ## One offer -/

theorem offer_new (h : marks o.key = none) :
    offer marks o = (true, Function.update marks o.key (some (o.rank, o.content))) := by
  rw [offer, h, if_pos (by rfl)]

theorem offer_lower {r : ρ} {c : δ} (h : marks o.key = some (r, c)) (hlt : o.rank < r) :
    offer marks o = (false, marks) := by
  rw [offer, h, if_neg]
  simp [passes, not_lt_of_gt hlt, ne_of_gt hlt]

theorem offer_above {r : ρ} {c : δ} (h : marks o.key = some (r, c)) (hlt : r < o.rank) :
    offer marks o = (true, Function.update marks o.key (some (o.rank, o.content))) := by
  rw [offer, h, if_pos]
  simp [passes, hlt]

/-- A mark offered again is written again, which changes nothing. -/
theorem offer_again {c : δ} (h : marks o.key = some (o.rank, c)) :
    offer marks o = (decide (c = o.content), marks) := by
  by_cases hc : c = o.content
  · have hupdate := Function.update_eq_self o.key marks
    rw [h, hc] at hupdate
    rw [offer, h, if_pos (by simp [passes, hc]), hupdate, decide_eq_true hc]
  · rw [offer, h, if_neg (by simp [passes, hc]), decide_eq_false hc]

theorem offer_true (h : (offer marks o).1 = true) :
    (offer marks o).2 = Function.update marks o.key (some (o.rank, o.content)) := by
  unfold offer at h ⊢
  split at h
  next hpasses => rw [if_pos hpasses]
  · simp at h

theorem offer_false (h : (offer marks o).1 = false) : (offer marks o).2 = marks := by
  unfold offer at h ⊢
  split at h
  · simp at h
  next hpasses => rw [if_neg hpasses]

/-- An offer leaves the marks of other keys as they are. -/
theorem offer_other {k : κ} (hk : k ≠ o.key) : (offer marks o).2 k = marks k := by
  cases h : (offer marks o).1 with
  | true => rw [offer_true h, Function.update_of_ne hk]
  | false => rw [offer_false h]

/-- An accepted offer is its key's mark. -/
theorem offer_same (h : (offer marks o).1 = true) :
    (offer marks o).2 o.key = some (o.rank, o.content) := by
  rw [offer_true h, Function.update_self]

theorem passes_some {r rank : ρ} {c content : δ} (h : passes (some (r, c)) rank content = true) :
    r ≤ rank ∧ (r = rank → c = content) := by
  simp only [passes, Bool.or_eq_true, decide_eq_true_eq, Bool.and_eq_true] at h
  rcases h with hlt | ⟨heq, hcontent⟩
  · exact ⟨le_of_lt hlt, fun heq => absurd heq (ne_of_lt hlt)⟩
  · exact ⟨le_of_eq heq, fun _ => hcontent⟩

/-- What was accepted was let pass by the mark. -/
theorem offer_passes (h : (offer marks o).1 = true) : passes (marks o.key) o.rank o.content = true := by
  unfold offer at h
  split at h
  next hpasses => exact hpasses
  · simp at h

/-! ## Offers made one after another -/

/-- What is accepted for a key with a mark follows the mark. -/
theorem accepted_follows {k : κ} {r : ρ} {c : δ} (hmark : marks k = some (r, c))
    (offers : List (Offer κ ρ δ)) :
    ∀ o ∈ accepted marks offers, o.key = k → Follows ⟨k, r, c⟩ o := by
  induction offers generalizing marks r c with
  | nil => simp [accepted]
  | cons first rest ih =>
    intro o ho hkey
    -- a mark only ever goes up, so what follows the new one follows the old
    have hnext : ∃ r' c', (offer marks first).2 k = some (r', c') ∧
        Follows (⟨k, r, c⟩ : Offer κ ρ δ) ⟨k, r', c'⟩ := by
      by_cases hk : k = first.key
      · cases hanswer : (offer marks first).1 with
        | true =>
          have hpasses := offer_passes hanswer
          rw [← hk, hmark] at hpasses
          refine ⟨first.rank, first.content, ?_, passes_some hpasses⟩
          rw [hk]
          exact offer_same hanswer
        | false =>
          rw [offer_false hanswer]
          exact ⟨r, c, hmark, le_refl _, fun _ => rfl⟩
      · rw [offer_other hk]
        exact ⟨r, c, hmark, le_refl _, fun _ => rfl⟩
    obtain ⟨r', c', hmark', hle, hsame⟩ := hnext
    have hrest : ∀ o ∈ accepted (offer marks first).2 rest, o.key = k →
        Follows (⟨k, r, c⟩ : Offer κ ρ δ) o := by
      intro o ho hkey
      obtain ⟨hle', hsame'⟩ := ih hmark' o ho hkey
      refine ⟨le_trans hle hle', fun heq => ?_⟩
      have heq : r = o.rank := heq
      have hr : r = r' := le_antisymm hle (le_trans hle' (le_of_eq heq.symm))
      exact (hsame hr).trans (hsame' (hr.symm.trans heq))
    unfold accepted at ho
    split at ho
    next hanswer =>
      rcases List.mem_cons.mp ho with rfl | hlater
      · have hpasses := offer_passes hanswer
        rw [hkey, hmark] at hpasses
        exact passes_some hpasses
      · exact hrest o hlater hkey
    · exact hrest o ho hkey

/-- **Of two offers accepted for one key the later one ranks no lower**, and
has the same content where it has the same rank. -/
theorem accepted_pairwise (marks : Marks κ ρ δ) (offers : List (Offer κ ρ δ)) :
    (accepted marks offers).Pairwise (fun a b => a.key = b.key → Follows a b) := by
  induction offers generalizing marks with
  | nil => exact .nil
  | cons first rest ih =>
    unfold accepted
    split
    next hanswer =>
      refine List.Pairwise.cons (fun o ho hkey => ?_) (ih _)
      exact accepted_follows (offer_same hanswer) rest o ho hkey.symm
    · exact ih _

theorem replay_append (marks : Marks κ ρ δ) (offers offers' : List (Offer κ ρ δ)) :
    replay marks (offers ++ offers') =
      ((replay marks offers).1 ++ (replay (replay marks offers).2 offers').1,
        (replay (replay marks offers).2 offers').2) := by
  induction offers generalizing marks with
  | nil => rfl
  | cons first rest ih => simp only [List.cons_append, replay, ih]

/-- An offer's answer depends on its own key's mark. -/
theorem offer_congr {marks' : Marks κ ρ δ} (h : marks o.key = marks' o.key) :
    (offer marks o).1 = (offer marks' o).1 ∧ (offer marks o).2 o.key = (offer marks' o).2 o.key := by
  unfold offer
  rw [h]
  split
  · exact ⟨rfl, by simp only [Function.update_self]⟩
  · exact ⟨rfl, h⟩

/-- Offers for one key are answered by its mark. -/
theorem replay_congr {k : κ} {marks' : Marks κ ρ δ} (h : marks k = marks' k) {offers : List (Offer κ ρ δ)}
    (hkeys : ∀ o ∈ offers, o.key = k) : (replay marks offers).1 = (replay marks' offers).1 := by
  induction offers generalizing marks marks' with
  | nil => rfl
  | cons first rest ih =>
    obtain rfl := hkeys first (by simp)
    obtain ⟨hanswer, hmark⟩ := offer_congr h
    simp only [replay]
    rw [hanswer, ih hmark (fun o ho => hkeys o (by simp [ho]))]

/-- **The offers for other keys do not show** in the answers a key's get. -/
theorem replay_key (k : κ) (marks : Marks κ ρ δ) (offers : List (Offer κ ρ δ)) :
    (replay marks (offers.filter (fun o => o.key = k))).1 =
      ((offers.zip (replay marks offers).1).filter (fun p => p.1.key = k)).map Prod.snd := by
  induction offers generalizing marks with
  | nil => rfl
  | cons first rest ih =>
    simp only [replay, List.zip_cons_cons, List.filter_cons]
    by_cases hk : first.key = k
    · simp only [hk, decide_true, if_true, replay, List.map_cons]
      rw [ih]
    · simp only [hk, decide_false, Bool.false_eq_true, if_false]
      rw [← ih]
      apply replay_congr (k := k)
      · exact (offer_other (Ne.symm hk)).symm
      · intro o ho
        simpa using (List.mem_filter.mp ho).2

/-- The accepted offers are those with the answer `true`. -/
theorem accepted_eq (marks : Marks κ ρ δ) (offers : List (Offer κ ρ δ)) :
    accepted marks offers =
      ((offers.zip (replay marks offers).1).filter (fun p => p.2)).map Prod.fst := by
  induction offers generalizing marks with
  | nil => rfl
  | cons first rest ih =>
    simp only [accepted, replay, List.zip_cons_cons, List.filter_cons]
    cases (offer marks first).1 <;> simp [ih]

end HighWater
