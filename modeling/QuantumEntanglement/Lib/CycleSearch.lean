import Mathlib

/-
  Three colours — depth-first search for a cycle

  `next` gives the nodes a node points to. A node is being visited (on the
  path from where the search began), visited, or neither. Meeting a node on
  the path is a cycle; a visited node is not visited again. The fuel bounds
  the length of a path.

  What is proved:
    1. `search_ok` — a search that ends finds every node it went over to be
       free of cycles, as deep as it goes.
    2. `search_cycle` — where it reports a cycle there is one.
    3. `search_total` — over a set of nodes that `next` stays in, a path is no
       longer than the set, so the fuel is enough.
    4. `search_iff` — so it succeeds exactly on sets without cycles.
-/

namespace CycleSearch

variable {α : Type} [DecidableEq α] (next : α → List α)

inductive Failure (α : Type) where
  | cycle (a : α)
  | exhausted
  deriving DecidableEq

/-- `b` is one `a` points to. -/
def Below (b a : α) : Prop := b ∈ next a

/-- No node is reached from itself. -/
def Acyclic : Prop := ∀ a, ¬Relation.TransGen (Below next) a a

/-- Visit a node: what is visited from then on. -/
def visit : Nat → List α → List α → α → Except (Failure α) (List α)
  | 0, _, _, _ => .error .exhausted
  | fuel + 1, path, visited, a =>
    if a ∈ path then .error (.cycle a)
    else if a ∈ visited then .ok visited
    else do
      let visited ← (next a).foldlM (fun visited b => visit fuel (a :: path) visited b) visited
      .ok (a :: visited)

/-- Visit all of `nodes`. -/
def search (fuel : Nat) (nodes : List α) : Except (Failure α) (List α) :=
  nodes.foldlM (fun visited a => visit next fuel [] visited a) []

variable {next}

/-! ## What is visited has no cycle below it -/

/-- Everything in `visited` is free of cycles, as deep as it goes. -/
def Cleared (next : α → List α) (visited : List α) : Prop := ∀ a ∈ visited, Acc (Below next) a

omit [DecidableEq α] in
/-- A loop whose every round clears its node and forgets nothing. -/
theorem foldlM_cleared {f : List α → α → Except (Failure α) (List α)}
    (hf : ∀ visited a visited', Cleared next visited → f visited a = .ok visited' →
      Cleared next visited' ∧ a ∈ visited' ∧ visited ⊆ visited') :
    ∀ (nodes visited visited' : List α), Cleared next visited → nodes.foldlM f visited = .ok visited' →
      Cleared next visited' ∧ nodes ⊆ visited' ∧ visited ⊆ visited' := by
  intro nodes
  induction nodes with
  | nil =>
    intro visited visited' hcleared h
    obtain rfl : visited = visited' := Except.ok.inj h
    exact ⟨hcleared, List.nil_subset _, fun _ => id⟩
  | cons a rest ih =>
    intro visited visited' hcleared h
    rw [List.foldlM_cons] at h
    cases hstep : f visited a with
    | error e =>
      rw [hstep] at h
      cases h
    | ok middle =>
      rw [hstep] at h
      obtain ⟨hmiddle, ha, hsub⟩ := hf visited a middle hcleared hstep
      obtain ⟨hlast, hrest, hsub'⟩ := ih middle visited' hmiddle h
      refine ⟨hlast, ?_, fun b hb => hsub' (hsub hb)⟩
      exact List.cons_subset.mpr ⟨hsub' ha, hrest⟩

/-- **A visited node** has no cycle below it. -/
theorem visit_cleared : ∀ (fuel : Nat) (path visited : List α) (a : α) (visited' : List α),
    Cleared next visited → visit next fuel path visited a = .ok visited' →
      Cleared next visited' ∧ a ∈ visited' ∧ visited ⊆ visited' := by
  intro fuel
  induction fuel with
  | zero =>
    intro path visited a visited' _ h
    cases h
  | succ fuel ih =>
    intro path visited a visited' hcleared h
    unfold visit at h
    split at h
    · cases h
    · split at h
      next hvisited =>
        obtain rfl : visited = visited' := Except.ok.inj h
        exact ⟨hcleared, hvisited, fun _ => id⟩
      · cases hloop : (next a).foldlM (fun visited b => visit next fuel (a :: path) visited b) visited with
        | error e =>
          rw [hloop] at h
          cases h
        | ok middle =>
          rw [hloop] at h
          obtain rfl : a :: middle = visited' := Except.ok.inj h
          obtain ⟨hmiddle, hnext, hsub⟩ := foldlM_cleared (fun v b v' => ih (a :: path) v b v')
            (next a) visited middle hcleared hloop
          refine ⟨?_, List.mem_cons_self, fun b hb => List.mem_cons_of_mem _ (hsub hb)⟩
          intro b hb
          rcases List.mem_cons.mp hb with rfl | hb
          · exact Acc.intro b (fun c hc => hmiddle c (hnext hc))
          · exact hmiddle b hb

/-- **A search that ends** found every node free of cycles. -/
theorem search_ok {fuel : Nat} {nodes visited : List α} (h : search next fuel nodes = .ok visited) :
    ∀ a ∈ nodes, Acc (Below next) a := by
  have hempty : Cleared next [] := by simp [Cleared]
  obtain ⟨hcleared, hsub, -⟩ := foldlM_cleared (fun v a v' => visit_cleared fuel [] v a v') nodes []
    visited hempty h
  exact fun a ha => hcleared a (hsub ha)

/-! ## A reported cycle is one -/

omit [DecidableEq α] in
/-- What a loop reports, one of its rounds reported. -/
theorem foldlM_error {β : Type} {ε : Type} {f : β → α → Except ε β} {e : ε} :
    ∀ (nodes : List α) (b : β), nodes.foldlM f b = .error e → ∃ b', ∃ a ∈ nodes, f b' a = .error e := by
  intro nodes
  induction nodes with
  | nil => exact fun b h => nomatch h
  | cons a rest ih =>
    intro b h
    rw [List.foldlM_cons] at h
    cases hstep : f b a with
    | error e' =>
      rw [hstep] at h
      obtain rfl : e' = e := Except.error.inj h
      exact ⟨b, a, List.mem_cons_self, hstep⟩
    | ok b' =>
      rw [hstep] at h
      obtain ⟨b'', c, hc, herror⟩ := ih b' h
      exact ⟨b'', c, List.mem_cons_of_mem _ hc, herror⟩

/-- A cycle met on the path the search took. -/
theorem visit_cycle : ∀ (fuel : Nat) (path visited : List α) (a c : α),
    (∀ u ∈ path, Relation.TransGen (Below next) a u) →
      visit next fuel path visited a = .error (.cycle c) → ¬Acyclic next := by
  intro fuel
  induction fuel with
  | zero =>
    intro path visited a c _ h
    cases h
  | succ fuel ih =>
    intro path visited a c hpath h
    unfold visit at h
    split at h
    next hmem => exact fun hacyclic => hacyclic a (hpath a hmem)
    · split at h
      · cases h
      · cases hloop : (next a).foldlM (fun visited b => visit next fuel (a :: path) visited b) visited with
        | ok middle =>
          rw [hloop] at h
          cases h
        | error e =>
          rw [hloop] at h
          obtain rfl : e = .cycle c := Except.error.inj h
          obtain ⟨visited', b, hb, hvisit⟩ := foldlM_error _ _ hloop
          refine ih (a :: path) visited' b c ?_ hvisit
          have hbelow : Relation.TransGen (Below next) b a := .single hb
          intro u hu
          rcases List.mem_cons.mp hu with rfl | hu
          · exact hbelow
          · exact hbelow.trans (hpath u hu)

/-- **Where a cycle is reported** there is one. -/
theorem search_cycle {fuel : Nat} {nodes : List α} {c : α}
    (h : search next fuel nodes = .error (.cycle c)) : ¬Acyclic next := by
  obtain ⟨visited, a, -, hvisit⟩ := foldlM_error _ _ h
  exact visit_cycle fuel [] visited a c (by simp) hvisit

/-! ## The fuel is enough -/

variable {nodes : List α} (hclosed : ∀ a ∈ nodes, ∀ b ∈ next a, b ∈ nodes)
include hclosed

/-- A path has no node twice, so it is no longer than the nodes there are. -/
theorem visit_total : ∀ (fuel : Nat) (path visited : List α) (a : α), a ∈ nodes → path ⊆ nodes →
    path.Nodup → nodes.length < path.length + fuel →
      visit next fuel path visited a ≠ .error .exhausted := by
  intro fuel
  induction fuel with
  | zero =>
    intro path visited a _ hsub hnodup hlong
    have hlength := (List.subperm_of_subset hnodup hsub).length_le
    omega
  | succ fuel ih =>
    intro path visited a ha hsub hnodup hlong h
    unfold visit at h
    split at h
    · cases h
    next hnew =>
      split at h
      · cases h
      · cases hloop : (next a).foldlM (fun visited b => visit next fuel (a :: path) visited b) visited with
        | ok middle =>
          rw [hloop] at h
          cases h
        | error e =>
          rw [hloop] at h
          obtain rfl : e = .exhausted := Except.error.inj h
          obtain ⟨visited', b, hb, hvisit⟩ := foldlM_error _ _ hloop
          refine ih (a :: path) visited' b (hclosed a ha b hb) (List.cons_subset.mpr ⟨ha, hsub⟩)
            (List.nodup_cons.mpr ⟨hnew, hnodup⟩) ?_ hvisit
          rw [List.length_cons]
          omega

/-- **The fuel is enough** if there is one more of it than there are nodes. -/
theorem search_total : search next (nodes.length + 1) nodes ≠ .error .exhausted := by
  intro h
  obtain ⟨visited, a, ha, hvisit⟩ := foldlM_error _ _ h
  refine visit_total hclosed _ [] visited a ha (List.nil_subset _) List.nodup_nil ?_ hvisit
  simp

omit [DecidableEq α] hclosed in
theorem not_below_self {a : α} (h : Acc (Below next) a) : ¬Relation.TransGen (Below next) a a := by
  have hgen : ∀ b, Acc (Relation.TransGen (Below next)) b → ¬Relation.TransGen (Below next) b b := by
    intro b hb
    induction hb with
    | intro b _ ih => exact fun hself => ih b hself hself
  exact hgen a h.transGen

/-- **The search succeeds** exactly where there is no cycle. -/
theorem search_iff (hnodes : ∀ a, next a ≠ [] → a ∈ nodes) :
    (∃ visited, search next (nodes.length + 1) nodes = .ok visited) ↔ Acyclic next := by
  constructor
  · rintro ⟨visited, h⟩ a hself
    have ha : a ∈ nodes := by
      obtain ⟨b, -, hb⟩ := Relation.TransGen.tail'_iff.mp hself
      exact hnodes a (List.ne_nil_of_mem hb)
    exact not_below_self (search_ok h a ha) hself
  · intro hacyclic
    cases h : search next (nodes.length + 1) nodes with
    | ok visited => exact ⟨visited, rfl⟩
    | error e =>
      cases e with
      | cycle c => exact absurd hacyclic (search_cycle h)
      | exhausted => exact absurd h (search_total hclosed)

end CycleSearch
