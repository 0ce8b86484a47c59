import QuantumEntanglement.Lib.CycleSearch

/-
  Kahn's loop — a dependency order taken off a heap

  `deps` gives the nodes a node depends on, `dependents` the nodes that depend
  on it. The loop counts for every node the dependencies not yet taken, keeps
  the nodes without any on a heap, and takes the smallest of those until the
  heap is empty. The heap is kept as a sorted list, of which only the smallest
  is ever looked at.

  What is proved:
    1. `releaseAll_spec` — what taking a node does to the counts and the heap.
    2. `loop_spec` — the loop ends with an empty heap, what it took is in
       dependency order and holds every node whose dependencies it holds.
    3. `order_complete` — it takes every node exactly where there is no cycle.
-/

namespace KahnSort

variable {α : Type} [LinearOrder α]

/-- For every node the dependencies not yet taken, and the heap. -/
structure State (α : Type) where
  indegree : α → Int
  ready : List α

def heappush (ready : List α) (a : α) : List α := ready.orderedInsert (· ≤ ·) a

def heapify (nodes : List α) : List α := nodes.insertionSort (· ≤ ·)

/-- One dependent of the node taken. -/
def release (s : State α) (dependent : α) : State α :=
  let left := s.indegree dependent - 1
  ⟨Function.update s.indegree dependent left,
    if left = 0 then heappush s.ready dependent else s.ready⟩

/-- The dependents of the node taken, one after the other. -/
def releaseAll (s : State α) (dependents : List α) : State α := dependents.foldl release s

/-- Take nodes until the heap is empty: the nodes, in the order taken. -/
def loop (dependents : α → List α) : Nat → State α → List α
  | 0, _ => []
  | fuel + 1, s =>
    match s.ready with
    | [] => []
    | a :: rest =>
      a :: loop dependents fuel
        (releaseAll ⟨s.indegree, rest⟩ ((dependents a).insertionSort (· ≤ ·)))

/-- The nodes in the order taken. -/
def order (deps dependents : α → List α) (nodes : List α) : List α :=
  loop dependents nodes.length
    ⟨fun a => (deps a).length, heapify (nodes.filter fun a => ((deps a).length : Int) = 0)⟩

/-! ## Taking one node -/

/-- **What taking a node does**: each dependent has one dependency less, and
those that had one are on the heap. -/
theorem releaseAll_spec (dependents : List α) : ∀ s : State α, dependents.Nodup →
    (∀ a, (releaseAll s dependents).indegree a =
      s.indegree a - if a ∈ dependents then 1 else 0) ∧
    (releaseAll s dependents).ready.Perm
      (dependents.filter (fun a => s.indegree a = 1) ++ s.ready) := by
  induction dependents with
  | nil =>
    intro s _
    refine ⟨fun a => ?_, List.Perm.refl _⟩
    simp [releaseAll]
  | cons d rest ih =>
    intro s hnodup
    obtain ⟨hd, hrest⟩ := List.nodup_cons.mp hnodup
    obtain ⟨hcount, hready⟩ := ih (release s d) hrest
    -- The later dependents are others, so their counts are the ones before.
    have hother : ∀ a, a ≠ d → (release s d).indegree a = s.indegree a :=
      fun a ha => Function.update_of_ne ha _ _
    have hfilter : rest.filter (fun a => (release s d).indegree a = 1) =
        rest.filter (fun a => s.indegree a = 1) := by
      apply List.filter_congr
      intro a ha
      rw [hother a (fun heq => hd (heq ▸ ha))]
    refine ⟨fun a => ?_, ?_⟩
    · show (releaseAll (release s d) rest).indegree a = _
      rw [hcount]
      by_cases ha : a = d
      · subst ha
        simp [release, hd]
      · simp [hother a ha, ha]
    · show (releaseAll (release s d) rest).ready.Perm _
      refine hready.trans ?_
      rw [hfilter, List.filter_cons]
      by_cases hone : s.indegree d = 1
      · have hpush : (release s d).ready = heappush s.ready d := by simp [release, hone]
        rw [hpush, if_pos (by simpa using hone)]
        exact (List.Perm.append_left _ (List.perm_orderedInsert _ d s.ready)).trans
          List.perm_middle
      · have hkeep : (release s d).ready = s.ready := by
          have hleft : ¬ s.indegree d - 1 = 0 := by omega
          simp [release, hleft]
        rw [hkeep, if_neg (by simpa using hone)]

/-! ## The loop -/

section Loop

variable {deps dependents : α → List α} {nodes : List α}

/-- Every node stands after all it depends on. -/
def InOrder (deps : α → List α) (taken : List α) : Prop :=
  ∀ before a after, taken = before ++ a :: after → ∀ b ∈ deps a, b ∈ before

/-- The dependencies of `a` that are not taken. -/
def missing (deps : α → List α) (taken : List α) (a : α) : List α :=
  (deps a).filter fun b => decide (b ∉ taken)

/-- The graph: no node and no dependency comes twice, and `dependents` is the
other side of `deps`. -/
structure Graph (deps dependents : α → List α) (nodes : List α) : Prop where
  nodes_nodup : nodes.Nodup
  deps_nodup : ∀ a, (deps a).Nodup
  dependents_nodup : ∀ b, (dependents b).Nodup
  mem_dependents : ∀ a b, a ∈ dependents b ↔ a ∈ nodes ∧ b ∈ deps a

/-- What holds between two rounds. -/
structure Inv (deps : α → List α) (nodes taken : List α) (s : State α) : Prop where
  nodup : (taken ++ s.ready).Nodup
  sub : ∀ a ∈ taken ++ s.ready, a ∈ nodes
  count : ∀ a ∈ nodes, s.indegree a = (missing deps taken a).length
  ready_iff : ∀ a ∈ nodes, a ∈ taken ++ s.ready ↔ missing deps taken a = []
  inOrder : InOrder deps taken

theorem missing_nil {taken : List α} {a : α} :
    missing deps taken a = [] ↔ ∀ b ∈ deps a, b ∈ taken := by
  simp [missing, List.filter_eq_nil_iff]

/-- Taking `c` removes it from what is missing. -/
theorem missing_concat (hdeps : ∀ a, (deps a).Nodup) {taken : List α} {a c : α} :
    missing deps (taken ++ [c]) a = (missing deps taken a).erase c := by
  have hnodup : (missing deps taken a).Nodup := (hdeps a).filter _
  rw [hnodup.erase_eq_filter, missing, missing, List.filter_filter]
  apply List.filter_congr
  intro b _
  by_cases hbc : b = c
  · simp [hbc]
  · simp [hbc]

omit [LinearOrder α] in
theorem inOrder_concat {taken : List α} {a : α} (h : InOrder deps taken)
    (ha : ∀ b ∈ deps a, b ∈ taken) : InOrder deps (taken ++ [a]) := by
  intro before c after heq b hb
  rcases List.eq_nil_or_concat after with rfl | ⟨after', last, rfl⟩
  · obtain ⟨rfl, hc⟩ := List.append_inj' heq rfl
    obtain rfl : a = c := by simpa using hc
    exact ha b hb
  · have hsplit : taken = before ++ c :: after' := by
      rw [List.concat_eq_append, ← List.cons_append, ← List.append_assoc] at heq
      exact (List.append_inj' heq rfl).1
    exact h before c after' hsplit b hb

/-- **One round** keeps the invariant. -/
theorem Inv.step (hg : Graph deps dependents nodes) {taken rest : List α} {a : α} {indegree : α → Int}
    (h : Inv deps nodes taken ⟨indegree, a :: rest⟩) :
    Inv deps nodes (taken ++ [a])
      (releaseAll ⟨indegree, rest⟩ ((dependents a).insertionSort (· ≤ ·))) := by
  have ha : a ∈ nodes := h.sub a (by simp)
  have hmissing : missing deps taken a = [] := (h.ready_iff a ha).mp (by simp)
  have hnew : a ∉ taken := by
    have hsplit := List.nodup_append.mp h.nodup
    exact fun hmem => hsplit.2.2 a hmem a List.mem_cons_self rfl
  have hperm := List.perm_insertionSort (· ≤ ·) (dependents a)
  obtain ⟨hcount, hready⟩ := releaseAll_spec ((dependents a).insertionSort (· ≤ ·))
    (⟨indegree, rest⟩ : State α) (hperm.nodup_iff.mpr (hg.dependents_nodup a))
  have hmem : ∀ x, x ∈ (dependents a).insertionSort (· ≤ ·) ↔ x ∈ nodes ∧ a ∈ deps x := by
    intro x
    rw [hperm.mem_iff, hg.mem_dependents]
  -- What is put on the heap depends on `a` and on nothing else that is missing.
  have hpushed : ∀ x, x ∈ ((dependents a).insertionSort (· ≤ ·)).filter
      (fun x => indegree x = 1) ↔ x ∈ nodes ∧ missing deps taken x = [a] := by
    intro x
    rw [List.mem_filter, hmem]
    constructor
    · rintro ⟨⟨hx, hdep⟩, hone⟩
      refine ⟨hx, ?_⟩
      have hlen : (missing deps taken x).length = 1 := by
        have := h.count x hx
        simp only [decide_eq_true_eq] at hone
        simp only at this
        omega
      obtain ⟨c, hc⟩ := List.length_eq_one_iff.mp hlen
      have hin : a ∈ missing deps taken x := by simp [missing, hdep, hnew]
      rw [hc] at hin ⊢
      rw [List.mem_singleton.mp hin]
    · rintro ⟨hx, heq⟩
      have hin : a ∈ missing deps taken x := by rw [heq]; exact List.mem_singleton_self a
      refine ⟨⟨hx, (List.mem_filter.mp hin).1⟩, ?_⟩
      have := h.count x hx
      rw [heq] at this
      simpa using this
  have hall : (taken ++ [a] ++ (releaseAll ⟨indegree, rest⟩
      ((dependents a).insertionSort (· ≤ ·))).ready).Perm
      (((dependents a).insertionSort (· ≤ ·)).filter (fun x => indegree x = 1) ++
        (taken ++ a :: rest)) := by
    refine (List.Perm.append_left _ hready).trans ?_
    refine List.perm_append_comm_assoc _ _ _ |>.trans ?_
    simp
  refine ⟨?_, ?_, ?_, ?_, inOrder_concat h.inOrder (missing_nil.mp hmissing)⟩
  · rw [hall.nodup_iff, List.nodup_append]
    refine ⟨(hperm.nodup_iff.mpr (hg.dependents_nodup a)).filter _, h.nodup, ?_⟩
    intro x hx y hy heq
    subst heq
    obtain ⟨hxn, hxm⟩ := (hpushed x).mp hx
    rw [(h.ready_iff x hxn).mp hy] at hxm
    cases hxm
  · intro x hx
    rw [hall.mem_iff, List.mem_append] at hx
    rcases hx with hx | hx
    · exact ((hpushed x).mp hx).1
    · exact h.sub x hx
  · intro x hx
    rw [hcount, missing_concat hg.deps_nodup, h.count x hx]
    by_cases hdep : x ∈ (dependents a).insertionSort (· ≤ ·)
    · have hin : a ∈ missing deps taken x := by simp [missing, ((hmem x).mp hdep).2, hnew]
      have hlen := List.length_pos_of_mem hin
      rw [if_pos hdep, List.length_erase_of_mem hin]
      omega
    · have hout : a ∉ missing deps taken x := by
        intro hin
        exact hdep ((hmem x).mpr ⟨hx, (List.mem_filter.mp hin).1⟩)
      rw [if_neg hdep, List.erase_of_not_mem hout]
      omega
  · intro x hx
    rw [hall.mem_iff, List.mem_append, hpushed, h.ready_iff x hx, missing_concat hg.deps_nodup]
    constructor
    · rintro (⟨-, heq⟩ | heq)
      · simp [heq]
      · simp [heq]
    · intro heq
      by_cases hin : a ∈ missing deps taken x
      · have hlen := List.length_erase_of_mem hin
        rw [heq, List.length_nil] at hlen
        have hpos := List.length_pos_of_mem hin
        obtain ⟨c, hc⟩ := List.length_eq_one_iff.mp (show (missing deps taken x).length = 1 by omega)
        rw [hc] at hin ⊢
        exact .inl ⟨hx, by rw [List.mem_singleton.mp hin]⟩
      · rw [List.erase_of_not_mem hin] at heq
        exact .inr heq

/-- **The loop**, from between two rounds on, ends with an empty heap. -/
theorem loop_spec (hg : Graph deps dependents nodes) : ∀ (fuel : Nat) (taken : List α) (s : State α),
    Inv deps nodes taken s → nodes.length ≤ taken.length + fuel →
      ∃ indegree, Inv deps nodes (taken ++ loop dependents fuel s) ⟨indegree, []⟩ := by
  intro fuel
  induction fuel with
  | zero =>
    intro taken s h hfuel
    -- All nodes are taken, so none is on the heap.
    have hlength := (List.subperm_of_subset h.nodup (fun a => h.sub a)).length_le
    rw [List.length_append] at hlength
    have hready : s.ready = [] := List.length_eq_zero_iff.mp (by omega)
    refine ⟨s.indegree, ?_⟩
    rw [loop, List.append_nil, ← hready]
    exact h
  | succ fuel ih =>
    intro taken s h hfuel
    obtain ⟨indegree, ready⟩ := s
    cases ready with
    | nil =>
      refine ⟨indegree, ?_⟩
      rw [loop, List.append_nil]
      exact h
    | cons a rest =>
      obtain ⟨indegree', hlast⟩ := ih (taken ++ [a]) _ (h.step hg) (by simp; omega)
      refine ⟨indegree', ?_⟩
      rw [loop]
      simpa using hlast

/-- The invariant where nothing is taken yet. -/
theorem inv_start (hg : Graph deps dependents nodes) :
    Inv deps nodes [] ⟨fun a => (deps a).length,
      heapify (nodes.filter fun a => ((deps a).length : Int) = 0)⟩ := by
  have hmissing : ∀ a, missing deps [] a = deps a := fun a => by simp [missing]
  have hperm := List.perm_insertionSort (· ≤ ·) (nodes.filter fun a => ((deps a).length : Int) = 0)
  refine ⟨?_, ?_, ?_, ?_, ?_⟩
  · rw [List.nil_append]
    exact hperm.nodup_iff.mpr (hg.nodes_nodup.filter _)
  · intro a ha
    rw [List.nil_append] at ha
    exact (List.mem_filter.mp (hperm.mem_iff.mp ha)).1
  · intro a _
    rw [hmissing]
  · intro a ha
    rw [List.nil_append, hmissing, heapify, hperm.mem_iff, List.mem_filter]
    simp [ha]
  · intro before a after heq
    cases before with
    | nil => cases heq
    | cons => cases heq

/-- **What the loop took**: nodes, none twice, in dependency order, and every
node whose dependencies it took. -/
theorem order_spec (hg : Graph deps dependents nodes) :
    (order deps dependents nodes).Nodup ∧ order deps dependents nodes ⊆ nodes ∧
      InOrder deps (order deps dependents nodes) ∧
      ∀ a ∈ nodes, (∀ b ∈ deps a, b ∈ order deps dependents nodes) →
        a ∈ order deps dependents nodes := by
  obtain ⟨indegree, h⟩ := loop_spec hg nodes.length [] _ (inv_start hg) (by simp)
  rw [List.nil_append] at h
  have hnodup := h.nodup
  have hsub := h.sub
  have hready := h.ready_iff
  simp only [List.append_nil] at hnodup hsub hready
  exact ⟨hnodup, hsub, h.inOrder, fun a ha hall => (hready a ha).mpr (missing_nil.mpr hall)⟩

/-! ## Cycles -/

omit [LinearOrder α] in
/-- What stands in dependency order has no cycle below it. -/
theorem acc_of_inOrder : ∀ (n : Nat) (taken : List α), taken.length = n → InOrder deps taken →
    ∀ a ∈ taken, Acc (CycleSearch.Below deps) a := by
  intro n
  induction n using Nat.strong_induction_on with
  | _ n ih =>
    intro taken hlen h a ha
    obtain ⟨before, after, rfl⟩ := List.append_of_mem ha
    refine Acc.intro a (fun b hb => ?_)
    have hbefore : InOrder deps before := by
      intro before' c after' heq
      exact h before' c (after' ++ a :: after) (by simp [heq])
    refine ih before.length ?_ before rfl hbefore b (h before a after rfl b hb)
    rw [← hlen, List.length_append, List.length_cons]
    omega

omit [LinearOrder α] in
/-- In a finite graph without cycles nothing goes down for ever. -/
theorem acc_of_acyclic [DecidableEq α] (hclosed : ∀ a ∈ nodes, ∀ b ∈ deps a, b ∈ nodes)
    (hnodes : ∀ a, deps a ≠ [] → a ∈ nodes) (hacyclic : CycleSearch.Acyclic deps) :
    ∀ a ∈ nodes, Acc (CycleSearch.Below deps) a := by
  obtain ⟨visited, h⟩ := (CycleSearch.search_iff hclosed hnodes).mpr hacyclic
  exact CycleSearch.search_ok h

/-- **The loop takes every node** exactly where there is no cycle. -/
theorem order_complete (hg : Graph deps dependents nodes)
    (hclosed : ∀ a ∈ nodes, ∀ b ∈ deps a, b ∈ nodes) (hnodes : ∀ a, deps a ≠ [] → a ∈ nodes) :
    (order deps dependents nodes).length = nodes.length ↔ CycleSearch.Acyclic deps := by
  obtain ⟨hnodup, hsub, horder, hall⟩ := order_spec hg
  constructor
  · intro hlength a hself
    have hperm : (order deps dependents nodes).Perm nodes :=
      (List.subperm_of_subset hnodup hsub).perm_of_length_le (Nat.le_of_eq hlength.symm)
    obtain ⟨b, -, hb⟩ := Relation.TransGen.tail'_iff.mp hself
    have ha : a ∈ nodes := hnodes a (List.ne_nil_of_mem hb)
    exact CycleSearch.not_below_self
      (acc_of_inOrder _ _ rfl horder a (hperm.mem_iff.mpr ha)) hself
  · intro hacyclic
    have hevery : nodes ⊆ order deps dependents nodes := by
      intro a ha
      have hacc := acc_of_acyclic hclosed hnodes hacyclic a ha
      induction hacc with
      | intro a _ ih => exact hall a ha (fun b hb => ih b hb (hclosed a ha b hb))
    apply Nat.le_antisymm
    · exact (List.subperm_of_subset hnodup hsub).length_le
    · exact (List.subperm_of_subset hg.nodes_nodup hevery).length_le

end Loop

end KahnSort
