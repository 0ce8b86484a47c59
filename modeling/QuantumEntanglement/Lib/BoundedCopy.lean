import QuantumEntanglement.Lib.ObjectHeap

/-
  Bounded copies — a private copy of a tree of lists and dicts

  A program that takes a value over from its caller copies it container by
  container, counting the nodes on its way: the value itself, and of a dict its
  keys as well. Texts and numbers pass a check, containers nest to a bound, none
  is inside itself, and each is read again after it was copied. Which scalars
  and keys pass, and what is raised where, is a parameter; so is the state,
  which has a heap and a count in it.

  What is proved:
    1. `copy_ok` — what is copied is a tree within the bounds, and the copy
       holds it in new cells.
    2. `copy_runs` — a tree within the bounds is copied.
    3. `permitted_normalize`, `permitted_of_normalize`, `nodeCount_normalize` — a
       tree and its normal form are within the same bounds.
-/

namespace PyHeap

open PyJson Transaction

/-! ## The program -/

/-- A state with a heap and a count of nodes in it. -/
structure Walker (σ : Type) where
  heap : σ → Heap
  nodes : σ → Nat
  count : σ → σ
  push : Cell → σ → σ
  heap_count : ∀ s, heap (count s) = heap s
  nodes_count : ∀ s, nodes (count s) = nodes s + 1
  heap_push : ∀ cell s, heap (push cell s) = heap s ++ [cell]
  nodes_push : ∀ cell s, nodes (push cell s) = nodes s

/-- What is copied and what is raised. Every message gets a label. -/
structure CopyRules (ε : Type) where
  maximumNodes : Nat
  leaf : String → Obj → Except ε Unit
  key : String → Obj → Except ε String
  tooMany : String → ε
  notJson : String → ε
  tooDeep : String → ε
  cycle : String → ε
  changed : String → ε
  /-- The scalars that pass. -/
  FineLeaf : Value → Prop
  /-- The keys that pass. -/
  FineKey : String → Prop
  leaf_ok : ∀ {label : String} {o : Obj} {u : Unit},
    leaf label o = .ok u ↔ ∃ v, scalar o = some v ∧ FineLeaf v
  key_ok : ∀ {label : String} {o : Obj} {k : String}, key label o = .ok k ↔ o = .str k ∧ FineKey k

section Program

variable {σ ε : Type} (walker : Walker σ) (rules : CopyRules ε)

/-- One more node. -/
def countOne (label : String) : Txn σ ε Unit := do
  Txn.update walker.count
  let nodes ← Txn.query walker.nodes
  Txn.ensure (nodes ≤ rules.maximumNodes) (rules.tooMany label)

def addCell (cell : Cell) : Txn σ ε Obj := fun s =>
  (.ok (.ref (walker.heap s).length), walker.push cell s)

/-- The container is as it was captured. -/
def readAgain (label : String) (id : Nat) (captured : Shape) : Txn σ ε Unit := do
  let current ← Txn.query (fun s => shapeAt plainView (walker.heap s) id)
  Txn.ensure (current = some captured) (rules.changed label)

/-- The copy of the value of a dict's entry. -/
def copyEntry (copy : String → Obj → Txn σ ε Obj) (label : String) (entry : Obj × Obj) :
    Txn σ ε Obj := do
  countOne walker rules label
  let key ← Txn.lift (rules.key label entry.1)
  copy (label ++ "." ++ key) entry.2

/-- The copy of a container by `copy`, which takes a label and a slot. -/
def copyContainer (copy : String → Obj → Txn σ ε Obj) (label : String) (id : Nat) :
    Shape → Txn σ ε Obj
  | .list captured => do
    let copied ← Txn.forEach
      (fun item => copy (label ++ "[" ++ toString item.2 ++ "]") item.1) captured.zipIdx
    readAgain walker rules label id (.list captured)
    addCell walker (.list copied)
  | .dict captured => do
    let copied ← Txn.forEach (copyEntry walker rules copy label) captured.entries
    readAgain walker rules label id (.dict captured)
    addCell walker (.dict (captured.withValues copied))
  | .tuple _ => Txn.raise (rules.notJson label)

/-- A program that copies one value: its label, the containers being copied,
the value. -/
abbrev Copier (σ ε : Type) := String → List Nat → Obj → Txn σ ε Obj

/-- The copy of a container or a scalar that was counted. -/
def copyCounted (deeper : Option (Copier σ ε)) (label : String) (active : List Nat) (value : Obj) :
    Txn σ ε Obj :=
  match value with
  | .ref id => do
    let read ← Txn.query (fun s => shapeAt plainView (walker.heap s) id)
    match read, deeper with
    | none, _ => Txn.raise (rules.notJson label)
    | some _, none => Txn.raise (rules.tooDeep label)
    | some shape, some copy => do
      Txn.ensure (id ∉ active) (rules.cycle label)
      copyContainer walker rules (fun label => copy label (id :: active)) label id shape
  | leaf => do
    Txn.lift (rules.leaf label leaf)
    pure leaf

/-- The copy of one value; `deeper` copies what is inside a container, if there
is room for one more. -/
def copyValue (deeper : Option (Copier σ ε)) : Copier σ ε := fun label active value => do
  countOne walker rules label
  copyCounted walker rules deeper label active value

/-- The copy with room for that many containers inside each other. -/
def boundedCopy : Nat → Copier σ ε
  | 0 => copyValue walker rules none
  | room + 1 => copyValue walker rules (some (boundedCopy room))

end Program

/-! ## The bounds -/

mutual

/-- A value of JSON types whose scalars and keys pass. -/
def Permitted (fineLeaf : Value → Prop) (fineKey : String → Prop) : Value → Prop
  | .list items => PermittedItems fineLeaf fineKey items
  | .dict pairs => PermittedPairs fineLeaf fineKey pairs
  | .null => fineLeaf .null
  | .bool b => fineLeaf (.bool b)
  | .int n => fineLeaf (.int n)
  | .float x => fineLeaf (.float x)
  | .str s => fineLeaf (.str s)
  | .tuple _ => False
  | .nonFinite => False
  | .backReference => False
  | .other _ => False

def PermittedItems (fineLeaf : Value → Prop) (fineKey : String → Prop) : List Value → Prop
  | [] => True
  | v :: rest => Permitted fineLeaf fineKey v ∧ PermittedItems fineLeaf fineKey rest

def PermittedPairs (fineLeaf : Value → Prop) (fineKey : String → Prop) :
    List (String × Value) → Prop
  | [] => True
  | (k, v) :: rest => fineKey k ∧ Permitted fineLeaf fineKey v ∧
      PermittedPairs fineLeaf fineKey rest

end

mutual

/-- The nodes of a value: itself, its items, its keys and its values. -/
def nodeCount : Value → Nat
  | .list items => 1 + nodeCountItems items
  | .tuple items => 1 + nodeCountItems items
  | .dict pairs => 1 + nodeCountPairs pairs
  | .null => 1
  | .bool _ => 1
  | .int _ => 1
  | .float _ => 1
  | .str _ => 1
  | .nonFinite => 1
  | .backReference => 1
  | .other _ => 1

def nodeCountItems : List Value → Nat
  | [] => 0
  | v :: rest => nodeCount v + nodeCountItems rest

def nodeCountPairs : List (String × Value) → Nat
  | [] => 0
  | (_, v) :: rest => (1 + nodeCount v) + nodeCountPairs rest

end

theorem nodeCountItems_eq (items : List Value) :
    nodeCountItems items = (items.map nodeCount).sum := by
  induction items with
  | nil => rfl
  | cons v rest ih => rw [nodeCountItems, ih, List.map_cons, List.sum_cons]

theorem nodeCountPairs_eq (pairs : List (String × Value)) :
    nodeCountPairs pairs = ((pairs.map Prod.snd).map (fun v => 1 + nodeCount v)).sum := by
  induction pairs with
  | nil => rfl
  | cons p rest ih =>
    obtain ⟨k, v⟩ := p
    rw [nodeCountPairs, ih, List.map_cons, List.map_cons, List.sum_cons]

section Bounds

variable {fineLeaf : Value → Prop} {fineKey : String → Prop}

theorem permittedItems_iff {items : List Value} :
    PermittedItems fineLeaf fineKey items ↔ ∀ v ∈ items, Permitted fineLeaf fineKey v := by
  induction items with
  | nil => simp [PermittedItems]
  | cons v rest ih => rw [PermittedItems, ih, List.forall_mem_cons]

theorem permittedPairs_iff {pairs : List (String × Value)} :
    PermittedPairs fineLeaf fineKey pairs ↔
      ∀ p ∈ pairs, fineKey p.1 ∧ Permitted fineLeaf fineKey p.2 := by
  induction pairs with
  | nil => simp [PermittedPairs]
  | cons p rest ih => rw [PermittedPairs, ih, List.forall_mem_cons, and_assoc]

/-- A scalar is permitted if it passes. -/
theorem permitted_scalar {o : Obj} {v : Value} (hs : scalar o = some v) :
    (Permitted fineLeaf fineKey v ↔ fineLeaf v) ∧ depthOf v = 0 ∧ nodeCount v = 1 := by
  cases o <;> cases hs <;> exact ⟨Iff.rfl, rfl, rfl⟩

end Bounds

/-! ## One step -/

section Steps

variable {σ ε : Type} {walker : Walker σ} {rules : CopyRules ε}

/-- The tree is permitted by the rules. -/
def CopyRules.Allowed (rules : CopyRules ε) (v : Value) : Prop :=
  Permitted rules.FineLeaf rules.FineKey v

theorem countOne_ok {label : String} {u : Unit} {s s' : σ} :
    countOne walker rules label s = (.ok u, s') ↔
      walker.nodes s + 1 ≤ rules.maximumNodes ∧ s' = walker.count s := by
  simp only [countOne, Txn.bind_ok, Txn.update_ok, Txn.query_ok, Txn.ensure_ok]
  constructor
  · intro h
    obtain ⟨_, _, rfl, _, _, ⟨rfl, rfl⟩, hle, rfl⟩ := h
    rw [walker.nodes_count] at hle
    exact ⟨hle, rfl⟩
  · intro h
    obtain ⟨hle, rfl⟩ := h
    rw [← walker.nodes_count] at hle
    exact ⟨(), _, rfl, _, _, ⟨rfl, rfl⟩, hle, rfl⟩

theorem readAgain_ok {label : String} {id : Nat} {captured : Shape} {u : Unit} {s s' : σ} :
    readAgain walker rules label id captured s = (.ok u, s') ↔
      shapeAt plainView (walker.heap s) id = some captured ∧ s = s' := by
  simp only [readAgain, Txn.bind_ok, Txn.query_ok, Txn.ensure_ok]
  constructor
  · intro h
    obtain ⟨_, _, ⟨rfl, rfl⟩, heq, rfl⟩ := h
    exact ⟨heq, rfl⟩
  · intro h
    exact ⟨_, s, ⟨rfl, rfl⟩, h.1, h.2⟩

theorem addCell_ok {cell : Cell} {o : Obj} {s s' : σ} :
    (addCell walker cell s : Except ε Obj × σ) = (.ok o, s') ↔
      o = .ref (walker.heap s).length ∧ s' = walker.push cell s := by
  simp only [addCell, Prod.mk.injEq, Except.ok.injEq]
  constructor
  · intro h
    exact ⟨h.1.symm, h.2.symm⟩
  · intro h
    exact ⟨h.1.symm, h.2.symm⟩

theorem copyEntry_ok {copy : String → Obj → Txn σ ε Obj} {label : String} {entry : Obj × Obj}
    {o' : Obj} {s s' : σ} : copyEntry walker rules copy label entry s = (.ok o', s') ↔
      ∃ key, entry.1 = .str key ∧ rules.FineKey key ∧ walker.nodes s + 1 ≤ rules.maximumNodes ∧
        copy (label ++ "." ++ key) entry.2 (walker.count s) = (.ok o', s') := by
  simp only [copyEntry, Txn.bind_ok, Txn.lift_ok, rules.key_ok, countOne_ok]
  constructor
  · intro h
    obtain ⟨_, _, ⟨hle, rfl⟩, key, _, ⟨⟨hkey, hfine⟩, rfl⟩, hitem⟩ := h
    exact ⟨key, hkey, hfine, hle, hitem⟩
  · intro h
    obtain ⟨key, hkey, hfine, hle, hitem⟩ := h
    exact ⟨(), _, ⟨hle, rfl⟩, key, _, ⟨⟨hkey, hfine⟩, rfl⟩, hitem⟩

/-- What a copy is: of a tree within the bounds, in new cells, its nodes
counted. -/
def CopyOf (walker : Walker σ) (rules : CopyRules ε) (room : Nat) (o o' : Obj) (s s' : σ) : Prop :=
  ∃ v, Holds plainView (fun _ => True) (walker.heap s') o v ∧
    (rules.Allowed v ∧ depthOf v ≤ room) ∧
    Landed walker.heap walker.nodes plainView s s' o' v (nodeCount v)

/-- What counting one node and then copying at a cost comes to. -/
theorem Landed.counted_first {s s' : σ} {o : Obj} {v : Value} {c : Nat}
    (h : Landed walker.heap walker.nodes plainView (walker.count s) s' o v c) :
    Landed walker.heap walker.nodes plainView s s' o v (1 + c) where
  grows := by
    rw [← walker.heap_count s]
    exact h.grows
  holds := by
    rw [← walker.heap_count s]
    exact h.holds
  counted := by rw [h.counted, walker.nodes_count, Nat.add_assoc]

theorem leaf_copied {room : Nat} {o : Obj} {v : Value} {s : σ} (hs : scalar o = some v)
    (hfine : rules.FineLeaf v) : CopyOf walker rules room o o s (walker.count s) := by
  obtain ⟨hiff, hdepth, hnodes⟩ := @permitted_scalar rules.FineLeaf rules.FineKey o v hs
  refine ⟨v, holds_of_scalar hs, ⟨hiff.mpr hfine, by omega⟩, ?_⟩
  exact Landed.scalar hs (walker.heap_count s) (by rw [walker.nodes_count, hnodes])

/-! ## What was copied -/

/-- **A container copied slot by slot is copied.** -/
theorem copyContainer_ok {copy : String → Obj → Txn σ ε Obj} {room id : Nat} {label : String}
    {shape : Shape} {s s' : σ} {o' : Obj}
    (hcopy : ∀ label o s o' s', walker.nodes s ≤ rules.maximumNodes →
      copy label o s = (.ok o', s') →
      walker.nodes s' ≤ rules.maximumNodes ∧ CopyOf walker rules room o o' s s')
    (hc : walker.nodes s ≤ rules.maximumNodes)
    (hrun : copyContainer walker rules copy label id shape s = (.ok o', s')) :
    walker.nodes s' ≤ rules.maximumNodes ∧
      ∃ v c, Holds plainView (fun _ => True) (walker.heap s') (.ref id) v ∧
        (rules.Allowed v ∧ depthOf v ≤ room + 1) ∧ nodeCount v = 1 + c ∧
        Landed walker.heap walker.nodes plainView s s' o' v c := by
  cases shape with
  | list captured =>
    simp only [copyContainer, Txn.bind_ok, readAgain_ok, addCell_ok] at hrun
    obtain ⟨copied, s₁, hloop, _, _, ⟨hsame, rfl⟩, rfl, rfl⟩ := hrun
    obtain ⟨hc₁, items, hsrc, hgood, hland⟩ :=
      @copied_forEach plainView plainView σ ε (Obj × Nat) walker.heap walker.nodes
        _ Prod.fst nodeCount (fun v => rules.Allowed v ∧ depthOf v ≤ room)
        (fun s => walker.nodes s ≤ rules.maximumNodes) captured.zipIdx
        (fun item _ s o s' hcs hitem => hcopy _ item.1 s o s' hcs hitem) s copied s₁ hc hloop
    rw [List.zipIdx_map_fst] at hsrc
    have hgrows : walker.heap s₁ <+: walker.heap (walker.push (.list copied) s₁) := by
      rw [walker.heap_push]
      exact List.prefix_append _ _
    refine ⟨by rw [walker.nodes_push]; exact hc₁, .list items, nodeCountItems items,
      ⟨id, captured, rfl, trivial, shapeAt_of_growth hgrows hsame, hsrc.grow hgrows⟩,
      ⟨?_, ?_⟩, rfl, ?_⟩
    · exact permittedItems_iff.mpr (fun v hv => (hgood v hv).1)
    · exact Nat.succ_le_succ (depthOfItems_le.mpr (fun v hv => (hgood v hv).2))
    · rw [nodeCountItems_eq]
      exact hland.list rfl (walker.heap_push _ _) (walker.nodes_push _ _)
  | dict captured =>
    simp only [copyContainer, Txn.bind_ok, readAgain_ok, addCell_ok] at hrun
    obtain ⟨copied, s₁, hloop, _, _, ⟨hsame, rfl⟩, rfl, rfl⟩ := hrun
    have hkeys : ∀ e ∈ captured.entries, ∃ k, e.1 = .str k ∧ rules.FineKey k := by
      intro e he
      obtain ⟨_, _, _, hentry⟩ := Txn.forEach_ok_mem hloop e he
      obtain ⟨k, hk, hfine, -⟩ := copyEntry_ok.mp hentry
      exact ⟨k, hk, hfine⟩
    have hentry : ∀ e ∈ captured.entries, ∀ (s : σ) (o : Obj) (s' : σ),
        walker.nodes s ≤ rules.maximumNodes →
        copyEntry walker rules copy label e s = (.ok o, s') →
        walker.nodes s' ≤ rules.maximumNodes ∧
          ∃ v, Holds plainView (fun _ => True) (walker.heap s') e.2 v ∧
            (rules.Allowed v ∧ depthOf v ≤ room) ∧
            Landed walker.heap walker.nodes plainView s s' o v (1 + nodeCount v) := by
      intro e _ s o s' _ hone
      obtain ⟨key, -, -, hle, hitem⟩ := copyEntry_ok.mp hone
      rw [← walker.nodes_count] at hle
      obtain ⟨hc', v, hsrc, hgood, hland⟩ := hcopy _ _ _ _ _ hle hitem
      exact ⟨hc', v, hsrc, hgood, hland.counted_first⟩
    obtain ⟨hc₁, items, hsrc, hgood, hland⟩ :=
      @copied_forEach plainView plainView σ ε (Obj × Obj) walker.heap walker.nodes
        _ Prod.snd (fun v => 1 + nodeCount v) (fun v => rules.Allowed v ∧ depthOf v ≤ room)
        (fun s => walker.nodes s ≤ rules.maximumNodes) captured.entries hentry s copied s₁ hc hloop
    obtain ⟨pairs, hfst, hsnd⟩ := exists_pairs
      (fun e he => (hkeys e he).imp (fun _ hk => hk.1)) (by simpa using hsrc.length.symm)
    subst hsnd
    have hgrows : walker.heap s₁ <+: walker.heap (walker.push (.dict (captured.withValues copied)) s₁) := by
      rw [walker.heap_push]
      exact List.prefix_append _ _
    refine ⟨by rw [walker.nodes_push]; exact hc₁, .dict pairs, nodeCountPairs pairs,
      ⟨id, captured, rfl, trivial, shapeAt_of_growth hgrows hsame,
        holdsPairs_iff.mpr ⟨hfst, hsrc.grow hgrows⟩⟩, ⟨?_, ?_⟩, rfl, ?_⟩
    · refine permittedPairs_iff.mpr (fun p hp => ⟨?_, (hgood p.2 (List.mem_map.mpr ⟨p, hp, rfl⟩)).1⟩)
      have hmem : Obj.str p.1 ∈ captured.entries.map Prod.fst := by
        rw [hfst]
        exact List.mem_map.mpr ⟨p, hp, rfl⟩
      obtain ⟨e, he, hep⟩ := List.mem_map.mp hmem
      obtain ⟨k, hk, hfine⟩ := hkeys e he
      rw [hep] at hk
      rw [Obj.str.inj hk]
      exact hfine
    · rw [depthOf, depthOfPairs_eq]
      exact Nat.succ_le_succ (depthOfItems_le.mpr (fun v hv => (hgood v hv).2))
    · rw [nodeCountPairs_eq]
      exact LandedAll.dict hfst hland rfl (walker.heap_push _ _) (walker.nodes_push _ _)
  | tuple captured => simp [copyContainer] at hrun

/-- A scalar that was copied passed. -/
theorem copyCounted_leaf {deeper : Option (Copier σ ε)} {label : String} {active : List Nat}
    {o o' : Obj} {s s' : σ} (ho : ∀ id, o ≠ .ref id) :
    copyCounted walker rules deeper label active o s = (.ok o', s') ↔
      (∃ v, scalar o = some v ∧ rules.FineLeaf v) ∧ o' = o ∧ s' = s := by
  have hleaf : copyCounted walker rules deeper label active o =
      (do Txn.lift (rules.leaf label o); pure o) := by
    cases o <;> first | rfl | exact absurd rfl (ho _)
  simp only [hleaf, Txn.bind_ok, Txn.lift_ok, rules.leaf_ok, Txn.pure_ok]
  constructor
  · intro h
    obtain ⟨_, _, ⟨hfine, rfl⟩, rfl, rfl⟩ := h
    exact ⟨hfine, rfl, rfl⟩
  · intro h
    obtain ⟨hfine, rfl, rfl⟩ := h
    exact ⟨(), _, ⟨hfine, rfl⟩, rfl, rfl⟩

/-- The copy of one value, from what copies the values inside it. -/
theorem copyValue_ok {deeper : Option (Copier σ ε)} {room : Nat} {label : String}
    {active : List Nat} {o o' : Obj} {s s' : σ}
    (hdeeper : ∀ copy, deeper = some copy → ∃ r, room = r + 1 ∧
      ∀ label active o s o' s', walker.nodes s ≤ rules.maximumNodes →
        copy label active o s = (.ok o', s') →
        walker.nodes s' ≤ rules.maximumNodes ∧ CopyOf walker rules r o o' s s')
    (hrun : copyValue walker rules deeper label active o s = (.ok o', s')) :
    walker.nodes s' ≤ rules.maximumNodes ∧ CopyOf walker rules room o o' s s' := by
  rw [copyValue, Txn.bind_ok] at hrun
  obtain ⟨_, s₁, hcount, hrun⟩ := hrun
  obtain ⟨hle, rfl⟩ := countOne_ok.mp hcount
  rw [← walker.nodes_count] at hle
  by_cases href : ∃ id, o = .ref id
  · obtain ⟨id, rfl⟩ := href
    simp only [copyCounted, Txn.bind_ok, Txn.query_ok] at hrun
    obtain ⟨_, _, ⟨rfl, rfl⟩, hrun⟩ := hrun
    cases hshape : shapeAt plainView (walker.heap (walker.count s)) id with
    | none =>
      rw [hshape] at hrun
      cases hrun
    | some shape =>
      rw [hshape] at hrun
      cases hcopy : deeper with
      | none =>
        rw [hcopy] at hrun
        cases hrun
      | some copy =>
        rw [hcopy] at hrun
        obtain ⟨r, rfl, hinner⟩ := hdeeper copy hcopy
        simp only [Txn.bind_ok, Txn.ensure_ok] at hrun
        obtain ⟨_, _, ⟨-, rfl⟩, hrun⟩ := hrun
        obtain ⟨hc', v, c, hsrc, hgood, hnodes, hland⟩ :=
          copyContainer_ok (fun label o s o' s' => hinner label (id :: active) o s o' s') hle hrun
        refine ⟨hc', v, hsrc, hgood, ?_⟩
        rw [hnodes]
        exact hland.counted_first
  · obtain ⟨⟨v, hs, hfine⟩, rfl, rfl⟩ :=
      (copyCounted_leaf (fun id heq => href ⟨id, heq⟩)).mp hrun
    exact ⟨hle, leaf_copied hs hfine⟩

/-- **What is copied is a tree within the bounds.** -/
theorem copy_ok (room : Nat) : ∀ label active o s o' s', walker.nodes s ≤ rules.maximumNodes →
    boundedCopy walker rules room label active o s = (.ok o', s') →
    walker.nodes s' ≤ rules.maximumNodes ∧ CopyOf walker rules room o o' s s' := by
  -- The recursion is on the room left for containers.
  induction room with
  | zero =>
    intro label active o s o' s' _ hrun
    exact copyValue_ok (fun _ hnone => by cases hnone) hrun
  | succ room ih =>
    intro label active o s o' s' _ hrun
    apply copyValue_ok _ hrun
    intro copy hcopy
    cases hcopy
    exact ⟨room, rfl, ih⟩

/-! ## What can be copied -/

/-- What is copied holds less than every container being copied. -/
def Inside (base : Heap) (active : List Nat) (v : Value) : Prop :=
  ∀ id ∈ active, ∃ w, Holds plainView (fun _ => True) base (.ref id) w ∧ depthOf v < depthOf w

/-- `copy` copies trees of depth up to `room` that are held in `base`. -/
def CopiesAll (walker : Walker σ) (rules : CopyRules ε) (base : Heap) (room : Nat)
    (copy : Copier σ ε) : Prop :=
  ∀ label active o v, Holds plainView (fun _ => True) base o v → rules.Allowed v →
    depthOf v ≤ room → Inside base active v → ∀ s, base <+: walker.heap s →
    walker.nodes s + nodeCount v ≤ rules.maximumNodes →
    ∃ o' s', copy label active o s = (.ok o', s') ∧
      Landed walker.heap walker.nodes plainView s s' o' v (nodeCount v)

theorem Inside.child {base : Heap} {active : List Nat} {id : Nat} {v c : Value}
    (hv : Holds plainView (fun _ => True) base (.ref id) v) (hb : Inside base active v)
    (hc : depthOf c < depthOf v) : Inside base (id :: active) c := by
  intro id' hid
  rcases List.mem_cons.mp hid with rfl | hid
  · exact ⟨v, hv, hc⟩
  · obtain ⟨w, hw, hlt⟩ := hb id' hid
    exact ⟨w, hw, Nat.lt_trans hc hlt⟩

/-- A container that holds a tree is not inside itself. -/
theorem Inside.notMem {base : Heap} {active : List Nat} {id : Nat} {v : Value}
    (hv : Holds plainView (fun _ => True) base (.ref id) v) (hb : Inside base active v) :
    id ∉ active := by
  intro hid
  obtain ⟨w, hw, hlt⟩ := hb id hid
  rw [Holds.unique v (.ref id) w hv hw] at hlt
  exact Nat.lt_irrefl _ hlt

/-- Each item of a container is copied, wherever the copying stands. -/
theorem CopiesAll.child {copy : Copier σ ε} {base : Heap} {room id : Nat} {active : List Nat}
    {v c : Value} {o : Obj} (hcopy : CopiesAll walker rules base room copy)
    (hv : Holds plainView (fun _ => True) base (.ref id) v) (hb : Inside base active v)
    (hroom : depthOf v ≤ room + 1) (ho : Holds plainView (fun _ => True) base o c)
    (hc : rules.Allowed c) (hlt : depthOf c < depthOf v) (label : String) (s : σ)
    (hp : base <+: walker.heap s)
    (hlimit : walker.nodes s + nodeCount c ≤ rules.maximumNodes) :
    ∃ o' s', copy label (id :: active) o s = (.ok o', s') ∧
      Landed walker.heap walker.nodes plainView s s' o' c (nodeCount c) :=
  hcopy label (id :: active) o c ho hc (by omega) (hb.child hv hlt) s hp hlimit

/-- **A container within the bounds is copied.** -/
theorem copyContainer_runs {copy : Copier σ ε} {base : Heap} {room id : Nat} {label : String}
    {active : List Nat} {v : Value} (hcopy : CopiesAll walker rules base room copy)
    (hv : Holds plainView (fun _ => True) base (.ref id) v) (ha : rules.Allowed v)
    (hroom : depthOf v ≤ room + 1) (hb : Inside base active v) :
    ∃ shape c, shapeAt plainView base id = some shape ∧ nodeCount v = 1 + c ∧
      ∀ s, base <+: walker.heap s → walker.nodes s + c ≤ rules.maximumNodes →
      ∃ o' s', copyContainer walker rules (fun label => copy label (id :: active)) label id shape s =
          (.ok o', s') ∧ Landed walker.heap walker.nodes plainView s s' o' v c := by
  rcases hv.split with hs | ⟨_, slots, items, heq, rfl, hs, hall⟩ |
    ⟨_, _, _, heq, rfl, -, -⟩ | ⟨_, d, pairs, heq, rfl, hs, hall⟩
  · cases hs
  · cases heq
    refine ⟨.list slots, (items.map nodeCount).sum, hs, by rw [nodeCount, nodeCountItems_eq],
      fun s hp hlimit => ?_⟩
    have hitem : List.Forall₂ (fun o c => ∀ label, ∀ s, base <+: walker.heap s →
        walker.nodes s + nodeCount c ≤ rules.maximumNodes →
        ∃ o' s', copy label (id :: active) o s = (.ok o', s') ∧
          Landed walker.heap walker.nodes plainView s s' o' c (nodeCount c)) slots items := by
      apply forall₂_of_mem (holdsAll_iff.mp hall)
      intro o c _ hc ho
      have hdepth := depthOfItems_le.mp (Nat.le_refl (depthOfItems items)) c hc
      exact hcopy.child hv hb hroom ho (permittedItems_iff.mp ha c hc) (Nat.lt_succ_of_le hdepth)
    obtain ⟨copied, s₁, hrun, hland⟩ := @runs_forEach plainView σ ε (Obj × Nat)
      walker.heap walker.nodes (fun item =>
        copy (label ++ "[" ++ toString item.2 ++ "]") (id :: active) item.1)
      nodeCount rules.maximumNodes base slots.zipIdx items
      (forall₂_of_mem (forall₂_zipIdx hitem) (fun _ _ _ _ h => h _)) s hp hlimit
    have hsame := shapeAt_of_growth (hp.trans hland.grows) hs
    refine ⟨.ref (walker.heap s₁).length, walker.push (.list copied) s₁, ?_,
      hland.list rfl (walker.heap_push _ _) (walker.nodes_push _ _)⟩
    simp only [copyContainer, Txn.bind_ok]
    exact ⟨copied, s₁, hrun, (), s₁, readAgain_ok.mpr ⟨hsame, rfl⟩, addCell_ok.mpr ⟨rfl, rfl⟩⟩
  · exact ha.elim
  · cases heq
    obtain ⟨hfst, hvalues⟩ := holdsPairs_iff.mp hall
    refine ⟨.dict d, ((pairs.map Prod.snd).map (fun v => 1 + nodeCount v)).sum, hs,
      by rw [nodeCount, nodeCountPairs_eq], fun s hp hlimit => ?_⟩
    have hentry : List.Forall₂ (fun e c => ∀ s, base <+: walker.heap s →
        walker.nodes s + (1 + nodeCount c) ≤ rules.maximumNodes →
        ∃ o' s', copyEntry walker rules (fun label => copy label (id :: active)) label e s =
            (.ok o', s') ∧
          Landed walker.heap walker.nodes plainView s s' o' c (1 + nodeCount c))
        d.entries (pairs.map Prod.snd) := by
      apply List.forall₂_map_right_iff.mpr
      apply forall₂_of_mem (forall₂_of_holdsPairs hall)
      intro e p _ hp he s hs hlimit
      obtain ⟨hkey, hc⟩ := permittedPairs_iff.mp ha p hp
      have hdepth := depthOfItems_le.mp (Nat.le_refl _) p.2 (List.mem_map.mpr ⟨p, hp, rfl⟩)
      rw [← depthOfPairs_eq] at hdepth
      obtain ⟨o', s', hrun, hland⟩ := hcopy.child hv hb hroom he.2 hc (Nat.lt_succ_of_le hdepth)
        (label ++ "." ++ p.1) (walker.count s) (by rw [walker.heap_count]; exact hs)
        (by rw [walker.nodes_count]; omega)
      exact ⟨o', s', copyEntry_ok.mpr ⟨p.1, he.1, hkey, by omega, hrun⟩, hland.counted_first⟩
    obtain ⟨copied, s₁, hrun, hland⟩ := @runs_forEach plainView σ ε (Obj × Obj)
      walker.heap walker.nodes
      (copyEntry walker rules (fun label => copy label (id :: active)) label)
      (fun v => 1 + nodeCount v) rules.maximumNodes base d.entries (pairs.map Prod.snd)
      hentry s hp hlimit
    have hsame := shapeAt_of_growth (hp.trans hland.grows) hs
    refine ⟨.ref (walker.heap s₁).length, walker.push (.dict (d.withValues copied)) s₁, ?_,
      LandedAll.dict hfst hland rfl (walker.heap_push _ _) (walker.nodes_push _ _)⟩
    simp only [copyContainer, Txn.bind_ok]
    exact ⟨copied, s₁, hrun, (), s₁, readAgain_ok.mpr ⟨hsame, rfl⟩, addCell_ok.mpr ⟨rfl, rfl⟩⟩

theorem one_le_nodeCount (v : Value) : 1 ≤ nodeCount v := by cases v <;> simp [nodeCount]

/-- The copy of one value runs, from what copies the values inside it. -/
theorem copyValue_runs {deeper : Option (Copier σ ε)} {base : Heap} {room : Nat}
    (hdeeper : ∀ r, room = r + 1 → ∃ copy, deeper = some copy ∧ CopiesAll walker rules base r copy) :
    CopiesAll walker rules base room (copyValue walker rules deeper) := by
  intro label active o v hv ha hroom hb s hp hlimit
  have hone := one_le_nodeCount v
  have hcount : countOne walker rules label s = (.ok (), walker.count s) :=
    countOne_ok.mpr ⟨by omega, rfl⟩
  by_cases href : ∃ id, o = .ref id
  · obtain ⟨id, rfl⟩ := href
    have hdepth : ∃ r, room = r + 1 := by
      rcases hv.split with hs | ⟨_, _, _, -, rfl, -⟩ | ⟨_, _, _, -, rfl, -⟩ | ⟨_, _, _, -, rfl, -⟩
      · cases hs
      · exact Nat.exists_eq_add_one.mpr (Nat.lt_of_lt_of_le (Nat.succ_pos _) hroom)
      · exact Nat.exists_eq_add_one.mpr (Nat.lt_of_lt_of_le (Nat.succ_pos _) hroom)
      · exact Nat.exists_eq_add_one.mpr (Nat.lt_of_lt_of_le (Nat.succ_pos _) hroom)
    obtain ⟨r, rfl⟩ := hdepth
    obtain ⟨copy, hsome, hcopy⟩ := hdeeper r rfl
    obtain ⟨shape, c, hshape, hnodes, hrun⟩ :=
      @copyContainer_runs σ ε walker rules copy base r id label active v hcopy hv ha hroom hb
    obtain ⟨o', s', hcopied, hland⟩ := hrun (walker.count s) (by rw [walker.heap_count]; exact hp)
      (by rw [walker.nodes_count]; omega)
    refine ⟨o', s', ?_, by rw [hnodes]; exact hland.counted_first⟩
    rw [copyValue, Txn.bind_ok]
    refine ⟨(), _, hcount, ?_⟩
    simp only [copyCounted, Txn.bind_ok, Txn.query_ok]
    refine ⟨_, _, ⟨rfl, rfl⟩, ?_⟩
    rw [walker.heap_count, shapeAt_of_growth hp hshape, hsome]
    simp only [Txn.bind_ok, Txn.ensure_ok]
    exact ⟨(), _, ⟨hb.notMem hv, rfl⟩, hcopied⟩
  · have href' : ∀ id, o ≠ .ref id := fun id heq => href ⟨id, heq⟩
    have hs := hv.scalar href'
    obtain ⟨hiff, -, hnodes⟩ := @permitted_scalar rules.FineLeaf rules.FineKey o v hs
    refine ⟨o, walker.count s, ?_,
      Landed.scalar hs (walker.heap_count s) (by rw [walker.nodes_count, hnodes])⟩
    rw [copyValue, Txn.bind_ok]
    exact ⟨(), _, hcount, (copyCounted_leaf href').mpr ⟨⟨v, hs, hiff.mp ha⟩, rfl, rfl⟩⟩

/-- **A tree within the bounds is copied.** -/
theorem copy_runs (base : Heap) (room : Nat) :
    CopiesAll walker rules base room (boundedCopy walker rules room) := by
  induction room with
  | zero => exact copyValue_runs (fun r hr => by cases hr)
  | succ room ih =>
    apply copyValue_runs
    intro r hr
    cases hr
    exact ⟨boundedCopy walker rules room, rfl, ih⟩

end Steps

/-! ## The normal form keeps the bounds -/

section Normal

variable {fineLeaf : Value → Prop} {fineKey : String → Prop}

mutual

theorem permitted_normalize : ∀ v : Value, Tidy v → Permitted fineLeaf fineKey v →
    Permitted fineLeaf fineKey (PyJson.normalize v)
  | .list items, hs, ha => permittedItems_normalize items hs ha
  | .dict pairs, hs, ha => by
    refine permittedPairs_iff.mpr (fun p hp => ?_)
    obtain ⟨q, hq, rfl⟩ := List.mem_map.mp ((normalizePairs_perm hs.1).mem_iff.mp hp)
    exact permittedPairs_normalize pairs hs.2 ha q hq
  | .null, _, ha => ha
  | .bool _, _, ha => ha
  | .int _, _, ha => ha
  | .float _, _, ha => ha
  | .str _, _, ha => ha
  | .tuple _, _, ha => ha.elim
  | .nonFinite, _, ha => ha.elim
  | .backReference, _, ha => ha.elim
  | .other _, _, ha => ha.elim

theorem permittedItems_normalize : ∀ items : List Value, TidyItems items →
    PermittedItems fineLeaf fineKey items →
    PermittedItems fineLeaf fineKey (normalizeItems items)
  | [], _, _ => trivial
  | v :: rest, hs, ha =>
    ⟨permitted_normalize v hs.1 ha.1, permittedItems_normalize rest hs.2 ha.2⟩

theorem permittedPairs_normalize : ∀ pairs : List (String × Value), TidyPairs pairs →
    PermittedPairs fineLeaf fineKey pairs → ∀ p ∈ pairs,
      fineKey p.1 ∧ Permitted fineLeaf fineKey (PyJson.normalize p.2)
  | [], _, _, _, hp => absurd hp List.not_mem_nil
  | (_, v) :: rest, hs, ha, p, hp => by
    rcases List.mem_cons.mp hp with rfl | hp
    · exact ⟨ha.1, permitted_normalize v hs.1 ha.2.1⟩
    · exact permittedPairs_normalize rest hs.2 ha.2.2 p hp

end

/-- A value of JSON types, without tuples. -/
abbrev IsJson : Value → Prop := Permitted (fun _ => True) (fun _ => True)

mutual

/-- What lists and dicts hold has no tuples. -/
theorem isJson_of_holds {own : Nat → Prop} {h : Heap} : ∀ (v : Value) (o : Obj),
    Holds plainView own h o v → IsJson v
  | .list items, _, hv => by
    obtain ⟨_, slots, -, -, -, hall⟩ := hv
    exact isJsonItems_of_holds items slots hall
  | .tuple _, _, hv => by
    obtain ⟨_, _, -, -, hs, -⟩ := hv
    obtain ⟨cell, -, hread⟩ := shapeAt_some hs
    cases cell <;> cases hread
  | .dict pairs, _, hv => by
    obtain ⟨_, d, -, -, -, hall⟩ := hv
    exact isJsonPairs_of_holds pairs d.entries hall
  | .null, _, _ => trivial
  | .bool _, _, _ => trivial
  | .int _, _, _ => trivial
  | .float _, _, _ => trivial
  | .str _, _, _ => trivial
  | .nonFinite, _, hv => hv.elim
  | .backReference, _, hv => hv.elim
  | .other _, _, hv => hv.elim

theorem isJsonItems_of_holds {own : Nat → Prop} {h : Heap} : ∀ (items : List Value)
    (slots : List Obj), HoldsAll plainView own h slots items →
    PermittedItems (fun _ => True) (fun _ => True) items
  | [], _, _ => trivial
  | v :: rest, _, hall => by
    obtain ⟨o, slots', -, hv, hrest⟩ := hall
    exact ⟨isJson_of_holds v o hv, isJsonItems_of_holds rest slots' hrest⟩

theorem isJsonPairs_of_holds {own : Nat → Prop} {h : Heap} : ∀ (pairs : List (String × Value))
    (entries : List (Obj × Obj)), HoldsPairs plainView own h entries pairs →
    PermittedPairs (fun _ => True) (fun _ => True) pairs
  | [], _, _ => trivial
  | (_, v) :: rest, _, hall => by
    obtain ⟨o, entries', -, hv, hrest⟩ := hall
    exact ⟨trivial, isJson_of_holds v o hv, isJsonPairs_of_holds rest entries' hrest⟩

end

mutual

/-- A value whose normal form is permitted is permitted. -/
theorem permitted_of_normalize : ∀ v : Value, Tidy v → IsJson v →
    Permitted fineLeaf fineKey (PyJson.normalize v) → Permitted fineLeaf fineKey v
  | .list items, hs, hj, ha => permittedItems_of_normalize items hs hj ha
  | .dict pairs, hs, hj, ha => by
    apply permittedPairs_of_normalize pairs hs.2 hj
    intro p hp
    have hmem : normalMember p ∈ normalizePairs [] pairs :=
      (normalizePairs_perm hs.1).mem_iff.mpr (List.mem_map.mpr ⟨p, hp, rfl⟩)
    exact permittedPairs_iff.mp ha _ hmem
  | .null, _, _, ha => ha
  | .bool _, _, _, ha => ha
  | .int _, _, _, ha => ha
  | .float _, _, _, ha => ha
  | .str _, _, _, ha => ha
  | .tuple _, _, hj, _ => hj.elim
  | .nonFinite, _, hj, _ => hj.elim
  | .backReference, _, hj, _ => hj.elim
  | .other _, _, hj, _ => hj.elim

theorem permittedItems_of_normalize : ∀ items : List Value, TidyItems items →
    PermittedItems (fun _ => True) (fun _ => True) items →
    PermittedItems fineLeaf fineKey (normalizeItems items) → PermittedItems fineLeaf fineKey items
  | [], _, _, _ => trivial
  | v :: rest, hs, hj, ha =>
    ⟨permitted_of_normalize v hs.1 hj.1 ha.1, permittedItems_of_normalize rest hs.2 hj.2 ha.2⟩

theorem permittedPairs_of_normalize : ∀ pairs : List (String × Value), TidyPairs pairs →
    PermittedPairs (fun _ => True) (fun _ => True) pairs →
    (∀ p ∈ pairs, fineKey p.1 ∧ Permitted fineLeaf fineKey (PyJson.normalize p.2)) →
    PermittedPairs fineLeaf fineKey pairs
  | [], _, _, _ => trivial
  | (_, v) :: rest, hs, hj, ha => by
    obtain ⟨⟨hkey, hv⟩, hrest⟩ := List.forall_mem_cons.mp ha
    exact ⟨hkey, permitted_of_normalize v hs.1 hj.2.1 hv,
      permittedPairs_of_normalize rest hs.2 hj.2.2 hrest⟩

end

end Normal

mutual

theorem nodeCount_normalize : ∀ v : Value, Tidy v → nodeCount (PyJson.normalize v) = nodeCount v
  | .list items, hs => by
    rw [PyJson.normalize, nodeCount, nodeCount, nodeCountItems_normalize items hs]
  | .tuple items, hs => by
    rw [PyJson.normalize, nodeCount, nodeCount, nodeCountItems_normalize items hs]
  | .dict pairs, hs => by
    have hperm := ((normalizePairs_perm hs.1).map Prod.snd).map (fun v => 1 + nodeCount v)
    rw [PyJson.normalize, nodeCount, nodeCount, nodeCountPairs_eq, hperm.sum_nat,
      nodeCountPairs_normalize pairs hs.2]
  | .null, _ => rfl
  | .bool _, _ => rfl
  | .int _, _ => rfl
  | .float _, _ => rfl
  | .str _, _ => rfl
  | .nonFinite, _ => rfl
  | .backReference, _ => rfl
  | .other _, _ => rfl

theorem nodeCountItems_normalize : ∀ items : List Value, TidyItems items →
    nodeCountItems (normalizeItems items) = nodeCountItems items
  | [], _ => rfl
  | v :: rest, hs => by
    rw [normalizeItems, nodeCountItems, nodeCountItems, nodeCount_normalize v hs.1,
      nodeCountItems_normalize rest hs.2]

theorem nodeCountPairs_normalize : ∀ pairs : List (String × Value), TidyPairs pairs →
    (((pairs.map normalMember).map Prod.snd).map (fun v => 1 + nodeCount v)).sum =
      nodeCountPairs pairs
  | [], _ => rfl
  | (_, v) :: rest, hs => by
    have ih := nodeCountPairs_normalize rest hs.2
    rw [List.map_cons, List.map_cons, List.map_cons, List.sum_cons, ih, nodeCountPairs, normalMember,
      nodeCount_normalize v hs.1]

end

end PyHeap
