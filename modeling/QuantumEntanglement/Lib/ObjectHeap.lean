import QuantumEntanglement.Lib.PyJsonTyped
import QuantumEntanglement.Lib.Transaction

/-
  Object heap — containers with an identity, and the trees they hold

  A Python container is a cell of a heap and is passed by reference, so two
  names may reach one list and a write through one is seen through the other.
  A slot of a container holds a scalar itself or a reference. Cells are added
  at the end and are never removed, so a cell's place is its `id`.

  `Holds view own h o v` says that what `o` reaches in `h` is the tree `v`,
  through cells of `own` alone. A `view` says which kinds of container stand
  for a list, a tuple and a dict: `plainView` reads lists and dicts, and
  `frozenView` reads their frozen forms, tuples and mapping proxies. A mapping
  proxy is a cell of its own with the entries it shows: the dict behind it is
  made for it and nothing else refers to it.

  What is proved:
    1. `Holds.keep` — an object holds its tree for as long as the cells it is
       made of are kept, whatever becomes of all others.
    2. `Holds.unique` — an object holds one tree, and `Holds.restrict` — what
       it holds in a longer heap it held already.
    3. `copied_forEach`, `runs_forEach` — copying a list of slots one by one,
       read off a run and run from what is held.
    4. `rebuild_runs` — **rebuilding makes new cells that hold the same tree**,
       and `rebuild_ok` — what they hold was held already, in a view wide
       enough for both forms (`Holds.widen`).
    5. `build_runs`, `readTree_of_holds` — a tree written into cells, and read
       back from them.

  Correspondence (Python ↔ Lean):
    `id(x)`, `x is y`             ↔ `Obj.ref`, equality of `Obj`
    `type(x)`                     ↔ the constructor of `Obj` or of its `Cell`
    `MappingProxyType(d)`         ↔ `Cell.proxy`
    a `str` with a lone surrogate ↔ `Obj.surrogates` (it has no UTF-8 form)
-/

namespace PyHeap

open PyJson Transaction

/-- What a name or a slot of a container holds. `other` is an object of any
other type. -/
inductive Obj where
  | null
  | bool (b : Bool)
  | int (n : Int)
  | float (x : Float64)
  | nonFinite
  | str (s : String)
  | surrogates (units : List Nat)
  | ref (id : Nat)
  | other (typeName : String) (id : Nat)
  deriving DecidableEq

/-- The entries of a dict in insertion order; no key comes twice. -/
structure PyDict where
  entries : List (Obj × Obj)
  distinct : (entries.map Prod.fst).Nodup
  deriving DecidableEq

/-- A container. -/
inductive Cell where
  | list (items : List Obj)
  | tuple (items : List Obj)
  | dict (d : PyDict)
  | proxy (d : PyDict)
  deriving DecidableEq

abbrev Heap := List Cell

/-- A container as a view reads it. -/
inductive Shape where
  | list (items : List Obj)
  | tuple (items : List Obj)
  | dict (d : PyDict)
  deriving DecidableEq

/-- Which containers are read, and as what. -/
abbrev View := Cell → Option Shape

/-- Lists and dicts. -/
def plainView : View
  | .list items => some (.list items)
  | .dict d => some (.dict d)
  | _ => none

/-- The frozen forms of lists and dicts. -/
def frozenView : View
  | .tuple items => some (.list items)
  | .proxy d => some (.dict d)
  | _ => none

/-- Every container, a proxy as the dict it shows. -/
def payloadView : View
  | .list items => some (.list items)
  | .tuple items => some (.tuple items)
  | .dict d => some (.dict d)
  | .proxy d => some (.dict d)

/-- Every container, a tuple as a list. -/
def sequenceView : View
  | .list items => some (.list items)
  | .tuple items => some (.list items)
  | .dict d => some (.dict d)
  | .proxy d => some (.dict d)

def shapeAt (view : View) (h : Heap) (id : Nat) : Option Shape := h[id]?.bind view

/-- The value of a scalar. -/
def scalar : Obj → Option Value
  | .null => some .null
  | .bool b => some (.bool b)
  | .int n => some (.int n)
  | .float x => some (.float x.decimal)
  | .str s => some (.str s)
  | _ => none

/-! ## Dicts -/

/-- Entries with their values replaced in order. -/
def rewriteValues (entries : List (Obj × Obj)) (values : List Obj) : List (Obj × Obj) :=
  List.zipWith (fun entry value => (entry.1, value)) entries values

theorem rewriteValues_keys_sublist : ∀ (entries : List (Obj × Obj)) (values : List Obj),
    ((rewriteValues entries values).map Prod.fst).Sublist (entries.map Prod.fst)
  | [], _ => by simp [rewriteValues]
  | _ :: _, [] => by simp [rewriteValues]
  | e :: entries, v :: values => by
    have ih := rewriteValues_keys_sublist entries values
    simpa [rewriteValues] using ih

/-- A dict of the same keys. -/
def PyDict.withValues (d : PyDict) (values : List Obj) : PyDict :=
  ⟨rewriteValues d.entries values, (rewriteValues_keys_sublist _ _).nodup d.distinct⟩

theorem rewriteValues_fst : ∀ {entries : List (Obj × Obj)} {values : List Obj},
    values.length = entries.length →
    (rewriteValues entries values).map Prod.fst = entries.map Prod.fst
  | [], _, _ => by simp [rewriteValues]
  | _ :: _, [], h => by simp at h
  | e :: entries, v :: values, h => by
    have ih := @rewriteValues_fst entries values (by simpa using h)
    simpa [rewriteValues] using ih

theorem rewriteValues_snd : ∀ {entries : List (Obj × Obj)} {values : List Obj},
    values.length = entries.length → (rewriteValues entries values).map Prod.snd = values
  | [], [], _ => by simp [rewriteValues]
  | [], _ :: _, h => by simp at h
  | _ :: _, [], h => by simp at h
  | e :: entries, v :: values, h => by
    have ih := @rewriteValues_snd entries values (by simpa using h)
    simpa [rewriteValues] using ih

/-- `d[key] = value` on the entries. -/
def assign (key value : Obj) : List (Obj × Obj) → List (Obj × Obj)
  | [] => [(key, value)]
  | e :: rest => if e.1 = key then (key, value) :: rest else e :: assign key value rest

theorem assign_keys {key value : Obj} : ∀ entries : List (Obj × Obj),
    (assign key value entries).map Prod.fst =
      if key ∈ entries.map Prod.fst then entries.map Prod.fst else entries.map Prod.fst ++ [key]
  | [] => by simp [assign]
  | e :: rest => by
    unfold assign
    by_cases he : e.1 = key
    · rw [if_pos he]
      simp [he]
    · rw [if_neg he, List.map_cons, assign_keys rest]
      by_cases hmem : key ∈ rest.map Prod.fst
      · rw [if_pos hmem, if_pos (by simp only [List.map_cons]; exact List.mem_cons_of_mem _ hmem),
          List.map_cons]
      · rw [if_neg hmem, if_neg]
        · simp
        · intro hin
          rcases List.mem_cons.mp hin with heq | hin
          · exact he heq.symm
          · exact hmem hin

theorem assign_new {key value : Obj} : ∀ {entries : List (Obj × Obj)},
    key ∉ entries.map Prod.fst → assign key value entries = entries ++ [(key, value)]
  | [], _ => rfl
  | e :: rest, h => by
    rw [List.map_cons, List.mem_cons, not_or] at h
    rw [assign, if_neg (Ne.symm h.1), assign_new h.2, List.cons_append]

def PyDict.set (d : PyDict) (key value : Obj) : PyDict :=
  ⟨assign key value d.entries, by
    rw [assign_keys]
    split
    · exact d.distinct
    next h =>
      rw [List.nodup_append]
      refine ⟨d.distinct, List.nodup_singleton key, ?_⟩
      intro a ha b hb
      rw [List.mem_singleton.mp hb]
      intro heq
      exact h (heq ▸ ha)⟩

def PyDict.empty : PyDict := ⟨[], List.nodup_nil⟩

/-- The dict of assignments made in order. -/
def PyDict.ofPairs (pairs : List (Obj × Obj)) : PyDict :=
  pairs.foldl (fun d p => d.set p.1 p.2) PyDict.empty

theorem foldl_set_entries : ∀ {pairs : List (Obj × Obj)} {d : PyDict},
    ((d.entries ++ pairs).map Prod.fst).Nodup →
    (pairs.foldl (fun d p => d.set p.1 p.2) d).entries = d.entries ++ pairs
  | [], d, _ => by simp
  | p :: rest, d, h => by
    have hnew : p.1 ∉ d.entries.map Prod.fst := by
      rw [List.map_append, List.nodup_append] at h
      intro hin
      exact h.2.2 p.1 hin p.1 (by simp) rfl
    have hset : (d.set p.1 p.2).entries = d.entries ++ [p] := assign_new hnew
    rw [List.foldl_cons, foldl_set_entries (by rw [hset]; simpa using h), hset]
    simp

theorem PyDict.ofPairs_entries {pairs : List (Obj × Obj)} (h : (pairs.map Prod.fst).Nodup) :
    (PyDict.ofPairs pairs).entries = pairs := by
  have hfold := @foldl_set_entries pairs PyDict.empty (by simpa [PyDict.empty] using h)
  simpa [PyDict.ofPairs, PyDict.empty] using hfold

/-! ## What an object holds -/

mutual

/-- What `o` reaches in `h` is the tree, through cells of `own`. -/
def Holds (view : View) (own : Nat → Prop) (h : Heap) : Obj → Value → Prop
  | o, .list items => ∃ id slots, o = .ref id ∧ own id ∧ shapeAt view h id = some (.list slots) ∧
      HoldsAll view own h slots items
  | o, .tuple items => ∃ id slots, o = .ref id ∧ own id ∧ shapeAt view h id = some (.tuple slots) ∧
      HoldsAll view own h slots items
  | o, .dict pairs => ∃ id d, o = .ref id ∧ own id ∧ shapeAt view h id = some (.dict d) ∧
      HoldsPairs view own h d.entries pairs
  | o, .null => scalar o = some .null
  | o, .bool b => scalar o = some (.bool b)
  | o, .int n => scalar o = some (.int n)
  | o, .float x => scalar o = some (.float x)
  | o, .str s => scalar o = some (.str s)
  | _, .nonFinite => False
  | _, .backReference => False
  | _, .other _ => False

def HoldsAll (view : View) (own : Nat → Prop) (h : Heap) : List Obj → List Value → Prop
  | slots, [] => slots = []
  | slots, v :: rest => ∃ o slots', slots = o :: slots' ∧ Holds view own h o v ∧
      HoldsAll view own h slots' rest

def HoldsPairs (view : View) (own : Nat → Prop) (h : Heap) :
    List (Obj × Obj) → List (String × Value) → Prop
  | entries, [] => entries = []
  | entries, (k, v) :: rest => ∃ o entries', entries = (.str k, o) :: entries' ∧
      Holds view own h o v ∧ HoldsPairs view own h entries' rest

end

variable {view src dst : View} {own own' : Nat → Prop} {h h' : Heap}

theorem holdsAll_iff {slots : List Obj} {items : List Value} :
    HoldsAll view own h slots items ↔ List.Forall₂ (Holds view own h) slots items := by
  induction items generalizing slots with
  | nil =>
    rw [HoldsAll]
    constructor
    · intro heq
      rw [heq]
      exact .nil
    · intro hall
      cases hall
      rfl
  | cons v rest ih =>
    rw [HoldsAll]
    constructor
    · intro hall
      obtain ⟨o, slots', rfl, ho, hrest⟩ := hall
      exact .cons ho (ih.mp hrest)
    · intro hall
      cases hall with
      | cons ho hrest => exact ⟨_, _, rfl, ho, ih.mpr hrest⟩

/-- A dict holds its keys, and its values in their order. -/
theorem holdsPairs_iff {entries : List (Obj × Obj)} {pairs : List (String × Value)} :
    HoldsPairs view own h entries pairs ↔
      entries.map Prod.fst = pairs.map (fun p => .str p.1) ∧
        HoldsAll view own h (entries.map Prod.snd) (pairs.map Prod.snd) := by
  induction pairs generalizing entries with
  | nil =>
    rw [HoldsPairs]
    simp [HoldsAll]
  | cons p rest ih =>
    obtain ⟨k, v⟩ := p
    rw [HoldsPairs, List.map_cons, List.map_cons, HoldsAll]
    constructor
    · intro hall
      obtain ⟨o, entries', rfl, ho, hrest⟩ := hall
      obtain ⟨hkeys, hvalues⟩ := ih.mp hrest
      exact ⟨by simp [hkeys], o, entries'.map Prod.snd, by simp, ho, hvalues⟩
    · intro hall
      obtain ⟨hkeys, o, slots', hslots, ho, hvalues⟩ := hall
      cases entries with
      | nil => simp at hslots
      | cons e entries' =>
        obtain ⟨k', o'⟩ := e
        simp only [List.map_cons, List.cons.injEq] at hkeys hslots
        obtain ⟨rfl, hkeys⟩ := hkeys
        obtain ⟨rfl, rfl⟩ := hslots
        exact ⟨o', entries', rfl, ho, ih.mpr ⟨hkeys, hvalues⟩⟩

theorem forall₂_of_holdsPairs {entries : List (Obj × Obj)} {pairs : List (String × Value)}
    (hall : HoldsPairs view own h entries pairs) :
    List.Forall₂ (fun e p => e.1 = .str p.1 ∧ Holds view own h e.2 p.2) entries pairs := by
  induction pairs generalizing entries with
  | nil =>
    rw [HoldsPairs] at hall
    subst hall
    exact .nil
  | cons p rest ih =>
    obtain ⟨k, v⟩ := p
    obtain ⟨o, entries', rfl, hv, hrest⟩ := hall
    exact .cons ⟨rfl, hv⟩ (ih hrest)

/-- Entries whose keys are strings, with a value beside each. -/
theorem exists_pairs : ∀ {entries : List (Obj × Obj)} {items : List Value},
    (∀ e ∈ entries, ∃ k, e.1 = .str k) → items.length = entries.length →
    ∃ pairs : List (String × Value),
      entries.map Prod.fst = pairs.map (fun p => .str p.1) ∧ pairs.map Prod.snd = items
  | [], [], _, _ => ⟨[], rfl, rfl⟩
  | [], _ :: _, _, hlen => by simp at hlen
  | _ :: _, [], _, hlen => by simp at hlen
  | e :: entries, v :: items, hkeys, hlen => by
    obtain ⟨k, hk⟩ := hkeys e List.mem_cons_self
    obtain ⟨pairs, hfst, hsnd⟩ := @exists_pairs entries items
      (fun e' he' => hkeys e' (List.mem_cons_of_mem _ he')) (by simpa using hlen)
    exact ⟨(k, v) :: pairs, by rw [List.map_cons, List.map_cons, hfst, hk],
      by rw [List.map_cons, hsnd]⟩

theorem shapeAt_some {id : Nat} {shape : Shape} (hs : shapeAt view h id = some shape) :
    ∃ cell, h[id]? = some cell ∧ view cell = some shape := Option.bind_eq_some_iff.mp hs

/-- The cells of `own` that `view` reads are the same in both heaps. -/
def Keeps (view : View) (own : Nat → Prop) (h h' : Heap) : Prop :=
  ∀ id cell, own id → h[id]? = some cell → (view cell).isSome = true → h'[id]? = some cell

theorem Keeps.shapeAt {id : Nat} {shape : Shape} (hk : Keeps view own h h') (ho : own id)
    (hs : shapeAt view h id = some shape) : shapeAt view h' id = some shape := by
  obtain ⟨cell, hcell, hview⟩ := shapeAt_some hs
  rw [PyHeap.shapeAt, hk id cell ho hcell (by rw [hview]; rfl), Option.bind_some, hview]

theorem getElem?_of_growth {id : Nat} {cell : Cell} (hp : h <+: h') (hcell : h[id]? = some cell) :
    h'[id]? = some cell := by
  obtain ⟨t, rfl⟩ := hp
  rw [List.getElem?_append_left (List.getElem?_eq_some_iff.mp hcell).1, hcell]

theorem Keeps.of_growth (hp : h <+: h') : Keeps view own h h' :=
  fun _ _ _ hcell _ => getElem?_of_growth hp hcell

theorem shapeAt_of_growth {id : Nat} {shape : Shape} (hp : h <+: h')
    (hs : shapeAt view h id = some shape) : shapeAt view h' id = some shape :=
  @Keeps.shapeAt view (fun _ => True) h h' id shape (Keeps.of_growth hp) trivial hs

mutual

/-- **An object holds its tree while the cells it is made of are kept.** -/
theorem Holds.keep (ho : ∀ id, own id → own' id) (hk : Keeps view own h h') :
    ∀ (v : Value) (o : Obj), Holds view own h o v → Holds view own' h' o v
  | .list items, o, hv => by
    obtain ⟨id, slots, rfl, hid, hs, hall⟩ := hv
    exact ⟨id, slots, rfl, ho id hid, hk.shapeAt hid hs, HoldsAll.keep ho hk items slots hall⟩
  | .tuple items, o, hv => by
    obtain ⟨id, slots, rfl, hid, hs, hall⟩ := hv
    exact ⟨id, slots, rfl, ho id hid, hk.shapeAt hid hs, HoldsAll.keep ho hk items slots hall⟩
  | .dict pairs, o, hv => by
    obtain ⟨id, d, rfl, hid, hs, hall⟩ := hv
    exact ⟨id, d, rfl, ho id hid, hk.shapeAt hid hs, HoldsPairs.keep ho hk pairs d.entries hall⟩
  | .null, _, hv => hv
  | .bool _, _, hv => hv
  | .int _, _, hv => hv
  | .float _, _, hv => hv
  | .str _, _, hv => hv
  | .nonFinite, _, hv => hv
  | .backReference, _, hv => hv
  | .other _, _, hv => hv

theorem HoldsAll.keep (ho : ∀ id, own id → own' id) (hk : Keeps view own h h') :
    ∀ (items : List Value) (slots : List Obj), HoldsAll view own h slots items →
      HoldsAll view own' h' slots items
  | [], _, hall => hall
  | v :: rest, _, hall => by
    obtain ⟨o, slots', rfl, hv, hrest⟩ := hall
    exact ⟨o, slots', rfl, Holds.keep ho hk v o hv, HoldsAll.keep ho hk rest slots' hrest⟩

theorem HoldsPairs.keep (ho : ∀ id, own id → own' id) (hk : Keeps view own h h') :
    ∀ (pairs : List (String × Value)) (entries : List (Obj × Obj)),
      HoldsPairs view own h entries pairs → HoldsPairs view own' h' entries pairs
  | [], _, hall => hall
  | (_, v) :: rest, _, hall => by
    obtain ⟨o, entries', rfl, hv, hrest⟩ := hall
    exact ⟨o, entries', rfl, Holds.keep ho hk v o hv, HoldsPairs.keep ho hk rest entries' hrest⟩

end

theorem Holds.grow {o : Obj} {v : Value} (hp : h <+: h') (hv : Holds view own h o v) :
    Holds view own h' o v := Holds.keep (fun _ ho => ho) (Keeps.of_growth hp) v o hv

theorem HoldsAll.grow {slots : List Obj} {items : List Value} (hp : h <+: h')
    (hv : HoldsAll view own h slots items) : HoldsAll view own h' slots items :=
  HoldsAll.keep (fun _ ho => ho) (Keeps.of_growth hp) items slots hv

theorem Holds.mono {o : Obj} {v : Value} (ho : ∀ id, own id → own' id) (hv : Holds view own h o v) :
    Holds view own' h o v := Holds.keep ho (fun _ _ _ hcell _ => hcell) v o hv

theorem HoldsAll.mono {slots : List Obj} {items : List Value} (ho : ∀ id, own id → own' id)
    (hv : HoldsAll view own h slots items) : HoldsAll view own' h slots items :=
  HoldsAll.keep ho (fun _ _ _ hcell _ => hcell) items slots hv

/-! ### One object, one tree -/

/-- The tree of a reference is a container of the kind its cell is read as. -/
theorem Holds.ref {id : Nat} {v : Value} (hv : Holds view own h (.ref id) v) :
    ∃ shape, shapeAt view h id = some shape ∧ own id ∧
      ((∃ slots items, shape = .list slots ∧ v = .list items ∧ HoldsAll view own h slots items) ∨
       (∃ slots items, shape = .tuple slots ∧ v = .tuple items ∧ HoldsAll view own h slots items) ∨
       (∃ d pairs, shape = .dict d ∧ v = .dict pairs ∧ HoldsPairs view own h d.entries pairs)) := by
  cases v with
  | list items =>
    obtain ⟨_, slots, heq, hid, hs, hall⟩ := hv
    cases heq
    exact ⟨_, hs, hid, .inl ⟨slots, items, rfl, rfl, hall⟩⟩
  | tuple items =>
    obtain ⟨_, slots, heq, hid, hs, hall⟩ := hv
    cases heq
    exact ⟨_, hs, hid, .inr (.inl ⟨slots, items, rfl, rfl, hall⟩)⟩
  | dict pairs =>
    obtain ⟨_, d, heq, hid, hs, hall⟩ := hv
    cases heq
    exact ⟨_, hs, hid, .inr (.inr ⟨d, pairs, rfl, rfl, hall⟩)⟩
  | null => cases hv
  | bool _ => cases hv
  | int _ => cases hv
  | float _ => cases hv
  | str _ => cases hv
  | nonFinite => exact hv.elim
  | backReference => exact hv.elim
  | other _ => exact hv.elim

/-- The tree of anything else is its value. -/
theorem Holds.scalar {o : Obj} {v : Value} (hv : Holds view own h o v) (ho : ∀ id, o ≠ .ref id) :
    scalar o = some v := by
  cases v with
  | list _ =>
    obtain ⟨id, _, heq, _⟩ := hv
    exact absurd heq (ho id)
  | tuple _ =>
    obtain ⟨id, _, heq, _⟩ := hv
    exact absurd heq (ho id)
  | dict _ =>
    obtain ⟨id, _, heq, _⟩ := hv
    exact absurd heq (ho id)
  | null => exact hv
  | bool _ => exact hv
  | int _ => exact hv
  | float _ => exact hv
  | str _ => exact hv
  | nonFinite => exact hv.elim
  | backReference => exact hv.elim
  | other _ => exact hv.elim

/-- A tree is held by a scalar or by a container of its kind. -/
theorem Holds.split {o : Obj} {v : Value} (hv : Holds view own h o v) :
    PyHeap.scalar o = some v ∨
    (∃ id slots items, o = .ref id ∧ v = .list items ∧ shapeAt view h id = some (.list slots) ∧
      HoldsAll view own h slots items) ∨
    (∃ id slots items, o = .ref id ∧ v = .tuple items ∧ shapeAt view h id = some (.tuple slots) ∧
      HoldsAll view own h slots items) ∨
    (∃ id d pairs, o = .ref id ∧ v = .dict pairs ∧ shapeAt view h id = some (.dict d) ∧
      HoldsPairs view own h d.entries pairs) := by
  by_cases ho : ∃ id, o = .ref id
  · obtain ⟨id, rfl⟩ := ho
    obtain ⟨shape, hs, -, hcases⟩ := hv.ref
    rcases hcases with ⟨slots, items, rfl, hv, hall⟩ | ⟨slots, items, rfl, hv, hall⟩ |
      ⟨d, pairs, rfl, hv, hall⟩
    · exact .inr (.inl ⟨id, slots, items, rfl, hv, hs, hall⟩)
    · exact .inr (.inr (.inl ⟨id, slots, items, rfl, hv, hs, hall⟩))
    · exact .inr (.inr (.inr ⟨id, d, pairs, rfl, hv, hs, hall⟩))
  · exact .inl (hv.scalar (fun id heq => ho ⟨id, heq⟩))

theorem holds_of_scalar {o : Obj} {v : Value} (hs : PyHeap.scalar o = some v) :
    Holds view own h o v := by
  cases o <;> cases hs <;> rfl

theorem Holds.unique_scalar {o : Obj} {v w : Value} (hv : PyHeap.scalar o = some v)
    (hw : Holds view own h o w) : v = w := by
  have hw' := hw.scalar (by
    intro id heq
    rw [heq] at hv
    cases hv)
  rw [hv] at hw'
  exact Option.some.inj hw'

mutual

/-- **An object holds one tree.** -/
theorem Holds.unique : ∀ (v : Value) (o : Obj) (w : Value), Holds view own h o v →
    Holds view own' h o w → v = w
  | .list items, o, w, hv, hw => by
    obtain ⟨id, slots, rfl, -, hs, hall⟩ := hv
    obtain ⟨shape, hs', -, hcases⟩ := hw.ref
    rw [hs] at hs'
    cases hs'
    rcases hcases with ⟨_, items', heq, rfl, hall'⟩ | ⟨_, _, heq, _⟩ | ⟨_, _, heq, _⟩
    · cases heq
      rw [HoldsAll.unique items slots items' hall hall']
    · cases heq
    · cases heq
  | .tuple items, o, w, hv, hw => by
    obtain ⟨id, slots, rfl, -, hs, hall⟩ := hv
    obtain ⟨shape, hs', -, hcases⟩ := hw.ref
    rw [hs] at hs'
    cases hs'
    rcases hcases with ⟨_, _, heq, _⟩ | ⟨_, items', heq, rfl, hall'⟩ | ⟨_, _, heq, _⟩
    · cases heq
    · cases heq
      rw [HoldsAll.unique items slots items' hall hall']
    · cases heq
  | .dict pairs, o, w, hv, hw => by
    obtain ⟨id, d, rfl, -, hs, hall⟩ := hv
    obtain ⟨shape, hs', -, hcases⟩ := hw.ref
    rw [hs] at hs'
    cases hs'
    rcases hcases with ⟨_, _, heq, _⟩ | ⟨_, _, heq, _⟩ | ⟨_, pairs', heq, rfl, hall'⟩
    · cases heq
    · cases heq
    · cases heq
      rw [HoldsPairs.unique pairs d.entries pairs' hall hall']
  | .null, o, w, hv, hw => Holds.unique_scalar hv hw
  | .bool _, o, w, hv, hw => Holds.unique_scalar hv hw
  | .int _, o, w, hv, hw => Holds.unique_scalar hv hw
  | .float _, o, w, hv, hw => Holds.unique_scalar hv hw
  | .str _, o, w, hv, hw => Holds.unique_scalar hv hw
  | .nonFinite, _, _, hv, _ => hv.elim
  | .backReference, _, _, hv, _ => hv.elim
  | .other _, _, _, hv, _ => hv.elim

theorem HoldsAll.unique : ∀ (items : List Value) (slots : List Obj) (items' : List Value),
    HoldsAll view own h slots items → HoldsAll view own' h slots items' → items = items'
  | [], slots, items', hall, hall' => by
    rw [HoldsAll] at hall
    subst hall
    cases items' with
    | nil => rfl
    | cons _ _ =>
      obtain ⟨_, _, heq, _⟩ := hall'
      cases heq
  | v :: rest, _, items', hall, hall' => by
    obtain ⟨o, slots, rfl, hv, hrest⟩ := hall
    cases items' with
    | nil => cases hall'
    | cons w rest' =>
      obtain ⟨_, _, heq, hw, hrest'⟩ := hall'
      cases heq
      rw [Holds.unique v o w hv hw, HoldsAll.unique rest slots rest' hrest hrest']

theorem HoldsPairs.unique : ∀ (pairs : List (String × Value)) (entries : List (Obj × Obj))
    (pairs' : List (String × Value)), HoldsPairs view own h entries pairs →
    HoldsPairs view own' h entries pairs' → pairs = pairs'
  | [], entries, pairs', hall, hall' => by
    rw [HoldsPairs] at hall
    subst hall
    cases pairs' with
    | nil => rfl
    | cons _ _ =>
      obtain ⟨_, _, heq, _⟩ := hall'
      cases heq
  | (k, v) :: rest, _, pairs', hall, hall' => by
    obtain ⟨o, entries, rfl, hv, hrest⟩ := hall
    cases pairs' with
    | nil => cases hall'
    | cons p rest' =>
      obtain ⟨_, _, heq, hw, hrest'⟩ := hall'
      cases heq
      rw [Holds.unique v o p.2 hv hw, HoldsPairs.unique rest entries rest' hrest hrest']

end

/-! ### Wider views -/

/-- `wide` reads every container that `view` reads, and alike. -/
def Includes (wide view : View) : Prop :=
  ∀ cell shape, view cell = some shape → wide cell = some shape

theorem includes_plainView : Includes sequenceView plainView := by
  intro cell shape hs
  cases cell <;> cases hs <;> rfl

theorem includes_frozenView : Includes sequenceView frozenView := by
  intro cell shape hs
  cases cell <;> cases hs <;> rfl

theorem Includes.shapeAt {wide : View} {id : Nat} {shape : Shape} (hw : Includes wide view)
    (hs : shapeAt view h id = some shape) : PyHeap.shapeAt wide h id = some shape := by
  obtain ⟨cell, hcell, hread⟩ := shapeAt_some hs
  rw [PyHeap.shapeAt, hcell, Option.bind_some, hw cell shape hread]

mutual

/-- What is held in a view is held in a wider one. -/
theorem Holds.widen {wide : View} (hw : Includes wide view) : ∀ (v : Value) (o : Obj),
    Holds view own h o v → Holds wide own h o v
  | .list items, o, hv => by
    obtain ⟨id, slots, rfl, hid, hs, hall⟩ := hv
    exact ⟨id, slots, rfl, hid, hw.shapeAt hs, HoldsAll.widen hw items slots hall⟩
  | .tuple items, o, hv => by
    obtain ⟨id, slots, rfl, hid, hs, hall⟩ := hv
    exact ⟨id, slots, rfl, hid, hw.shapeAt hs, HoldsAll.widen hw items slots hall⟩
  | .dict pairs, o, hv => by
    obtain ⟨id, d, rfl, hid, hs, hall⟩ := hv
    exact ⟨id, d, rfl, hid, hw.shapeAt hs, HoldsPairs.widen hw pairs d.entries hall⟩
  | .null, _, hv => hv
  | .bool _, _, hv => hv
  | .int _, _, hv => hv
  | .float _, _, hv => hv
  | .str _, _, hv => hv
  | .nonFinite, _, hv => hv
  | .backReference, _, hv => hv
  | .other _, _, hv => hv

theorem HoldsAll.widen {wide : View} (hw : Includes wide view) : ∀ (items : List Value)
    (slots : List Obj), HoldsAll view own h slots items → HoldsAll wide own h slots items
  | [], _, hall => hall
  | v :: rest, _, hall => by
    obtain ⟨o, slots', rfl, hv, hrest⟩ := hall
    exact ⟨o, slots', rfl, Holds.widen hw v o hv, HoldsAll.widen hw rest slots' hrest⟩

theorem HoldsPairs.widen {wide : View} (hw : Includes wide view) :
    ∀ (pairs : List (String × Value)) (entries : List (Obj × Obj)),
      HoldsPairs view own h entries pairs → HoldsPairs wide own h entries pairs
  | [], _, hall => hall
  | (_, v) :: rest, _, hall => by
    obtain ⟨o, entries', rfl, hv, hrest⟩ := hall
    exact ⟨o, entries', rfl, Holds.widen hw v o hv, HoldsPairs.widen hw rest entries' hrest⟩

end

/-! ### What is reached from a closed set -/

/-- A reference into `E`, or no reference. -/
def Obj.within (E : Nat → Prop) : Obj → Prop
  | .ref id => E id
  | _ => True

/-- What a container refers to. -/
def Cell.slots : Cell → List Obj
  | .list items => items
  | .tuple items => items
  | .dict d => d.entries.map Prod.fst ++ d.entries.map Prod.snd
  | .proxy d => d.entries.map Prod.fst ++ d.entries.map Prod.snd

def Shape.slots : Shape → List Obj
  | .list items => items
  | .tuple items => items
  | .dict d => d.entries.map Prod.fst ++ d.entries.map Prod.snd

/-- The cells of `E` refer to cells of `E` alone. -/
def ClosedOn (h : Heap) (E : Nat → Prop) : Prop :=
  ∀ id cell, E id → h[id]? = some cell → ∀ o ∈ cell.slots, o.within E

/-- A view shows no slot that the container does not have. -/
def Faithful (view : View) : Prop :=
  ∀ cell shape, view cell = some shape → shape.slots = cell.slots

theorem faithful_plainView : Faithful plainView := by
  intro cell shape hs
  cases cell <;> cases hs <;> rfl

theorem faithful_sequenceView : Faithful sequenceView := by
  intro cell shape hs
  cases cell <;> cases hs <;> rfl

theorem ClosedOn.slots {E : Nat → Prop} {id : Nat} {shape : Shape} (hview : Faithful view)
    (hc : ClosedOn h E) (hid : E id) (hs : shapeAt view h id = some shape) :
    ∀ o ∈ shape.slots, o.within E := by
  obtain ⟨cell, hcell, hsome⟩ := shapeAt_some hs
  rw [hview cell shape hsome]
  exact hc id cell hid hcell

mutual

/-- **What is reached from a closed set is made of cells of the set.** -/
theorem Holds.within {E : Nat → Prop} (hview : Faithful view) (hc : ClosedOn h E) :
    ∀ (v : Value) (o : Obj), o.within E → Holds view own h o v →
      Holds view (fun id => own id ∧ E id) h o v
  | .list items, o, ho, hv => by
    obtain ⟨id, slots, rfl, hid, hs, hall⟩ := hv
    exact ⟨id, slots, rfl, ⟨hid, ho⟩, hs,
      HoldsAll.within hview hc items slots (hc.slots hview ho hs) hall⟩
  | .tuple items, o, ho, hv => by
    obtain ⟨id, slots, rfl, hid, hs, hall⟩ := hv
    exact ⟨id, slots, rfl, ⟨hid, ho⟩, hs,
      HoldsAll.within hview hc items slots (hc.slots hview ho hs) hall⟩
  | .dict pairs, o, ho, hv => by
    obtain ⟨id, d, rfl, hid, hs, hall⟩ := hv
    have hslots := hc.slots hview ho hs
    exact ⟨id, d, rfl, ⟨hid, ho⟩, hs, HoldsPairs.within hview hc pairs d.entries
      (fun e he => hslots e.2 (List.mem_append_right _ (List.mem_map.mpr ⟨e, he, rfl⟩))) hall⟩
  | .null, _, _, hv => hv
  | .bool _, _, _, hv => hv
  | .int _, _, _, hv => hv
  | .float _, _, _, hv => hv
  | .str _, _, _, hv => hv
  | .nonFinite, _, _, hv => hv
  | .backReference, _, _, hv => hv
  | .other _, _, _, hv => hv

theorem HoldsAll.within {E : Nat → Prop} (hview : Faithful view) (hc : ClosedOn h E) :
    ∀ (items : List Value) (slots : List Obj), (∀ o ∈ slots, o.within E) →
      HoldsAll view own h slots items → HoldsAll view (fun id => own id ∧ E id) h slots items
  | [], _, _, hall => hall
  | v :: rest, _, ho, hall => by
    obtain ⟨o, slots', rfl, hv, hrest⟩ := hall
    exact ⟨o, slots', rfl, Holds.within hview hc v o (ho o List.mem_cons_self) hv,
      HoldsAll.within hview hc rest slots' (fun o ho' => ho o (List.mem_cons_of_mem _ ho')) hrest⟩

theorem HoldsPairs.within {E : Nat → Prop} (hview : Faithful view) (hc : ClosedOn h E) :
    ∀ (pairs : List (String × Value)) (entries : List (Obj × Obj)),
      (∀ e ∈ entries, e.2.within E) → HoldsPairs view own h entries pairs →
      HoldsPairs view (fun id => own id ∧ E id) h entries pairs
  | [], _, _, hall => hall
  | (_, v) :: rest, _, ho, hall => by
    obtain ⟨o, entries', rfl, hv, hrest⟩ := hall
    exact ⟨o, entries', rfl, Holds.within hview hc v o (ho _ List.mem_cons_self) hv,
      HoldsPairs.within hview hc rest entries'
        (fun e he => ho e (List.mem_cons_of_mem _ he)) hrest⟩

end

/-- No reference of the heap dangles. -/
def WellFormed (h : Heap) : Prop := ClosedOn h (· < h.length)

/-- **What an object of a well-formed heap holds later on by growth alone, it
held already.** -/
theorem Holds.restrict {o : Obj} {v : Value} (hview : Faithful view) (hw : WellFormed h)
    (hp : h <+: h') (ho : o.within (· < h.length)) (hv : Holds view own h' o v) :
    Holds view own h o v := by
  have hcell : ∀ id cell, id < h.length → h'[id]? = some cell → h[id]? = some cell := by
    intro id cell hid hcell
    obtain ⟨t, rfl⟩ := hp
    rwa [List.getElem?_append_left hid] at hcell
  have hclosed : ClosedOn h' (· < h.length) :=
    fun id cell hid hc => hw id cell hid (hcell id cell hid hc)
  exact Holds.keep (fun _ ho => ho.1) (fun id cell hid hc _ => hcell id cell hid.2 hc) v o
    (Holds.within hview hclosed v o ho hv)

/-! ### Trees that cells can hold -/

theorem strings_nodup {pairs : List (String × Value)}
    (hd : (pairs.map (fun p => Obj.str p.1)).Nodup) : (pairs.map Prod.fst).Nodup := by
  have hmap : pairs.map (fun p => Obj.str p.1) = (pairs.map Prod.fst).map Obj.str := by simp
  rw [hmap] at hd
  exact List.Nodup.of_map _ hd

theorem scalar_tidy {o : Obj} {v : Value} (hs : scalar o = some v) : Tidy v := by
  cases o <;> cases hs
  · trivial
  · trivial
  · trivial
  next x => exact x.exact
  · trivial

mutual

/-- What an object holds is a tree that a heap can hold. -/
theorem Holds.tidy : ∀ (v : Value) (o : Obj), Holds view own h o v → Tidy v
  | .list items, _, hv => by
    obtain ⟨_, slots, -, -, -, hall⟩ := hv
    exact HoldsAll.tidy items slots hall
  | .tuple items, _, hv => by
    obtain ⟨_, slots, -, -, -, hall⟩ := hv
    exact HoldsAll.tidy items slots hall
  | .dict pairs, _, hv => by
    obtain ⟨_, d, -, -, -, hall⟩ := hv
    have hkeys := (holdsPairs_iff.mp hall).1
    exact ⟨strings_nodup (hkeys ▸ d.distinct), HoldsPairs.tidy pairs d.entries hall⟩
  | .null, _, hv => scalar_tidy hv
  | .bool _, _, hv => scalar_tidy hv
  | .int _, _, hv => scalar_tidy hv
  | .float _, _, hv => scalar_tidy hv
  | .str _, _, hv => scalar_tidy hv
  | .nonFinite, _, hv => hv.elim
  | .backReference, _, hv => hv.elim
  | .other _, _, hv => hv.elim

theorem HoldsAll.tidy : ∀ (items : List Value) (slots : List Obj),
    HoldsAll view own h slots items → TidyItems items
  | [], _, _ => trivial
  | v :: rest, _, hall => by
    obtain ⟨o, slots', rfl, hv, hrest⟩ := hall
    exact ⟨Holds.tidy v o hv, HoldsAll.tidy rest slots' hrest⟩

theorem HoldsPairs.tidy : ∀ (pairs : List (String × Value)) (entries : List (Obj × Obj)),
    HoldsPairs view own h entries pairs → TidyPairs pairs
  | [], _, _ => trivial
  | (_, v) :: rest, _, hall => by
    obtain ⟨o, entries', rfl, hv, hrest⟩ := hall
    exact ⟨Holds.tidy v o hv, HoldsPairs.tidy rest entries' hrest⟩

end

/-! ## Copying slot by slot

A program that copies containers runs over a state `σ` with a heap in it and
may count what it visits. -/

def alloc {ε : Type} (cell : Cell) : Txn Heap ε Obj := fun h => (.ok (.ref h.length), h ++ [cell])

section Copying

variable {σ ε α : Type} (heap : σ → Heap) (count : σ → Nat)

/-- From `s` to `s'` cells were added in which `o` holds the tree, at a cost. -/
structure Landed (dst : View) (s s' : σ) (o : Obj) (v : Value) (cost : Nat) : Prop where
  grows : heap s <+: heap s'
  holds : Holds dst ((heap s).length ≤ ·) (heap s') o v
  counted : count s' = count s + cost

structure LandedAll (dst : View) (s s' : σ) (slots : List Obj) (items : List Value) (cost : Nat) :
    Prop where
  grows : heap s <+: heap s'
  holds : HoldsAll dst ((heap s).length ≤ ·) (heap s') slots items
  counted : count s' = count s + cost

variable {heap count} {s s₁ s' : σ} {o : Obj} {v : Value} {slots : List Obj} {items : List Value}
  {c c' : Nat}

theorem LandedAll.nil (s : σ) : LandedAll heap count dst s s [] [] 0 :=
  ⟨List.prefix_rfl, rfl, rfl⟩

theorem Landed.cons (hv : Landed heap count dst s s₁ o v c)
    (hrest : LandedAll heap count dst s₁ s' slots items c') :
    LandedAll heap count dst s s' (o :: slots) (v :: items) (c + c') where
  grows := hv.grows.trans hrest.grows
  holds := ⟨o, slots, rfl, hv.holds.grow hrest.grows,
    hrest.holds.mono (fun _ hid => Nat.le_trans hv.grows.length_le hid)⟩
  counted := by rw [hrest.counted, hv.counted, Nat.add_assoc]

/-- A copy of every slot, read off a run that ended. `Inv` is what each copy
keeps of the state. -/
theorem copied_forEach {f : α → Txn σ ε Obj} {obj : α → Obj} {cost : Value → Nat}
    {Good : Value → Prop} {Inv : σ → Prop} {l : List α}
    (hf : ∀ a ∈ l, ∀ s o s', Inv s → f a s = (.ok o, s') →
      Inv s' ∧ ∃ v, Holds src (fun _ => True) (heap s') (obj a) v ∧ Good v ∧
        Landed heap count dst s s' o v (cost v)) :
    ∀ s slots s', Inv s → Txn.forEach f l s = (.ok slots, s') →
      Inv s' ∧ ∃ items, HoldsAll src (fun _ => True) (heap s') (l.map obj) items ∧
        (∀ v ∈ items, Good v) ∧
        LandedAll heap count dst s s' slots items (items.map cost).sum := by
  induction l with
  | nil =>
    intro s slots s' hinv hrun
    obtain ⟨rfl, rfl⟩ := Txn.forEach_nil_ok.mp hrun
    exact ⟨hinv, [], rfl, fun _ hv => absurd hv List.not_mem_nil, LandedAll.nil s⟩
  | cons a rest ih =>
    intro s slots s' hinv hrun
    obtain ⟨o, s₁, slots', ha, hrest, rfl⟩ := Txn.forEach_cons_ok.mp hrun
    obtain ⟨hinv₁, v, hsrc, hgood, hland⟩ := hf a List.mem_cons_self s o s₁ hinv ha
    obtain ⟨hinv', items, hall, hgoods, hlands⟩ :=
      ih (fun a' ha' => hf a' (List.mem_cons_of_mem _ ha')) s₁ slots' s' hinv₁ hrest
    refine ⟨hinv', v :: items, ?_, List.forall_mem_cons.mpr ⟨hgood, hgoods⟩, ?_⟩
    · exact ⟨obj a, rest.map obj, rfl, hsrc.grow hlands.grows, hall⟩
    · rw [List.map_cons, List.sum_cons]
      exact hland.cons hlands

theorem forall₂_zipIdx {R : Obj → Value → Prop} {slots : List Obj} {items : List Value} {n : Nat}
    (h : List.Forall₂ R slots items) :
    List.Forall₂ (fun item v => R item.1 v) (slots.zipIdx n) items := by
  induction h generalizing n with
  | nil => exact .nil
  | cons ho _ ih => exact .cons ho ih

theorem forall₂_of_mem {β : Type} {R S : α → β → Prop} {l : List α} {l' : List β}
    (h : List.Forall₂ R l l') (hs : ∀ a b, a ∈ l → b ∈ l' → R a b → S a b) :
    List.Forall₂ S l l' := by
  induction h with
  | nil => exact .nil
  | cons ha _ ih =>
    exact .cons (hs _ _ List.mem_cons_self List.mem_cons_self ha)
      (ih (fun a b hm hm' => hs a b (List.mem_cons_of_mem _ hm) (List.mem_cons_of_mem _ hm')))

/-- Copying every slot, run from what the slots hold within a limit. -/
theorem runs_forEach {f : α → Txn σ ε Obj} {cost : Value → Nat} {limit : Nat} {base : Heap}
    {l : List α} {items : List Value}
    (hf : List.Forall₂ (fun a v => ∀ s, base <+: heap s → count s + cost v ≤ limit →
      ∃ o s', f a s = (.ok o, s') ∧ Landed heap count dst s s' o v (cost v)) l items) :
    ∀ s, base <+: heap s → count s + (items.map cost).sum ≤ limit →
      ∃ slots s', Txn.forEach f l s = (.ok slots, s') ∧
        LandedAll heap count dst s s' slots items (items.map cost).sum := by
  induction hf with
  | nil =>
    intro s _ _
    exact ⟨[], s, rfl, LandedAll.nil s⟩
  | @cons a v rest items ha _ ih =>
    intro s hs hlimit
    rw [List.map_cons, List.sum_cons] at hlimit
    obtain ⟨o, s₁, hrun, hland⟩ := ha s hs (by omega)
    have hcount := hland.counted
    obtain ⟨slots, s', hrest, hlands⟩ := ih s₁ (hs.trans hland.grows) (by omega)
    refine ⟨o :: slots, s', Txn.forEach_cons_ok.mpr ⟨o, s₁, slots, hrun, hrest, rfl⟩, ?_⟩
    rw [List.map_cons, List.sum_cons]
    exact hland.cons hlands

/-- A scalar is its own copy. -/
theorem Landed.scalar (ho : PyHeap.scalar o = some v) (hheap : heap s' = heap s)
    (hcount : count s' = count s + c) : Landed heap count dst s s' o v c :=
  ⟨by rewrite [hheap]; exact List.prefix_rfl, holds_of_scalar ho, hcount⟩

/-! ### The cell of the copies -/

theorem shapeAt_new {dst : View} {h : Heap} {cell : Cell} {shape : Shape}
    (hcell : dst cell = some shape) : shapeAt dst (h ++ [cell]) h.length = some shape := by
  rw [shapeAt, List.getElem?_concat_length, Option.bind_some, hcell]

theorem LandedAll.list {cell : Cell} (hland : LandedAll heap count dst s s₁ slots items c)
    (hcell : dst cell = some (.list slots)) (hheap : heap s' = heap s₁ ++ [cell])
    (hcount : count s' = count s₁) :
    Landed heap count dst s s' (.ref (heap s₁).length) (.list items) c where
  grows := by
    rw [hheap]
    exact hland.grows.trans (List.prefix_append _ _)
  holds := by
    rw [hheap]
    exact ⟨_, slots, rfl, hland.grows.length_le, shapeAt_new hcell,
      hland.holds.grow (List.prefix_append _ _)⟩
  counted := by rw [hcount, hland.counted]

theorem LandedAll.tuple {cell : Cell} (hland : LandedAll heap count dst s s₁ slots items c)
    (hcell : dst cell = some (.tuple slots)) (hheap : heap s' = heap s₁ ++ [cell])
    (hcount : count s' = count s₁) :
    Landed heap count dst s s' (.ref (heap s₁).length) (.tuple items) c where
  grows := by
    rw [hheap]
    exact hland.grows.trans (List.prefix_append _ _)
  holds := by
    rw [hheap]
    exact ⟨_, slots, rfl, hland.grows.length_le, shapeAt_new hcell,
      hland.holds.grow (List.prefix_append _ _)⟩
  counted := by rw [hcount, hland.counted]

theorem HoldsAll.length (hall : HoldsAll view own h slots items) : slots.length = items.length :=
  (holdsAll_iff.mp hall).length_eq

theorem LandedAll.dict {cell : Cell} {d : PyDict} {pairs : List (String × Value)}
    (hkeys : d.entries.map Prod.fst = pairs.map (fun p => .str p.1))
    (hland : LandedAll heap count dst s s₁ slots (pairs.map Prod.snd) c)
    (hcell : dst cell = some (.dict (d.withValues slots))) (hheap : heap s' = heap s₁ ++ [cell])
    (hcount : count s' = count s₁) :
    Landed heap count dst s s' (.ref (heap s₁).length) (.dict pairs) c where
  grows := by
    rw [hheap]
    exact hland.grows.trans (List.prefix_append _ _)
  holds := by
    have hlen : slots.length = d.entries.length := by
      have hd := congrArg List.length hkeys
      rw [List.length_map, List.length_map] at hd
      rw [hland.holds.length, List.length_map, hd]
    rw [hheap]
    refine ⟨_, d.withValues slots, rfl, hland.grows.length_le, shapeAt_new hcell,
      holdsPairs_iff.mpr ⟨?_, ?_⟩⟩
    · exact (rewriteValues_fst hlen).trans hkeys
    · rw [PyDict.withValues, rewriteValues_snd hlen]
      exact hland.holds.grow (List.prefix_append _ _)
  counted := by rw [hcount, hland.counted]

end Copying

/-! ## Rebuilding -/

def shapeOf (view : View) (h : Heap) : Obj → Option Shape
  | .ref id => shapeAt view h id
  | _ => none

/-- A container's slots copied by `f`. -/
def copyShape {σ ε : Type} (f : Obj → Txn σ ε Obj) : Shape → Txn σ ε Shape
  | .list slots => do
    let slots ← Txn.forEach f slots
    pure (.list slots)
  | .tuple slots => do
    let slots ← Txn.forEach f slots
    pure (.tuple slots)
  | .dict d => do
    let values ← Txn.forEach f (d.entries.map Prod.snd)
    pure (.dict (d.withValues values))

/-- Every container that `view` reads is made anew; anything else is handed on
as it is. `deep` is raised when the containers nest deeper than `fuel`. -/
def rebuild {ε : Type} (view : View) (make : Shape → Cell) (deep : ε) : Nat → Obj → Txn Heap ε Obj
  | fuel, o => do
    match (← Txn.query (fun h => shapeOf view h o)) with
    | none => pure o
    | some shape =>
      match fuel with
      | 0 => Txn.raise deep
      | fuel + 1 =>
        let shape ← copyShape (rebuild view make deep fuel) shape
        alloc (make shape)

/-- The frozen form of a container. -/
def frozenCell : Shape → Cell
  | .list slots => .tuple slots
  | .tuple slots => .tuple slots
  | .dict d => .proxy d

/-- The plain form of a container. -/
def plainCell : Shape → Cell
  | .list slots => .list slots
  | .tuple slots => .tuple slots
  | .dict d => .dict d

/-- `make` writes what `src` reads so that `dst` reads it alike. -/
def Rewrites (src dst : View) (make : Shape → Cell) : Prop :=
  ∀ shape cell, src cell = some shape →
    match shape with
    | .list _ => ∀ slots, dst (make (.list slots)) = some (.list slots)
    | .tuple _ => ∀ slots, dst (make (.tuple slots)) = some (.tuple slots)
    | .dict _ => ∀ d, dst (make (.dict d)) = some (.dict d)

theorem rewrites_frozen : Rewrites plainView frozenView frozenCell := by
  intro shape cell hs
  cases cell <;> cases hs <;> intro _ <;> rfl

theorem rewrites_plain : Rewrites frozenView plainView plainCell := by
  intro shape cell hs
  cases cell <;> cases hs <;> intro _ <;> rfl

/-- Every slot rebuilt, from what the slots hold. -/
theorem rebuild_slots {ε : Type} {f : Obj → Txn Heap ε Obj} {base : Heap} {slots : List Obj}
    {items : List Value} {n : Nat} (hdepth : depthOfItems items ≤ n)
    (hall : HoldsAll src own base slots items)
    (hf : ∀ o v, Holds src own base o v → depthOf v ≤ n → ∀ h, base <+: h →
      ∃ o' h', f o h = (.ok o', h') ∧ Landed id (fun _ => 0) dst h h' o' v 0) :
    ∀ h, base <+: h → ∃ slots' h', Txn.forEach f slots h = (.ok slots', h') ∧
      LandedAll id (fun _ => 0) dst h h' slots' items 0 := by
  intro h hp
  have hslots := holdsAll_iff.mp hall
  have hbound := depthOfItems_le.mp hdepth
  have hzero : (items.map (fun _ => 0)).sum = 0 := by simp
  have hruns : List.Forall₂ (fun o v => ∀ h, base <+: h → 0 + 0 ≤ 0 →
      ∃ o' h', f o h = (.ok o', h') ∧ Landed id (fun _ => 0) dst h h' o' v 0) slots items := by
    clear hdepth hall hzero
    induction hslots with
    | nil => exact .nil
    | cons hv _ ih =>
      rw [List.forall_mem_cons] at hbound
      exact .cons (fun h hp _ => hf _ _ hv hbound.1 h hp) (ih hbound.2)
  obtain ⟨slots', h', hrun, hland⟩ := @runs_forEach dst _ ε _ id (fun _ => 0) f (fun _ => 0) 0 base
    slots items hruns h hp (by rw [hzero])
  rw [hzero] at hland
  exact ⟨slots', h', hrun, hland⟩

theorem rebuild_scalar {ε : Type} {make : Shape → Cell} {deep : ε} {fuel : Nat} {o : Obj}
    {v : Value} (hs : scalar o = some v) (h : Heap) :
    ∃ o' h', rebuild src make deep fuel o h = (.ok o', h') ∧
      Landed id (fun _ => 0) dst h h' o' v 0 := by
  have hshape : shapeOf src h o = none := by
    cases o <;> first | rfl | cases hs
  refine ⟨o, h, ?_, Landed.scalar hs rfl rfl⟩
  cases fuel <;> simp [rebuild, hshape]

theorem rebuild_container {ε : Type} {make : Shape → Cell} {deep : ε} {fuel id : Nat}
    {shape shape' : Shape} {h h' : Heap} (hs : shapeAt src h id = some shape)
    (hcopy : copyShape (rebuild src make deep fuel) shape h = (.ok shape', h')) :
    rebuild src make deep (fuel + 1) (.ref id) h =
      (.ok (.ref h'.length), h' ++ [make shape']) := by
  rw [rebuild, Txn.bind_ok]
  refine ⟨_, h, Txn.query_ok.mpr ⟨rfl, rfl⟩, ?_⟩
  simp only [shapeOf, hs, Txn.bind_ok]
  exact ⟨shape', h', hcopy, rfl⟩

/-- **Rebuilding makes new cells that hold the same tree.** -/
theorem rebuild_runs {ε : Type} {make : Shape → Cell} {deep : ε} {base : Heap}
    (hm : Rewrites src dst make) (fuel : Nat) : ∀ o v, Holds src own base o v → depthOf v ≤ fuel →
    ∀ h, base <+: h → ∃ o' h', rebuild src make deep fuel o h = (.ok o', h') ∧
      Landed id (fun _ => 0) dst h h' o' v 0 := by
  induction fuel with
  | zero =>
    intro o v hv hdepth h hp
    rcases hv.split with hs | ⟨_, _, _, -, rfl, -⟩ | ⟨_, _, _, -, rfl, -⟩ | ⟨_, _, _, -, rfl, -⟩
    · exact rebuild_scalar hs h
    · exact absurd hdepth (Nat.not_succ_le_zero _)
    · exact absurd hdepth (Nat.not_succ_le_zero _)
    · exact absurd hdepth (Nat.not_succ_le_zero _)
  | succ fuel ih =>
    intro o v hv hdepth h hp
    rcases hv.split with hs | ⟨id, slots, items, rfl, rfl, hs, hall⟩ |
      ⟨id, slots, items, rfl, rfl, hs, hall⟩ | ⟨id, d, pairs, rfl, rfl, hs, hall⟩
    · exact rebuild_scalar hs h
    · obtain ⟨cell, -, hread⟩ := shapeAt_some hs
      obtain ⟨slots', h₁, hrun, hland⟩ :=
        rebuild_slots (Nat.le_of_succ_le_succ hdepth) hall ih h hp
      have hcopy : copyShape (rebuild src make deep fuel) (.list slots) h =
          (.ok (.list slots'), h₁) := by simp [copyShape, hrun]
      refine ⟨_, _, rebuild_container (shapeAt_of_growth hp hs) hcopy, ?_⟩
      exact hland.list (hm _ cell hread slots') rfl rfl
    · obtain ⟨cell, -, hread⟩ := shapeAt_some hs
      obtain ⟨slots', h₁, hrun, hland⟩ :=
        rebuild_slots (Nat.le_of_succ_le_succ hdepth) hall ih h hp
      have hcopy : copyShape (rebuild src make deep fuel) (.tuple slots) h =
          (.ok (.tuple slots'), h₁) := by simp [copyShape, hrun]
      refine ⟨_, _, rebuild_container (shapeAt_of_growth hp hs) hcopy, ?_⟩
      exact hland.tuple (hm _ cell hread slots') rfl rfl
    · obtain ⟨cell, -, hread⟩ := shapeAt_some hs
      obtain ⟨hkeys, hvalues⟩ := holdsPairs_iff.mp hall
      rw [depthOf, depthOfPairs_eq] at hdepth
      obtain ⟨values, h₁, hrun, hland⟩ :=
        rebuild_slots (Nat.le_of_succ_le_succ hdepth) hvalues ih h hp
      have hcopy : copyShape (rebuild src make deep fuel) (.dict d) h =
          (.ok (.dict (d.withValues values)), h₁) := by simp [copyShape, hrun]
      refine ⟨_, _, rebuild_container (shapeAt_of_growth hp hs) hcopy, ?_⟩
      exact LandedAll.dict hkeys hland (hm _ cell hread _) rfl rfl

/-! ### What was rebuilt -/

/-- A copy `o'` of `o`, made from `h` to `h'`: a tree that the copy holds later
on, in the view of copies, `o` holds in the wide view. -/
def CopiedFrom (wide dst : View) (o : Obj) (h : Heap) (o' : Obj) (h' : Heap) : Prop :=
  h <+: h' ∧ ∀ later v, h' <+: later → Holds dst (fun _ => True) later o' v →
    Holds wide (fun _ => True) later o v

theorem copiedFrom_slots {ε : Type} {wide : View} {f : Obj → Txn Heap ε Obj}
    (hf : ∀ o h o' h', f o h = (.ok o', h') → CopiedFrom wide dst o h o' h') :
    ∀ (slots : List Obj) (h : Heap) (slots' : List Obj) (h' : Heap),
      Txn.forEach f slots h = (.ok slots', h') → h <+: h' ∧ slots'.length = slots.length ∧
        ∀ later items, h' <+: later → HoldsAll dst (fun _ => True) later slots' items →
          HoldsAll wide (fun _ => True) later slots items
  | [], h, slots', h', hrun => by
    obtain ⟨rfl, rfl⟩ := Txn.forEach_nil_ok.mp hrun
    refine ⟨List.prefix_rfl, rfl, fun later items _ hall => ?_⟩
    cases items with
    | nil => rfl
    | cons _ _ =>
      obtain ⟨_, _, heq, -⟩ := hall
      cases heq
  | o :: slots, h, slots', h', hrun => by
    obtain ⟨o', h₁, rest', ho, hrest, rfl⟩ := Txn.forEach_cons_ok.mp hrun
    obtain ⟨hp, hcopy⟩ := hf o h o' h₁ ho
    obtain ⟨hp', hlen, hcopies⟩ := copiedFrom_slots hf slots h₁ rest' h' hrest
    refine ⟨hp.trans hp', by rw [List.length_cons, List.length_cons, hlen], ?_⟩
    intro later items hlater hall
    cases items with
    | nil => cases hall
    | cons v items =>
      obtain ⟨_, _, heq, hv, hall⟩ := hall
      cases heq
      exact ⟨o, slots, rfl, hcopy later v (hp'.trans hlater) hv, hcopies later items hlater hall⟩

theorem copiedFrom_self {wide : View} (hdst : Includes wide dst) (o : Obj) (h : Heap) :
    CopiedFrom wide dst o h o h :=
  ⟨List.prefix_rfl, fun _ v _ hv => Holds.widen hdst v o hv⟩

/-- What the tree of a new cell is, by what the cell is read as. -/
theorem holds_new {h later : Heap} {cell : Cell} {shape : Shape} {v : Value}
    (hp : h ++ [cell] <+: later) (hcell : dst cell = some shape)
    (hv : Holds dst own later (.ref h.length) v) :
    (∃ slots items, shape = .list slots ∧ v = .list items ∧ HoldsAll dst own later slots items) ∨
    (∃ slots items, shape = .tuple slots ∧ v = .tuple items ∧
      HoldsAll dst own later slots items) ∨
    (∃ d pairs, shape = .dict d ∧ v = .dict pairs ∧ HoldsPairs dst own later d.entries pairs) := by
  obtain ⟨shape', hs, -, hcases⟩ := hv.ref
  rw [shapeAt_of_growth hp (shapeAt_new hcell)] at hs
  cases hs
  exact hcases

/-- **What a rebuilt object holds, the object held** — some of its containers
as `src` reads them, some already as `dst` does. -/
theorem rebuild_ok {ε : Type} {wide : View} {make : Shape → Cell} {deep : ε}
    (hm : Rewrites src dst make) (hsrc : Includes wide src) (hdst : Includes wide dst) (fuel : Nat) :
    ∀ o h o' h', rebuild src make deep fuel o h = (.ok o', h') →
      CopiedFrom wide dst o h o' h' := by
  induction fuel with
  | zero =>
    intro o h o' h' hrun
    rw [rebuild, Txn.bind_ok] at hrun
    obtain ⟨_, _, hread, hrun⟩ := hrun
    obtain ⟨rfl, rfl⟩ := Txn.query_ok.mp hread
    cases hshape : shapeOf src h o with
    | none =>
      rw [hshape] at hrun
      cases hrun
      exact copiedFrom_self hdst o h
    | some shape =>
      rw [hshape] at hrun
      cases hrun
  | succ fuel ih =>
    intro o h o' h' hrun
    rw [rebuild, Txn.bind_ok] at hrun
    obtain ⟨_, _, hread, hrun⟩ := hrun
    obtain ⟨rfl, rfl⟩ := Txn.query_ok.mp hread
    cases hshape : shapeOf src h o with
    | none =>
      rw [hshape] at hrun
      cases hrun
      exact copiedFrom_self hdst o h
    | some shape =>
      rw [hshape] at hrun
      obtain ⟨id, rfl⟩ : ∃ id, o = .ref id := by
        cases o with
        | ref id => exact ⟨id, rfl⟩
        | _ => cases hshape
      have hs : shapeAt src h id = some shape := hshape
      obtain ⟨cell, -, hcell⟩ := shapeAt_some hs
      simp only [Txn.bind_ok] at hrun
      obtain ⟨shape', h₁, hcopy, halloc⟩ := hrun
      cases halloc
      cases shape with
      | list slots =>
        simp only [copyShape, Txn.bind_ok, Txn.pure_ok] at hcopy
        obtain ⟨slots', _, hloop, rfl, rfl⟩ := hcopy
        obtain ⟨hp, -, hcopies⟩ := copiedFrom_slots ih slots h slots' _ hloop
        refine ⟨hp.trans (List.prefix_append _ _), fun later v hlater hv => ?_⟩
        have hgrown := (List.prefix_append _ _).trans hlater
        rcases holds_new hlater (hm _ cell hcell slots') hv with ⟨_, items, heq, rfl, hall⟩ |
          ⟨_, _, heq, -⟩ | ⟨_, _, heq, -⟩
        · cases heq
          exact ⟨id, slots, rfl, trivial, hsrc.shapeAt (shapeAt_of_growth (hp.trans hgrown) hs),
            hcopies later items hgrown hall⟩
        · cases heq
        · cases heq
      | tuple slots =>
        simp only [copyShape, Txn.bind_ok, Txn.pure_ok] at hcopy
        obtain ⟨slots', _, hloop, rfl, rfl⟩ := hcopy
        obtain ⟨hp, -, hcopies⟩ := copiedFrom_slots ih slots h slots' _ hloop
        refine ⟨hp.trans (List.prefix_append _ _), fun later v hlater hv => ?_⟩
        have hgrown := (List.prefix_append _ _).trans hlater
        rcases holds_new hlater (hm _ cell hcell slots') hv with ⟨_, _, heq, -⟩ |
          ⟨_, items, heq, rfl, hall⟩ | ⟨_, _, heq, -⟩
        · cases heq
        · cases heq
          exact ⟨id, slots, rfl, trivial, hsrc.shapeAt (shapeAt_of_growth (hp.trans hgrown) hs),
            hcopies later items hgrown hall⟩
        · cases heq
      | dict d =>
        simp only [copyShape, Txn.bind_ok, Txn.pure_ok] at hcopy
        obtain ⟨values, _, hloop, rfl, rfl⟩ := hcopy
        obtain ⟨hp, hlen, hcopies⟩ := copiedFrom_slots ih _ h values _ hloop
        rw [List.length_map] at hlen
        refine ⟨hp.trans (List.prefix_append _ _), fun later v hlater hv => ?_⟩
        have hgrown := (List.prefix_append _ _).trans hlater
        rcases holds_new hlater (hm _ cell hcell _) hv with ⟨_, _, heq, -⟩ | ⟨_, _, heq, -⟩ |
          ⟨_, pairs, heq, rfl, hall⟩
        · cases heq
        · cases heq
        · cases heq
          obtain ⟨hkeys, hvalues⟩ := holdsPairs_iff.mp hall
          refine ⟨id, d, rfl, trivial, hsrc.shapeAt (shapeAt_of_growth (hp.trans hgrown) hs),
            holdsPairs_iff.mpr ⟨(rewriteValues_fst hlen).symm.trans hkeys, ?_⟩⟩
          rw [PyDict.withValues, rewriteValues_snd hlen] at hvalues
          exact hcopies later _ hgrown hvalues

/-! ## Trees in and out of cells -/

/-- An entry with a string for its key. -/
def stringEntry (read : Obj → Option Value) (entry : Obj × Obj) : Option (String × Value) :=
  match entry.1 with
  | .str k => (read entry.2).map (fun v => (k, v))
  | _ => none

/-- The tree an object holds, read to a depth. -/
def readTree (view : View) (h : Heap) : Nat → Obj → Option Value
  | fuel, o =>
    match shapeOf view h o with
    | none => scalar o
    | some shape =>
      match fuel with
      | 0 => none
      | fuel + 1 =>
        match shape with
        | .list slots => (slots.mapM (readTree view h fuel)).map .list
        | .tuple slots => (slots.mapM (readTree view h fuel)).map .tuple
        | .dict d => (d.entries.mapM (stringEntry (readTree view h fuel))).map .dict

theorem readTree_scalar {fuel : Nat} {o : Obj} {v : Value} (hs : scalar o = some v) :
    readTree view h fuel o = some v := by
  have hshape : shapeOf view h o = none := by
    cases o <;> first | rfl | cases hs
  cases fuel <;> simp [readTree, hshape, hs]

theorem mapM_readTree {read : Obj → Option Value} {slots : List Obj} {items : List Value}
    (hread : ∀ o v, v ∈ items → Holds view own h o v → read o = some v)
    (hall : HoldsAll view own h slots items) : slots.mapM read = some items := by
  induction items generalizing slots with
  | nil =>
    rw [HoldsAll] at hall
    subst hall
    rfl
  | cons v rest ih =>
    obtain ⟨o, slots', rfl, hv, hrest⟩ := hall
    rw [List.mapM_cons, hread o v List.mem_cons_self hv,
      ih (fun o' v' hv' => hread o' v' (List.mem_cons_of_mem _ hv')) hrest]
    rfl

theorem mapM_stringEntry {read : Obj → Option Value} {entries : List (Obj × Obj)}
    {pairs : List (String × Value)}
    (hread : ∀ o v, v ∈ pairs.map Prod.snd → Holds view own h o v → read o = some v)
    (hall : HoldsPairs view own h entries pairs) :
    entries.mapM (stringEntry read) = some pairs := by
  induction pairs generalizing entries with
  | nil =>
    rw [HoldsPairs] at hall
    subst hall
    rfl
  | cons p rest ih =>
    obtain ⟨k, v⟩ := p
    obtain ⟨o, entries', rfl, hv, hrest⟩ := hall
    have hhead : stringEntry read (.str k, o) = some (k, v) := by
      rw [stringEntry, hread o v (by simp) hv]
      rfl
    rw [List.mapM_cons, hhead, ih (fun o' v' hv' => hread o' v' (List.mem_cons_of_mem _ hv')) hrest]
    rfl

/-- **A tree is read back from the cells that hold it.** -/
theorem readTree_of_holds (fuel : Nat) : ∀ o v, Holds view own h o v → depthOf v ≤ fuel →
    readTree view h fuel o = some v := by
  induction fuel with
  | zero =>
    intro o v hv hdepth
    rcases hv.split with hs | ⟨_, _, _, -, rfl, -⟩ | ⟨_, _, _, -, rfl, -⟩ | ⟨_, _, _, -, rfl, -⟩
    · exact readTree_scalar hs
    · exact absurd hdepth (Nat.not_succ_le_zero _)
    · exact absurd hdepth (Nat.not_succ_le_zero _)
    · exact absurd hdepth (Nat.not_succ_le_zero _)
  | succ fuel ih =>
    intro o v hv hdepth
    rcases hv.split with hs | ⟨id, slots, items, rfl, rfl, hs, hall⟩ |
      ⟨id, slots, items, rfl, rfl, hs, hall⟩ | ⟨id, d, pairs, rfl, rfl, hs, hall⟩
    · exact readTree_scalar hs
    · have hbound := depthOfItems_le.mp (Nat.le_of_succ_le_succ hdepth)
      have hslots := mapM_readTree (fun o v hv ho => ih o v ho (hbound v hv)) hall
      simp [readTree, shapeOf, hs, hslots]
    · have hbound := depthOfItems_le.mp (Nat.le_of_succ_le_succ hdepth)
      have hslots := mapM_readTree (fun o v hv ho => ih o v ho (hbound v hv)) hall
      simp [readTree, shapeOf, hs, hslots]
    · rw [depthOf, depthOfPairs_eq] at hdepth
      have hbound := depthOfItems_le.mp (Nat.le_of_succ_le_succ hdepth)
      have hentries := mapM_stringEntry (fun o v hv ho => ih o v ho (hbound v hv)) hall
      simp [readTree, shapeOf, hs, hentries]

mutual

/-- A tree written into new cells. A decimal no float is near becomes an
infinity; a form that is no tree of a document becomes an object no reader
takes. -/
def build {ε : Type} : Value → Txn Heap ε Obj
  | .list items => do
    let slots ← buildItems items
    alloc (.list slots)
  | .tuple items => do
    let slots ← buildItems items
    alloc (.tuple slots)
  | .dict pairs => do
    let entries ← buildPairs pairs
    alloc (.dict (PyDict.ofPairs entries))
  | .null => pure .null
  | .bool b => pure (.bool b)
  | .int n => pure (.int n)
  | .float x =>
    match Float64.ofDecimal x with
    | some y => pure (.float y)
    | none => pure .nonFinite
  | .str s => pure (.str s)
  | .nonFinite => pure .nonFinite
  | .backReference => pure (.other "" 0)
  | .other typeName => pure (.other typeName 0)

def buildItems {ε : Type} : List Value → Txn Heap ε (List Obj)
  | [] => pure []
  | v :: rest => do
    let o ← build v
    let slots ← buildItems rest
    pure (o :: slots)

def buildPairs {ε : Type} : List (String × Value) → Txn Heap ε (List (Obj × Obj))
  | [] => pure []
  | (k, v) :: rest => do
    let o ← build v
    let entries ← buildPairs rest
    pure ((.str k, o) :: entries)

end

theorem rewriteValues_self : ∀ entries : List (Obj × Obj),
    rewriteValues entries (entries.map Prod.snd) = entries
  | [] => rfl
  | e :: rest => by
    have ih := rewriteValues_self rest
    simpa [rewriteValues] using ih

theorem PyDict.withValues_self {d : PyDict} {values : List Obj}
    (hv : values = d.entries.map Prod.snd) : d.withValues values = d := by
  obtain ⟨entries, distinct⟩ := d
  simp only [PyDict.withValues, PyDict.mk.injEq]
  rw [hv]
  exact rewriteValues_self entries

theorem float_of_read {x : PyFloat} (hx : x.read = some x) :
    ∃ y : Float64, Float64.ofDecimal x = some y ∧ y.decimal = x :=
  ⟨⟨x, hx⟩, Float64.ofDecimal_self ⟨x, hx⟩, rfl⟩

theorem build_scalar {ε : Type} {o : Obj} {v : Value} {h : Heap} (hs : scalar o = some v)
    (hbuild : (build v : Txn Heap ε Obj) h = (.ok o, h)) :
    ∃ o h', (build v : Txn Heap ε Obj) h = (.ok o, h') ∧
      Landed id (fun _ => 0) plainView h h' o v 0 :=
  ⟨o, h, hbuild, Landed.scalar hs rfl rfl⟩

mutual

/-- **A tree of a document written into new cells is held there.** -/
theorem build_runs {ε : Type} : ∀ v : Value, Normal v → Tidy v → ∀ h : Heap,
    ∃ o h', (build v : Txn Heap ε Obj) h = (.ok o, h') ∧
      Landed id (fun _ => 0) plainView h h' o v 0
  | .list items, hn, hs, h => by
    obtain ⟨slots, h₁, hrun, hland⟩ := @buildItems_runs ε items hn hs h
    refine ⟨.ref h₁.length, h₁ ++ [.list slots], ?_, hland.list rfl rfl rfl⟩
    rw [build, Txn.bind_ok]
    exact ⟨slots, h₁, hrun, rfl⟩
  | .dict pairs, hn, hs, h => by
    obtain ⟨entries, h₁, hrun, hkeys, hland⟩ := @buildPairs_runs ε pairs hn.2 hs.2 h
    have hnodup : (entries.map Prod.fst).Nodup := by
      have hmap : pairs.map (fun p => Obj.str p.1) = (pairs.map Prod.fst).map Obj.str := by simp
      rw [hkeys, hmap]
      exact hs.1.map (fun a b heq => Obj.str.inj heq)
    have hentries := PyDict.ofPairs_entries hnodup
    refine ⟨.ref h₁.length, h₁ ++ [.dict (PyDict.ofPairs entries)], ?_, ?_⟩
    · rw [build, Txn.bind_ok]
      exact ⟨entries, h₁, hrun, rfl⟩
    · refine LandedAll.dict (by rw [hentries, hkeys]) hland ?_ rfl rfl
      rw [PyDict.withValues_self (by rw [hentries])]
      rfl
  | .null, _, _, h => build_scalar rfl rfl
  | .bool b, _, _, h => @build_scalar ε (.bool b) _ h rfl rfl
  | .int n, _, _, h => @build_scalar ε (.int n) _ h rfl rfl
  | .float x, _, hs, h => by
    obtain ⟨y, hy, hx⟩ := float_of_read hs
    refine @build_scalar ε (.float y) _ h (by rw [scalar, hx]) ?_
    rw [build, hy]
    rfl
  | .str s, _, _, h => @build_scalar ε (.str s) _ h rfl rfl
  | .tuple _, hn, _, _ => hn.elim
  | .nonFinite, hn, _, _ => hn.elim
  | .backReference, hn, _, _ => hn.elim
  | .other _, hn, _, _ => hn.elim

theorem buildItems_runs {ε : Type} : ∀ items : List Value, NormalItems items →
    TidyItems items → ∀ h : Heap,
    ∃ slots h', (buildItems items : Txn Heap ε (List Obj)) h = (.ok slots, h') ∧
      LandedAll id (fun _ => 0) plainView h h' slots items 0
  | [], _, _, h => ⟨[], h, rfl, LandedAll.nil h⟩
  | v :: rest, hn, hs, h => by
    obtain ⟨o, h₁, hv, hland⟩ := @build_runs ε v hn.1 hs.1 h
    obtain ⟨slots, h₂, hrest, hlands⟩ := @buildItems_runs ε rest hn.2 hs.2 h₁
    refine ⟨o :: slots, h₂, ?_, hland.cons hlands⟩
    rw [buildItems, Txn.bind_ok]
    exact ⟨o, h₁, hv, Txn.bind_ok.mpr ⟨slots, h₂, hrest, rfl⟩⟩

theorem buildPairs_runs {ε : Type} : ∀ pairs : List (String × Value), NormalPairs pairs →
    TidyPairs pairs → ∀ h : Heap,
    ∃ entries h', (buildPairs pairs : Txn Heap ε (List (Obj × Obj))) h = (.ok entries, h') ∧
      entries.map Prod.fst = pairs.map (fun p => .str p.1) ∧
      LandedAll id (fun _ => 0) plainView h h' (entries.map Prod.snd) (pairs.map Prod.snd) 0
  | [], _, _, h => ⟨[], h, rfl, rfl, LandedAll.nil h⟩
  | (k, v) :: rest, hn, hs, h => by
    obtain ⟨o, h₁, hv, hland⟩ := @build_runs ε v hn.1 hs.1 h
    obtain ⟨entries, h₂, hrest, hkeys, hlands⟩ := @buildPairs_runs ε rest hn.2 hs.2 h₁
    refine ⟨(.str k, o) :: entries, h₂, ?_, ?_, hland.cons hlands⟩
    · rw [buildPairs, Txn.bind_ok]
      exact ⟨o, h₁, hv, Txn.bind_ok.mpr ⟨entries, h₂, hrest, rfl⟩⟩
    · rw [List.map_cons, List.map_cons, hkeys]

end

end PyHeap
