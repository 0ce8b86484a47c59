import QuantumEntanglement.Lib.ObjectHeap

/-
  Exact dicts — records as dicts with a fixed set of fields

  A record is written as a dict with one entry for each field, and a dict is
  read as a record if its keys are the names of the fields, in any order.

  What is proved:
    1. `get?_of_holds`, `hasFields_of_holds` — a dict that holds the members of
       a record has its fields, and each is found under its name.
    2. `holds_of_fields` — a dict with these fields holds the members, in its
       own order.
    3. `normalize_perm`, `normalize_congr` — the order of the members and the
       order of keys inside them leave the normal form as it is.
    4. `member_of_normalize`, `get?_scalar` — a dict with the normal form of a
       record has its members, up to the normal form, and those that are
       scalars are found as they are.
-/

namespace PyHeap

open PyJson Transaction

variable {view : View} {own : Nat → Prop} {h : Heap}

/-- `d.get(name)`, of the objects. -/
def PyDict.get? (d : PyDict) (name : String) : Option Obj :=
  (d.entries.find? (fun e => e.1 = .str name)).map Prod.snd

/-- The keys are the names, in some order. -/
def PyDict.HasFields (d : PyDict) (names : List String) : Prop :=
  (∀ e ∈ d.entries, ∃ name ∈ names, e.1 = .str name) ∧
    ∀ name ∈ names, Obj.str name ∈ d.entries.map Prod.fst

instance (d : PyDict) (names : List String) : Decidable (d.HasFields names) :=
  inferInstanceAs (Decidable (_ ∧ _))

/-! ## Dicts of a view -/

/-- The object is a dict of the view. -/
def isDict (view : View) (h : Heap) (o : Obj) : Bool :=
  match shapeOf view h o with
  | some (.dict _) => true
  | _ => false

/-- A dict of a view is what holds an object of a document in it. -/
theorem isDict_iff {o : Obj} {v : Value} (hv : Holds view own h o v) :
    isDict view h o = true ↔ ∃ pairs, v = .dict pairs := by
  rcases hv.split with hs | ⟨id, slots, items, rfl, rfl, hs, -⟩ |
    ⟨id, slots, items, rfl, rfl, hs, -⟩ | ⟨id, d, pairs, rfl, rfl, hs, -⟩
  · cases o <;> cases hs <;> simp [isDict, shapeOf]
  · simp [isDict, shapeOf, hs]
  · simp [isDict, shapeOf, hs]
  · simp [isDict, shapeOf, hs]

/-! ## Reading a field -/

/-- No key comes twice, so an entry is what its key finds. -/
theorem get?_of_mem {d : PyDict} {name : String} {o : Obj}
    (hmem : (Obj.str name, o) ∈ d.entries) : d.get? name = some o := by
  cases hfind : d.entries.find? (fun e => e.1 = .str name) with
  | none =>
    have hno := List.find?_eq_none.mp hfind _ hmem
    simp at hno
  | some e =>
    have hkey : e.1 = .str name := by simpa using List.find?_some hfind
    have heq := List.inj_on_of_nodup_map d.distinct (List.mem_of_find?_eq_some hfind) hmem hkey
    rw [PyDict.get?, hfind, heq]
    rfl

theorem exists_left_of_forall₂ {α β : Type} {R : α → β → Prop} {xs : List α} {ys : List β}
    (hall : List.Forall₂ R xs ys) : ∀ y ∈ ys, ∃ x ∈ xs, R x y := by
  induction hall with
  | nil => exact fun y hy => absurd hy List.not_mem_nil
  | cons hr _ ih =>
    intro y hy
    rcases List.mem_cons.mp hy with rfl | hy
    · exact ⟨_, List.mem_cons_self, hr⟩
    · obtain ⟨x, hx, hr'⟩ := ih y hy
      exact ⟨x, List.mem_cons_of_mem _ hx, hr'⟩

theorem get?_of_holds {d : PyDict} {pairs : List (String × Value)} {name : String} {v : Value}
    (hall : HoldsPairs view own h d.entries pairs) (hmem : (name, v) ∈ pairs) :
    ∃ o, d.get? name = some o ∧ Holds view own h o v := by
  obtain ⟨e, he, hkey, hv⟩ := exists_left_of_forall₂ (forall₂_of_holdsPairs hall) _ hmem
  refine ⟨e.2, get?_of_mem ?_, hv⟩
  rw [← hkey]
  exact he

theorem hasFields_of_holds {d : PyDict} {pairs : List (String × Value)} {names : List String}
    (hall : HoldsPairs view own h d.entries pairs) (hnames : (pairs.map Prod.fst).Perm names) :
    d.HasFields names := by
  obtain ⟨hkeys, -⟩ := holdsPairs_iff.mp hall
  have hkeys' : d.entries.map Prod.fst = (pairs.map Prod.fst).map Obj.str := by
    rw [hkeys, List.map_map]
    rfl
  constructor
  · intro e he
    have hmem : e.1 ∈ (pairs.map Prod.fst).map Obj.str := hkeys' ▸ List.mem_map.mpr ⟨e, he, rfl⟩
    obtain ⟨name, hname, heq⟩ := List.mem_map.mp hmem
    exact ⟨name, hnames.mem_iff.mp hname, heq.symm⟩
  · intro name hname
    rw [hkeys']
    exact List.mem_map.mpr ⟨name, hnames.mem_iff.mpr hname, rfl⟩

/-! ## What a record holds -/

/-- A partner for every element. -/
theorem exists_members {α β : Type} {R : α → β → Prop} : ∀ {es : List α},
    (∀ e ∈ es, ∃ p, R e p) → ∃ ps, List.Forall₂ R es ps
  | [], _ => ⟨[], .nil⟩
  | e :: es, hmember => by
    obtain ⟨p, hp⟩ := hmember e List.mem_cons_self
    obtain ⟨ps, hps⟩ := exists_members (fun e' he' => hmember e' (List.mem_cons_of_mem _ he'))
    exact ⟨p :: ps, .cons hp hps⟩

theorem holdsPairs_of_forall₂ {entries : List (Obj × Obj)} {pairs : List (String × Value)}
    (hall : List.Forall₂ (fun e p => e.1 = .str p.1 ∧ Holds view own h e.2 p.2) entries pairs) :
    HoldsPairs view own h entries pairs := by
  induction hall with
  | nil => rfl
  | @cons e p _ _ hhead _ ih =>
    obtain ⟨key, o⟩ := e
    obtain ⟨name, v⟩ := p
    obtain ⟨rfl, hv⟩ := hhead
    exact ⟨o, _, rfl, hv, ih⟩

/-- **A dict with the fields of a record, each with what it should hold, holds
the members in its own order.** -/
theorem holds_of_fields {d : PyDict} {target : List (String × Value)}
    (hnodup : (target.map Prod.fst).Nodup) (hfields : d.HasFields (target.map Prod.fst))
    (hget : ∀ p ∈ target, ∀ o, d.get? p.1 = some o → Holds view own h o p.2) :
    ∃ pairs, HoldsPairs view own h d.entries pairs ∧ pairs.Perm target := by
  have hmember : ∀ e ∈ d.entries, ∃ p, (e.1 = .str p.1 ∧ Holds view own h e.2 p.2) ∧ p ∈ target := by
    intro e he
    obtain ⟨name, hname, hkey⟩ := hfields.1 e he
    obtain ⟨p, hp, rfl⟩ := List.mem_map.mp hname
    have hfound : d.get? p.1 = some e.2 := get?_of_mem (by rw [← hkey]; exact he)
    exact ⟨p, ⟨hkey, hget p hp e.2 hfound⟩, hp⟩
  obtain ⟨pairs, hpairs⟩ := exists_members hmember
  have hall := holdsPairs_of_forall₂ (hpairs.imp (fun _ _ hr => hr.1))
  have hkeys := (holdsPairs_iff.mp hall).1
  have hnodup' : pairs.Nodup :=
    List.Nodup.of_map Prod.fst (strings_nodup (hkeys ▸ d.distinct))
  have hsub : pairs ⊆ target := by
    intro p hp
    obtain ⟨e, -, hr⟩ := exists_left_of_forall₂ hpairs p hp
    exact hr.2
  have hlen : target.length ≤ pairs.length := by
    have hstrings : ((target.map Prod.fst).map Obj.str).Nodup :=
      hnodup.map (fun _ _ heq => Obj.str.inj heq)
    have hsub' : (target.map Prod.fst).map Obj.str ⊆ d.entries.map Prod.fst := by
      intro key hkey
      obtain ⟨name, hname, rfl⟩ := List.mem_map.mp hkey
      exact hfields.2 name hname
    have hle := (List.subperm_of_subset hstrings hsub').length_le
    rw [hkeys] at hle
    simpa using hle
  exact ⟨pairs, hall, (List.subperm_of_subset hnodup' hsub).perm_of_length_le hlen⟩

/-! ## Normal forms of records -/

theorem tidy_perm {xs ys : List (String × Value)} (hp : xs.Perm ys) (hx : Tidy (.dict xs)) :
    Tidy (.dict ys) :=
  ⟨(hp.map Prod.fst).nodup_iff.mp hx.1,
    tidyPairs_iff.mpr (fun p hp' => tidyPairs_iff.mp hx.2 p (hp.mem_iff.mpr hp'))⟩

/-- **The order of the members does not matter.** -/
theorem normalize_perm {xs ys : List (String × Value)} (hp : xs.Perm ys) (hx : Tidy (.dict xs)) :
    PyJson.normalize (.dict xs) = PyJson.normalize (.dict ys) := by
  have hy := tidy_perm hp hx
  rw [PyJson.normalize, PyJson.normalize, Value.dict.injEq, normalizePairs_eq_iff hx hy]
  refine ⟨hp.length_eq, fun p hmem => ⟨p.2, ?_, rfl⟩⟩
  exact lookup_of_mem_nodup hy.1 (hp.mem_iff.mp hmem)

theorem normalizePairs_congr {xs ys : List (String × Value)}
    (hall : List.Forall₂ (fun p q => p.1 = q.1 ∧ PyJson.normalize p.2 = PyJson.normalize q.2) xs ys) :
    ∀ acc, normalizePairs acc xs = normalizePairs acc ys := by
  induction hall with
  | nil => exact fun _ => rfl
  | @cons p q _ _ hhead _ ih =>
    intro acc
    obtain ⟨k, v⟩ := p
    obtain ⟨k', w⟩ := q
    obtain ⟨rfl, hvalue⟩ := hhead
    rw [normalizePairs, normalizePairs, hvalue, ih]

/-- The order of keys inside the members does not matter either. -/
theorem normalize_congr {xs ys : List (String × Value)}
    (hall : List.Forall₂ (fun p q => p.1 = q.1 ∧ PyJson.normalize p.2 = PyJson.normalize q.2) xs ys) :
    PyJson.normalize (.dict xs) = PyJson.normalize (.dict ys) := by
  rw [PyJson.normalize, PyJson.normalize, normalizePairs_congr hall []]

/-- **A value with the normal form of a record is a dict with its members.** -/
theorem member_of_normalize {target : List (String × Value)} {t : Value}
    (ht : Tidy t) (htarget : Tidy (.dict target))
    (heq : PyJson.normalize t = PyJson.normalize (.dict target)) :
    ∃ pairs, t = .dict pairs ∧ (pairs.map Prod.fst).Perm (target.map Prod.fst) ∧
      ∀ p ∈ target, ∃ w, (p.1, w) ∈ pairs ∧ PyJson.normalize w = PyJson.normalize p.2 := by
  cases t with
  | dict pairs =>
    rw [PyJson.normalize, PyJson.normalize, Value.dict.injEq] at heq
    obtain ⟨hlen, hmembers⟩ := (normalizePairs_eq_iff htarget ht).mp heq.symm
    have hmember : ∀ p ∈ target, ∃ w, (p.1, w) ∈ pairs ∧
        PyJson.normalize w = PyJson.normalize p.2 := by
      intro p hp
      obtain ⟨w, hlookup, hw⟩ := hmembers p hp
      exact ⟨w, mem_of_lookup hlookup, hw.symm⟩
    have hsub : target.map Prod.fst ⊆ pairs.map Prod.fst := by
      intro name hname
      obtain ⟨p, hp, rfl⟩ := List.mem_map.mp hname
      obtain ⟨w, hw, -⟩ := hmember p hp
      exact List.mem_map.mpr ⟨_, hw, rfl⟩
    have hperm := (List.subperm_of_subset htarget.1 hsub).perm_of_length_le (by simp [hlen])
    exact ⟨pairs, rfl, hperm.symm, hmember⟩
  | list _ => cases heq
  | tuple _ => cases heq
  | null => cases heq
  | bool _ => cases heq
  | int _ => cases heq
  | float _ => cases heq
  | str _ => cases heq
  | nonFinite => exact ht.elim
  | backReference => exact ht.elim
  | other _ => exact ht.elim

/-! ## Scalar members -/

/-- A scalar value is the value of one object. -/
theorem scalar_inj {o o' : Obj} {v : Value} (ho : scalar o = some v) (ho' : scalar o' = some v) :
    o = o' := by
  cases o with
  | float x =>
    cases ho
    cases o' with
    | float y =>
      have heq : y.decimal = x.decimal := by simpa [scalar] using ho'
      obtain ⟨_, _⟩ := x
      obtain ⟨_, _⟩ := y
      cases heq
      rfl
    | _ => cases ho'
  | null => cases ho; cases o' <;> cases ho' <;> rfl
  | bool b => cases ho; cases o' <;> cases ho' <;> rfl
  | int n => cases ho; cases o' <;> cases ho' <;> rfl
  | str s => cases ho; cases o' <;> cases ho' <;> rfl
  | _ => cases ho

/-- A scalar is its own normal form, and no other value has it. -/
theorem eq_of_normalize_scalar {o : Obj} {v w : Value} (hs : scalar o = some v)
    (heq : PyJson.normalize w = PyJson.normalize v) : w = v := by
  cases o <;> cases hs <;> cases w <;> first | exact heq | cases heq

/-- **A member that is a scalar is found as its object.** -/
theorem get?_scalar {d : PyDict} {pairs : List (String × Value)} {name : String} {v : Value}
    {o : Obj} (hall : HoldsPairs view own h d.entries pairs)
    (hmember : ∃ w, (name, w) ∈ pairs ∧ PyJson.normalize w = PyJson.normalize v)
    (hs : scalar o = some v) : d.get? name = some o := by
  obtain ⟨w, hmem, hnormal⟩ := hmember
  cases eq_of_normalize_scalar hs hnormal
  obtain ⟨o', hget, hv⟩ := get?_of_holds hall hmem
  have hs' : scalar o' = some v := by
    apply hv.scalar
    intro id heq
    subst heq
    obtain ⟨_, -, -, hcases⟩ := hv.ref
    rcases hcases with ⟨_, _, -, rfl, -⟩ | ⟨_, _, -, rfl, -⟩ | ⟨_, _, -, rfl, -⟩ <;>
      cases o <;> cases hs
  rw [hget, scalar_inj hs' hs]

/-! ## Writing a record -/

@[simp] theorem holdsPairs_cons {name : String} {o : Obj} {v : Value} {entries : List (Obj × Obj)}
    {pairs : List (String × Value)} :
    HoldsPairs view own h ((.str name, o) :: entries) ((name, v) :: pairs) ↔
      Holds view own h o v ∧ HoldsPairs view own h entries pairs := by
  rw [HoldsPairs]
  constructor
  · intro hall
    obtain ⟨_, _, heq, hv, hrest⟩ := hall
    cases heq
    exact ⟨hv, hrest⟩
  · intro hall
    exact ⟨o, entries, rfl, hall.1, hall.2⟩

@[simp] theorem holdsPairs_nil : HoldsPairs view own h [] [] := rfl

@[simp] theorem holds_str {s : String} : Holds view own h (.str s) (.str s) := rfl

@[simp] theorem holds_int {n : Int} : Holds view own h (.int n) (.int n) := rfl

@[simp] theorem holds_null : Holds view own h .null .null := rfl

/-- A dict written into a new cell holds its members. -/
theorem holds_newDict {entries : List (Obj × Obj)} {pairs : List (String × Value)} {h h' : Heap}
    (hp : h <+: h') (hnodup : (entries.map Prod.fst).Nodup)
    (hall : HoldsPairs plainView (h.length ≤ ·) h' entries pairs) :
    Holds plainView (h.length ≤ ·) (h' ++ [.dict (PyDict.ofPairs entries)]) (.ref h'.length)
      (.dict pairs) := by
  refine ⟨h'.length, PyDict.ofPairs entries, rfl, hp.length_le, shapeAt_new rfl, ?_⟩
  rw [PyDict.ofPairs_entries hnodup]
  exact HoldsPairs.keep (fun _ hid => hid) (Keeps.of_growth (List.prefix_append _ _)) _ _ hall

end PyHeap
