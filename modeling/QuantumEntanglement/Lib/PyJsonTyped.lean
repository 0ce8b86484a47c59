import QuantumEntanglement.Lib.Binary64

/-
  Typed JSON — when two values are the same document

  Python's `==` takes `1`, `1.0` and `True` for equal, and `0.0` and `-0.0`.
  `typedEq` does not: two values are equal if they are of one type and of one
  content, a float's sign included, lists item by item and dicts key by key in
  whatever order the keys stand. A tuple is an array, as a list is.

  What is proved:
    1. `normalizePairs_perm` — putting a dict in key order permutes it.
    2. `tidy_normalize`, `depthOf_normalize` — the normal form keeps the
       keys distinct, the floats and the depth.
    3. `typedEq_iff` — **two values are equal exactly when their normal forms
       are one**, and so, by `typedEq_iff_dumps`, exactly when their canonical
       texts are.
-/

namespace PyJson

/-! ## Values with distinct keys -/

mutual

/-- No key comes twice, and a float is as it reads. -/
def Tidy : Value → Prop
  | .list items => TidyItems items
  | .tuple items => TidyItems items
  | .dict pairs => (pairs.map Prod.fst).Nodup ∧ TidyPairs pairs
  | .null => True
  | .bool _ => True
  | .int _ => True
  | .float x => x.read = some x
  | .str _ => True
  | .nonFinite => False
  | .backReference => False
  | .other _ => False

def TidyItems : List Value → Prop
  | [] => True
  | v :: rest => Tidy v ∧ TidyItems rest

def TidyPairs : List (String × Value) → Prop
  | [] => True
  | (_, v) :: rest => Tidy v ∧ TidyPairs rest

end

mutual

/-- How deep containers nest. -/
def depthOf : Value → Nat
  | .list items => depthOfItems items + 1
  | .tuple items => depthOfItems items + 1
  | .dict pairs => depthOfPairs pairs + 1
  | .null => 0
  | .bool _ => 0
  | .int _ => 0
  | .float _ => 0
  | .str _ => 0
  | .nonFinite => 0
  | .backReference => 0
  | .other _ => 0

def depthOfItems : List Value → Nat
  | [] => 0
  | v :: rest => max (depthOf v) (depthOfItems rest)

def depthOfPairs : List (String × Value) → Nat
  | [] => 0
  | (_, v) :: rest => max (depthOf v) (depthOfPairs rest)

end

theorem depthOfPairs_eq (pairs : List (String × Value)) :
    depthOfPairs pairs = depthOfItems (pairs.map Prod.snd) := by
  induction pairs with
  | nil => rfl
  | cons p rest ih =>
    obtain ⟨k, v⟩ := p
    simp only [depthOfPairs, List.map_cons, depthOfItems, ih]

theorem depthOfItems_le {items : List Value} {n : Nat} :
    depthOfItems items ≤ n ↔ ∀ v ∈ items, depthOf v ≤ n := by
  induction items with
  | nil => simp [depthOfItems]
  | cons v rest ih => rw [depthOfItems, Nat.max_le, ih, List.forall_mem_cons]

theorem tidyItems_iff {items : List Value} : TidyItems items ↔ ∀ v ∈ items, Tidy v := by
  induction items with
  | nil => simp [TidyItems]
  | cons v rest ih => rw [TidyItems, ih, List.forall_mem_cons]

theorem tidyPairs_iff {pairs : List (String × Value)} :
    TidyPairs pairs ↔ ∀ p ∈ pairs, Tidy p.2 := by
  induction pairs with
  | nil => simp [TidyPairs]
  | cons p rest ih => rw [TidyPairs, ih, List.forall_mem_cons]

mutual

theorem Tidy.plain : ∀ v : Value, Tidy v → Plain v
  | .list items, h => TidyItems.plain items h
  | .tuple items, h => TidyItems.plain items h
  | .dict pairs, h => TidyPairs.plain pairs h.2
  | .null, _ => trivial
  | .bool _, _ => trivial
  | .int _, _ => trivial
  | .float _, _ => trivial
  | .str _, _ => trivial
  | .nonFinite, h => h
  | .backReference, h => h
  | .other _, h => h

theorem TidyItems.plain : ∀ items : List Value, TidyItems items → PlainItems items
  | [], _ => trivial
  | v :: rest, h => ⟨Tidy.plain v h.1, TidyItems.plain rest h.2⟩

theorem TidyPairs.plain : ∀ pairs : List (String × Value), TidyPairs pairs →
    PlainPairs pairs
  | [], _ => trivial
  | (_, v) :: rest, h => ⟨Tidy.plain v h.1, TidyPairs.plain rest h.2⟩

end

/-! ## Key order permutes -/

theorem insertKey_perm {k : String} {v : Value} {acc : List (String × Value)}
    (hk : k ∉ acc.map Prod.fst) : (insertKey k v acc).Perm ((k, v) :: acc) := by
  induction acc with
  | nil => exact List.Perm.refl _
  | cons p rest ih =>
    obtain ⟨k', v'⟩ := p
    rw [List.map_cons, List.mem_cons, not_or] at hk
    rw [insertKey, if_neg hk.1]
    split
    · exact List.Perm.refl _
    · exact ((ih hk.2).cons (k', v')).trans (List.Perm.swap (k, v) (k', v') rest)

/-- A member with its value in normal form. -/
def normalMember (p : String × Value) : String × Value := (p.1, normalize p.2)

theorem normalizePairs_append_perm : ∀ {pairs acc : List (String × Value)},
    ((acc ++ pairs).map Prod.fst).Nodup →
    (normalizePairs acc pairs).Perm (acc ++ pairs.map normalMember)
  | [], acc, _ => by rw [normalizePairs, List.map_nil, List.append_nil]
  | (k, v) :: rest, acc, hnodup => by
    have hk : k ∉ acc.map Prod.fst := by
      rw [List.map_append, List.nodup_append] at hnodup
      intro hin
      exact hnodup.2.2 k hin k (by simp) rfl
    have hins := @insertKey_perm k (normalize v) acc hk
    have hkeys : ((insertKey k (normalize v) acc ++ rest).map Prod.fst).Perm
        ((acc ++ (k, v) :: rest).map Prod.fst) := by
      have hmap := (hins.append_right rest).map Prod.fst
      have hmid : ((k, normalize v) :: acc ++ rest).map Prod.fst =
          ((k, v) :: (acc ++ rest)).map Prod.fst := rfl
      rw [hmid] at hmap
      exact hmap.trans (List.perm_middle.symm.map Prod.fst)
    have ih := normalizePairs_append_perm (hkeys.nodup_iff.mpr hnodup)
    rw [normalizePairs, List.map_cons]
    exact (ih.trans (hins.append_right _)).trans List.perm_middle.symm

/-- **Putting a dict in key order permutes its members.** -/
theorem normalizePairs_perm {pairs : List (String × Value)} (h : (pairs.map Prod.fst).Nodup) :
    (normalizePairs [] pairs).Perm (pairs.map normalMember) := by
  have hperm := @normalizePairs_append_perm pairs [] (by simpa using h)
  simpa using hperm

theorem map_fst_normalMember (pairs : List (String × Value)) :
    (pairs.map normalMember).map Prod.fst = pairs.map Prod.fst := by
  rw [List.map_map]
  rfl

mutual

/-- The normal form keeps the keys distinct and the floats. -/
theorem tidy_normalize : ∀ v : Value, Tidy v → Tidy (normalize v)
  | .list items, h => tidyItems_normalizeItems items h
  | .tuple items, h => tidyItems_normalizeItems items h
  | .dict pairs, h => by
    have hperm := normalizePairs_perm h.1
    refine ⟨?_, tidyPairs_iff.mpr ?_⟩
    · rw [(hperm.map Prod.fst).nodup_iff, map_fst_normalMember]
      exact h.1
    · intro p hp
      obtain ⟨q, hq, rfl⟩ := List.mem_map.mp (hperm.mem_iff.mp hp)
      exact tidyPairs_normalize pairs h.2 q hq
  | .null, _ => trivial
  | .bool _, _ => trivial
  | .int _, _ => trivial
  | .float _, h => h
  | .str _, _ => trivial
  | .nonFinite, h => h
  | .backReference, h => h
  | .other _, h => h

theorem tidyItems_normalizeItems : ∀ items : List Value, TidyItems items →
    TidyItems (normalizeItems items)
  | [], _ => trivial
  | v :: rest, h => ⟨tidy_normalize v h.1, tidyItems_normalizeItems rest h.2⟩

theorem tidyPairs_normalize : ∀ pairs : List (String × Value), TidyPairs pairs →
    ∀ p ∈ pairs, Tidy (normalize p.2)
  | [], _, _, hp => absurd hp List.not_mem_nil
  | (_, v) :: rest, h, p, hp => by
    rcases List.mem_cons.mp hp with rfl | hp
    · exact tidy_normalize v h.1
    · exact tidyPairs_normalize rest h.2 p hp

end

theorem depthOfItems_perm {items items' : List Value} (h : items.Perm items') :
    depthOfItems items = depthOfItems items' := by
  apply Nat.le_antisymm
  · exact depthOfItems_le.mpr (fun v hv => depthOfItems_le.mp (Nat.le_refl _) v (h.mem_iff.mp hv))
  · exact depthOfItems_le.mpr (fun v hv => depthOfItems_le.mp (Nat.le_refl _) v (h.mem_iff.mpr hv))

mutual

/-- The normal form is as deep. -/
theorem depthOf_normalize : ∀ v : Value, Tidy v → depthOf (normalize v) = depthOf v
  | .list items, h => by
    rw [normalize, depthOf, depthOf, depthOfItems_normalize items h]
  | .tuple items, h => by
    rw [normalize, depthOf, depthOf, depthOfItems_normalize items h]
  | .dict pairs, h => by
    have hperm := (normalizePairs_perm h.1).map Prod.snd
    rw [normalize, depthOf, depthOf, depthOfPairs_eq, depthOfItems_perm hperm,
      depthOfPairs_normalize pairs h.2]
  | .null, _ => rfl
  | .bool _, _ => rfl
  | .int _, _ => rfl
  | .float _, _ => rfl
  | .str _, _ => rfl
  | .nonFinite, _ => rfl
  | .backReference, _ => rfl
  | .other _, _ => rfl

theorem depthOfItems_normalize : ∀ items : List Value, TidyItems items →
    depthOfItems (normalizeItems items) = depthOfItems items
  | [], _ => rfl
  | v :: rest, h => by
    rw [normalizeItems, depthOfItems, depthOfItems, depthOf_normalize v h.1,
      depthOfItems_normalize rest h.2]

theorem depthOfPairs_normalize : ∀ pairs : List (String × Value), TidyPairs pairs →
    depthOfItems ((pairs.map normalMember).map Prod.snd) = depthOfPairs pairs
  | [], _ => rfl
  | (_, v) :: rest, h => by
    have ih := depthOfPairs_normalize rest h.2
    rw [List.map_cons, List.map_cons, depthOfItems, depthOfPairs, ih, normalMember,
      depthOf_normalize v h.1]

end

/-! ## Typed equality -/

mutual

/-- Equal type by type. -/
def typedEq : Value → Value → Bool
  | .null, w => match w with | .null => true | _ => false
  | .bool b, w => match w with | .bool c => b == c | _ => false
  | .int n, w => match w with | .int m => n == m | _ => false
  | .float x, w => match w with | .float y => decide (x = y) | _ => false
  | .str s, w => match w with | .str t => s == t | _ => false
  | .list xs, w =>
    match w with
    | .list ys => typedEqItems xs ys
    | .tuple ys => typedEqItems xs ys
    | _ => false
  | .tuple xs, w =>
    match w with
    | .list ys => typedEqItems xs ys
    | .tuple ys => typedEqItems xs ys
    | _ => false
  | .dict xs, w =>
    match w with
    | .dict ys => xs.length == ys.length && typedEqMembers xs ys
    | _ => false
  | .nonFinite, _ => false
  | .backReference, _ => false
  | .other _, _ => false

def typedEqItems : List Value → List Value → Bool
  | [], ys => ys.isEmpty
  | x :: xs, ys => match ys with | [] => false | y :: ys' => typedEq x y && typedEqItems xs ys'

/-- Every member of the first dict is in the second. -/
def typedEqMembers : List (String × Value) → List (String × Value) → Bool
  | [], _ => true
  | (k, v) :: rest, ys =>
    (match lookup k ys with | some w => typedEq v w | none => false) && typedEqMembers rest ys

end

theorem lookup_of_mem_nodup {k : String} {v : Value} {pairs : List (String × Value)}
    (hnodup : (pairs.map Prod.fst).Nodup) (hmem : (k, v) ∈ pairs) : lookup k pairs = some v := by
  induction pairs with
  | nil => exact absurd hmem List.not_mem_nil
  | cons p rest ih =>
    obtain ⟨k', v'⟩ := p
    rw [List.map_cons, List.nodup_cons] at hnodup
    rcases List.mem_cons.mp hmem with heq | hmem
    · cases heq
      rw [lookup, if_pos rfl]
    · have hne : k ≠ k' := by
        intro heq
        exact hnodup.1 (heq ▸ List.mem_map.mpr ⟨(k, v), hmem, rfl⟩)
      rw [lookup, if_neg hne]
      exact ih hnodup.2 hmem

theorem mem_of_lookup {k : String} {v : Value} {pairs : List (String × Value)}
    (h : lookup k pairs = some v) : (k, v) ∈ pairs := by
  induction pairs with
  | nil => cases h
  | cons p rest ih =>
    obtain ⟨k', v'⟩ := p
    rw [lookup] at h
    split at h
    next heq =>
      cases h
      rw [heq]
      exact List.mem_cons_self
    next => exact List.mem_cons_of_mem _ (ih h)

/-- Dicts of one size, each member of the one a member of the other up to the
normal form of its value, have one normal form. -/
theorem normalizePairs_eq_iff {xs ys : List (String × Value)} (hx : Tidy (.dict xs))
    (hy : Tidy (.dict ys)) :
    normalizePairs [] xs = normalizePairs [] ys ↔
      xs.length = ys.length ∧
        ∀ p ∈ xs, ∃ w, lookup p.1 ys = some w ∧ normalize p.2 = normalize w := by
  have hpx := normalizePairs_perm hx.1
  have hpy := normalizePairs_perm hy.1
  constructor
  · intro heq
    have hperm : (xs.map normalMember).Perm (ys.map normalMember) :=
      hpx.symm.trans (heq ▸ hpy)
    refine ⟨by simpa using hperm.length_eq, fun p hp => ?_⟩
    obtain ⟨q, hq, hqp⟩ := List.mem_map.mp
      (hperm.mem_iff.mp (List.mem_map.mpr ⟨p, hp, rfl⟩))
    simp only [normalMember, Prod.mk.injEq] at hqp
    refine ⟨q.2, lookup_of_mem_nodup hy.1 ?_, hqp.2.symm⟩
    rw [← hqp.1]
    exact hq
  · intro h
    have hsub : xs.map normalMember ⊆ ys.map normalMember := by
      intro m hm
      obtain ⟨p, hp, rfl⟩ := List.mem_map.mp hm
      obtain ⟨w, hlookup, hnormal⟩ := h.2 p hp
      refine List.mem_map.mpr ⟨(p.1, w), mem_of_lookup hlookup, ?_⟩
      rw [normalMember, normalMember, hnormal]
    have hnodup : (xs.map normalMember).Nodup := by
      apply List.Nodup.of_map Prod.fst
      rw [map_fst_normalMember]
      exact hx.1
    have hperm : (xs.map normalMember).Perm (ys.map normalMember) :=
      (List.subperm_of_subset hnodup hsub).perm_of_length_le (by simp [h.1])
    have hall : (normalizePairs [] xs).Perm (normalizePairs [] ys) :=
      hpx.trans (hperm.trans hpy.symm)
    have hsx := (normal_normalize _ (Tidy.plain _ hx)).1
    have hsy := (normal_normalize _ (Tidy.plain _ hy)).1
    refine List.Perm.eq_of_pairwise ?_ hsx hsy hall
    intro a b _ _ hab hba
    have hself := keyLt_trans hab hba
    rw [keyLt_irrefl] at hself
    cases hself

mutual

/-- **Two values are equal type by type exactly when their normal forms are
one.** -/
theorem typedEq_iff : ∀ v w : Value, Tidy v → Tidy w →
    (typedEq v w = true ↔ normalize v = normalize w)
  | .list xs, w, hv, hw => by
    cases w with
    | list ys => simpa [typedEq, normalize] using typedEqItems_iff xs ys hv hw
    | tuple ys => simpa [typedEq, normalize] using typedEqItems_iff xs ys hv hw
    | _ => simp [typedEq, normalize]
  | .tuple xs, w, hv, hw => by
    cases w with
    | list ys => simpa [typedEq, normalize] using typedEqItems_iff xs ys hv hw
    | tuple ys => simpa [typedEq, normalize] using typedEqItems_iff xs ys hv hw
    | _ => simp [typedEq, normalize]
  | .dict xs, w, hv, hw => by
    cases w with
    | dict ys =>
      rw [normalize, normalize, Value.dict.injEq, normalizePairs_eq_iff hv hw, typedEq,
        Bool.and_eq_true, beq_iff_eq, typedEqMembers_iff xs ys hv.2 hw.2]
    | _ => simp [typedEq, normalize]
  | .null, w, _, _ => by cases w <;> simp [typedEq, normalize]
  | .bool _, w, _, _ => by cases w <;> simp [typedEq, normalize]
  | .int _, w, _, _ => by cases w <;> simp [typedEq, normalize]
  | .float _, w, _, _ => by cases w <;> simp [typedEq, normalize]
  | .str _, w, _, _ => by cases w <;> simp [typedEq, normalize]
  | .nonFinite, _, hv, _ => hv.elim
  | .backReference, _, hv, _ => hv.elim
  | .other _, _, hv, _ => hv.elim

theorem typedEqItems_iff : ∀ xs ys : List Value, TidyItems xs → TidyItems ys →
    (typedEqItems xs ys = true ↔ normalizeItems xs = normalizeItems ys)
  | [], ys, _, _ => by cases ys <;> simp [typedEqItems, normalizeItems]
  | x :: xs, ys, hx, hy => by
    cases ys with
    | nil => simp [typedEqItems, normalizeItems]
    | cons y ys =>
      rw [typedEqItems, Bool.and_eq_true, typedEq_iff x y hx.1 hy.1,
        typedEqItems_iff xs ys hx.2 hy.2, normalizeItems, normalizeItems, List.cons.injEq]

theorem typedEqMembers_iff : ∀ xs ys : List (String × Value), TidyPairs xs →
    TidyPairs ys → (typedEqMembers xs ys = true ↔
      ∀ p ∈ xs, ∃ w, lookup p.1 ys = some w ∧ normalize p.2 = normalize w)
  | [], ys, _, _ => by simp [typedEqMembers]
  | (k, v) :: rest, ys, hx, hy => by
    rw [typedEqMembers, Bool.and_eq_true, typedEqMembers_iff rest ys hx.2 hy, List.forall_mem_cons]
    apply and_congr_left'
    cases hlookup : lookup k ys with
    | none => simp
    | some w =>
      have hw := tidyPairs_iff.mp hy _ (mem_of_lookup hlookup)
      simp only [typedEq_iff v w hx.1 hw, Option.some.injEq, exists_eq_left']

end

/-- **Equal values, and no others, have one canonical text.** -/
theorem typedEq_iff_dumps {v w : Value} (hv : Tidy v) (hw : Tidy w) :
    typedEq v w = true ↔ dumps v = dumps w := by
  rw [typedEq_iff v w hv hw]
  constructor
  · intro h
    rw [dumps, dumps, h]
  · intro h
    exact normalize_of_dumps (Tidy.plain v hv) (Tidy.plain w hw) h

example : typedEq (.int 1) (.float (PyFloat.ofDecimal false 1 0)) = false ∧
    pyEq (.int 1) (.float (PyFloat.ofDecimal false 1 0)) = true := by
  decide

end PyJson
