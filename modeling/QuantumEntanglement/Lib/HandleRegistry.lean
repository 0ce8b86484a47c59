import Mathlib

/-
  A registry of live objects — records found by address, held weakly

  An object has an address while it lives, which a later object may get after
  it; it carries attributes, which anybody may alter and which may not be
  readable any more. A registry is keyed by address. A record refers weakly to
  the object it was made for and keeps what the object was made with. An
  object is trusted when the record at its address refers to it and its
  attributes are still those.

  What is proved:
    1. `trusted_record` — a trusted object has its record, lives, and is
       unaltered.
    2. `Sound.assign`, `Sound.sublist`, `Sound.heap` — a registry whose records
       are at their objects' addresses stays so.
    3. `popObject_target` — once taken out an object has no record.
-/

namespace HandleRegistry

variable {α : Type}

/-! ## Objects -/

structure Object (α : Type) where
  address : Nat
  attributes : Option α
  alive : Bool

/-- Objects by identity; no two live ones share an address. -/
structure Heap (α : Type) where
  objects : Nat → Option (Object α)
  apart : ∀ i j a b, objects i = some a → objects j = some b → a.alive = true → b.alive = true →
    a.address = b.address → i = j

/-- The later heap has every object of the earlier one, where it was. -/
def Heap.Extends (h h' : Heap α) : Prop :=
  ∀ i a, h.objects i = some a → ∃ a', h'.objects i = some a' ∧ a'.address = a.address ∧
    (a'.alive = true → a.alive = true)

/-! ## Records -/

structure Record (α : Type) where
  address : Nat
  target : Nat
  snapshot : α

/-- What is said of an object handed in. -/
inductive Trust (α : Type) where
  | untrusted
  | tampered
  | trusted (snapshot : α)

/-- `registry.get(address)`. -/
def get (registry : List (Record α)) (address : Nat) : Option (Record α) :=
  registry.find? (fun r => r.address = address)

/-- `registry[address] = record`. -/
def assign (registry : List (Record α)) (record : Record α) : List (Record α) :=
  registry.filter (fun r => r.address ≠ record.address) ++ [record]

/-- `registry.pop(address, None)`. -/
def pop (registry : List (Record α)) (address : Nat) : List (Record α) :=
  registry.filter (fun r => r.address ≠ address)

/-- `registry.pop(id(object), None)`. -/
def popObject (h : Heap α) (i : Nat) (registry : List (Record α)) : List (Record α) :=
  match h.objects i with
  | none => registry
  | some a => pop registry a.address

/-- The weak reference still gives an object. -/
def Heap.lives (h : Heap α) (i : Nat) : Bool :=
  match h.objects i with
  | none => false
  | some a => a.alive

/-- The records that are neither dead nor stale. -/
def prune (h : Heap α) (stale : α → Bool) (registry : List (Record α)) : List (Record α) :=
  registry.filter (fun r => h.lives r.target && !stale r.snapshot)

/-- The record's reference gives this very object. -/
def refersTo (h : Heap α) (record : Record α) (i : Nat) : Bool :=
  h.lives record.target && decide (record.target = i)

/-- What the registry says of object `i`. -/
def trust [DecidableEq α] (h : Heap α) (registry : List (Record α)) (i : Nat) : Trust α :=
  match h.objects i with
  | none => .untrusted
  | some a =>
    match get registry a.address with
    | none => .untrusted
    | some record =>
      if refersTo h record i = false then .untrusted
      else if a.attributes ≠ some record.snapshot then .tampered
      else .trusted record.snapshot

/-! ## What a trusted object is -/

/-- **A trusted object** has its record, lives, and is unaltered. -/
theorem trusted_record [DecidableEq α] {h : Heap α} {registry : List (Record α)} {i : Nat} {s : α}
    (ht : trust h registry i = .trusted s) :
    ∃ r ∈ registry, r.target = i ∧ r.snapshot = s ∧
      ∃ a, h.objects i = some a ∧ a.address = r.address ∧ a.alive = true ∧ a.attributes = some s := by
  unfold trust at ht
  split at ht
  · cases ht
  next a ha =>
    split at ht
    · cases ht
    next r hr =>
      split at ht
      · cases ht
      next href =>
        split at ht
        · cases ht
        next hattributes =>
          obtain rfl := Trust.trusted.inj ht
          simp only [refersTo, Bool.not_eq_false, Bool.and_eq_true, decide_eq_true_eq] at href
          obtain ⟨hlives, rfl⟩ := href
          rw [Heap.lives, ha] at hlives
          have haddress : r.address = a.address := by simpa using List.find?_some hr
          exact ⟨r, List.mem_of_find?_eq_some hr, rfl, rfl, a, ha, haddress.symm, hlives,
            not_not.mp hattributes⟩

/-- An object is trusted by its record, while it lives unaltered. -/
theorem trust_of_record [DecidableEq α] {h : Heap α} {registry : List (Record α)} {i : Nat}
    {a : Object α} {r : Record α} (ha : h.objects i = some a) (halive : a.alive = true)
    (hget : get registry a.address = some r) (htarget : r.target = i)
    (hattributes : a.attributes = some r.snapshot) : trust h registry i = .trusted r.snapshot := by
  have hrefers : refersTo h r i = true := by simp [refersTo, Heap.lives, htarget, ha, halive]
  simp [trust, ha, hget, hrefers, hattributes]

/-! ## Registries that are where their objects are -/

/-- Every record is at the address of its object, and no address has two. -/
structure Sound (h : Heap α) (registry : List (Record α)) : Prop where
  keyed : (registry.map Record.address).Nodup
  placed : ∀ r ∈ registry, ∃ a, h.objects r.target = some a ∧ a.address = r.address

theorem Sound.nil (h : Heap α) : Sound h [] := ⟨.nil, by simp⟩

theorem Sound.sublist {h : Heap α} {registry registry' : List (Record α)} (hs : Sound h registry)
    (hsub : registry'.Sublist registry) : Sound h registry' where
  keyed := hs.keyed.sublist (hsub.map _)
  placed := fun r hr => hs.placed r (hsub.subset hr)

theorem Sound.heap {h h' : Heap α} {registry : List (Record α)} (hs : Sound h registry)
    (he : h.Extends h') : Sound h' registry where
  keyed := hs.keyed
  placed := fun r hr => by
    obtain ⟨a, ha, haddress⟩ := hs.placed r hr
    obtain ⟨a', ha', haddress', -⟩ := he r.target a ha
    exact ⟨a', ha', haddress'.trans haddress⟩

theorem Sound.assign {h : Heap α} {registry : List (Record α)} (hs : Sound h registry)
    {record : Record α} (hplaced : ∃ a, h.objects record.target = some a ∧ a.address = record.address) :
    Sound h (assign registry record) where
  keyed := by
    unfold HandleRegistry.assign
    rw [List.map_append]
    refine List.Nodup.append (hs.sublist List.filter_sublist).keyed (List.nodup_singleton _) ?_
    intro address hmem hnew
    obtain ⟨r, hr, rfl⟩ := List.mem_map.mp hmem
    have hne := (List.mem_filter.mp hr).2
    simp only [List.map_cons, List.map_nil, List.mem_singleton] at hnew
    simp [hnew] at hne
  placed := fun r hr => by
    rcases List.mem_append.mp hr with hold | hnew
    · exact hs.placed r (List.mem_filter.mp hold).1
    · rw [List.mem_singleton.mp hnew]
      exact hplaced

/-- **Once taken out** an object has no record. -/
theorem popObject_target {h : Heap α} {registry : List (Record α)} (hs : Sound h registry) {i : Nat} :
    ∀ r ∈ popObject h i registry, r.target ≠ i := by
  intro r hr hi
  unfold popObject at hr
  cases ha : h.objects i with
  | none =>
    rw [ha] at hr
    obtain ⟨b, hb, -⟩ := hs.placed r hr
    rw [hi, ha] at hb
    cases hb
  | some a =>
    rw [ha] at hr
    obtain ⟨hmem, hne⟩ := List.mem_filter.mp hr
    obtain ⟨b, hb, haddress⟩ := hs.placed r hmem
    rw [hi, ha] at hb
    obtain rfl := Option.some.inj hb
    simp [haddress] at hne

theorem popObject_sublist (h : Heap α) (i : Nat) (registry : List (Record α)) :
    (popObject h i registry).Sublist registry := by
  unfold popObject
  split
  · exact .refl _
  · exact List.filter_sublist

theorem prune_sublist (h : Heap α) (stale : α → Bool) (registry : List (Record α)) :
    (prune h stale registry).Sublist registry := List.filter_sublist

theorem mem_assign {registry : List (Record α)} {record r : Record α} (h : r ∈ assign registry record) :
    r ∈ registry ∨ r = record := by
  rcases List.mem_append.mp h with hold | hnew
  · exact .inl (List.mem_filter.mp hold).1
  · exact .inr (List.mem_singleton.mp hnew)

theorem length_assign (registry : List (Record α)) (record : Record α) :
    (assign registry record).length ≤ registry.length + 1 := by
  unfold assign
  rw [List.length_append]
  have hle := List.length_filter_le (fun r => decide (r.address ≠ record.address)) registry
  simpa using hle

/-! ## How objects come, change and go -/

/-- A new object, at an address no live object has. -/
def Heap.allocate (h : Heap α) (i address : Nat) (attributes : α)
    (free : ∀ j b, h.objects j = some b → b.alive = true → b.address ≠ address) : Heap α where
  objects := Function.update h.objects i (some ⟨address, some attributes, true⟩)
  apart := by
    intro j k a b ha hb halive halive' haddress
    by_cases hj : j = i
    · by_cases hk : k = i
      · rw [hj, hk]
      · rw [hj, Function.update_self] at ha
        rw [Function.update_of_ne hk] at hb
        obtain rfl := Option.some.inj ha
        exact absurd haddress.symm (free k b hb halive')
    · rw [Function.update_of_ne hj] at ha
      by_cases hk : k = i
      · rw [hk, Function.update_self] at hb
        obtain rfl := Option.some.inj hb
        exact absurd haddress (free j a ha halive)
      · rw [Function.update_of_ne hk] at hb
        exact h.apart j k a b ha hb halive halive' haddress

/-- Object `i` is now this, where it was, and lives only if it did. -/
def Heap.replace (h : Heap α) (i : Nat) (a : Object α) (attributes : Option α) (alive : Bool)
    (ha : h.objects i = some a) (hlives : alive = true → a.alive = true) : Heap α where
  objects := Function.update h.objects i (some ⟨a.address, attributes, alive⟩)
  apart := by
    intro j k b c hb hc halive halive' haddress
    by_cases hj : j = i
    · by_cases hk : k = i
      · rw [hj, hk]
      · rw [hj, Function.update_self] at hb
        rw [Function.update_of_ne hk] at hc
        obtain rfl := Option.some.inj hb
        rw [hj]
        exact h.apart i k a c ha hc (hlives halive) halive' haddress
    · rw [Function.update_of_ne hj] at hb
      by_cases hk : k = i
      · rw [hk, Function.update_self] at hc
        obtain rfl := Option.some.inj hc
        rw [hk]
        exact h.apart j i b a hb ha halive (hlives halive') haddress
      · rw [Function.update_of_ne hk] at hc
        exact h.apart j k b c hb hc halive halive' haddress

theorem Heap.allocate_extends (h : Heap α) {i address : Nat} {attributes : α}
    (free : ∀ j b, h.objects j = some b → b.alive = true → b.address ≠ address)
    (hnew : h.objects i = none) : h.Extends (h.allocate i address attributes free) := by
  intro j a ha
  have hj : j ≠ i := by
    intro hj
    rw [hj, hnew] at ha
    cases ha
  exact ⟨a, by simp [Heap.allocate, Function.update_of_ne hj, ha], rfl, id⟩

theorem Heap.replace_extends (h : Heap α) {i : Nat} {a : Object α} {attributes : Option α}
    {alive : Bool} (ha : h.objects i = some a) (hlives : alive = true → a.alive = true) :
    h.Extends (h.replace i a attributes alive ha hlives) := by
  intro j b hb
  by_cases hj : j = i
  · subst hj
    rw [ha] at hb
    obtain rfl := Option.some.inj hb
    exact ⟨⟨a.address, attributes, alive⟩, by simp [Heap.replace], rfl, hlives⟩
  · exact ⟨b, by simp [Heap.replace, Function.update_of_ne hj, hb], rfl, id⟩

end HandleRegistry
