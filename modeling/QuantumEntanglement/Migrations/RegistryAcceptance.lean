import QuantumEntanglement.Migrations.RegistryValidation

/-
  Registry acceptance — exactly which descriptors make a registry

  What the checks over all descriptors say, put together. The dependency check
  runs Kahn's loop over the ids; the rest goes over the descriptors in order.

  What is proved:
    1. `validateDependencyGraph_ok` — the graph is accepted exactly if every
       dependency is known and there is no cycle.
    2. `validatePackagedMigrations_ok` — the scripts are those described.
    3. `buildRegistry_ok` — what is accepted once it is normalized and sorted.
    4. `registry_acceptance` — what is accepted as given, and that the order
       of the descriptors, of their dependencies and of their objects is not
       seen.
    5. `repeated_dependency` — a descriptor that names a dependency twice is
       refused.
-/

namespace QuantumEntanglement.Migrations

open PyJson PyText Sha256 Checked

/-! ## Dependencies -/

/-- The migration `a` names `b` as a dependency. -/
def DependsOn (ds : List DomainMigrationDescriptor) (a b : Int) : Prop :=
  ∃ d ∈ ds, d.migrationId = a ∧ b ∈ d.dependencies

/-- No migration depends on itself, at any distance. -/
def AcyclicDependencies (ds : List DomainMigrationDescriptor) : Prop :=
  ∀ a, ¬Relation.TransGen (DependsOn ds) a a

/-- Every dependency is a migration described. -/
def KnownDependencies (ds : List DomainMigrationDescriptor) : Prop :=
  ∀ d ∈ ds, ∀ b ∈ d.dependencies, b ∈ ds.map (·.migrationId)

section Graphs

variable {ds : List DomainMigrationDescriptor}

/-- Of descriptors with different ids, the one with an id is found by it. -/
theorem find_by_id (hids : (ds.map (·.migrationId)).Nodup) {d : DomainMigrationDescriptor}
    (hd : d ∈ ds) : ds.find? (fun e => e.migrationId = d.migrationId) = some d := by
  cases hfind : ds.find? (fun e => e.migrationId = d.migrationId) with
  | none =>
    have := List.find?_eq_none.mp hfind d hd
    simp at this
  | some e =>
    have heq := List.find?_some hfind
    have hmem := List.mem_of_find?_eq_some hfind
    exact congrArg some (List.inj_on_of_nodup_map hids hmem hd (by simpa using heq))

theorem dependenciesOf_mem (hids : (ds.map (·.migrationId)).Nodup) {d : DomainMigrationDescriptor}
    (hd : d ∈ ds) : dependenciesOf ds d.migrationId = d.dependencies := by
  rw [dependenciesOf, find_by_id hids hd]

theorem mem_dependenciesOf (hids : (ds.map (·.migrationId)).Nodup) {a b : Int} :
    b ∈ dependenciesOf ds a ↔ DependsOn ds a b := by
  constructor
  · intro h
    rw [dependenciesOf] at h
    split at h
    next d hfind =>
      exact ⟨d, List.mem_of_find?_eq_some hfind, by simpa using List.find?_some hfind, h⟩
    next => cases h
  · intro h
    obtain ⟨d, hd, rfl, hb⟩ := h
    rw [dependenciesOf_mem hids hd]
    exact hb

theorem mem_dependentsOf {a b : Int} : a ∈ dependentsOf ds b ↔ DependsOn ds a b := by
  rw [dependentsOf, List.mem_flatMap]
  constructor
  · intro h
    obtain ⟨d, hd, hmem⟩ := h
    obtain ⟨c, hc, rfl⟩ := List.mem_map.mp hmem
    rw [List.mem_filter, decide_eq_true_eq] at hc
    exact ⟨d, hd, rfl, hc.2 ▸ hc.1⟩
  · intro h
    obtain ⟨d, hd, rfl, hb⟩ := h
    exact ⟨d, hd, List.mem_map.mpr ⟨b, by simp [hb], rfl⟩⟩

theorem dependentsOf_nodup (hids : (ds.map (·.migrationId)).Nodup)
    (hdeps : ∀ d ∈ ds, d.dependencies.Nodup) (b : Int) : (dependentsOf ds b).Nodup := by
  rw [dependentsOf, List.nodup_flatMap]
  constructor
  · intro d hd
    have hcount : (d.dependencies.filter (· = b)).length ≤ 1 := by
      rw [← List.countP_eq_length_filter]
      have := List.nodup_iff_count_le_one.mp (hdeps d hd) b
      simpa [List.count, BEq.beq] using this
    match hfilter : d.dependencies.filter (· = b) with
    | [] => simp
    | [c] => simp
    | c :: c' :: rest =>
      rw [hfilter] at hcount
      simp at hcount
  · have hpairwise := List.pairwise_map.mp hids
    refine hpairwise.imp ?_
    intro d e hne
    intro x hx hy
    obtain ⟨_, -, rfl⟩ := List.mem_map.mp hx
    obtain ⟨_, -, heq⟩ := List.mem_map.mp hy
    exact hne heq.symm

/-- The graph Kahn's loop goes over. -/
theorem dependencyGraph (hids : (ds.map (·.migrationId)).Nodup)
    (hdeps : ∀ d ∈ ds, d.dependencies.Nodup) :
    KahnSort.Graph (dependenciesOf ds) (dependentsOf ds) (ds.map (·.migrationId)) where
  nodes_nodup := hids
  deps_nodup := by
    intro a
    rw [dependenciesOf]
    split
    next d hfind => exact hdeps d (List.mem_of_find?_eq_some hfind)
    next => exact List.nodup_nil
  dependents_nodup := dependentsOf_nodup hids hdeps
  mem_dependents := by
    intro a b
    rw [mem_dependentsOf, mem_dependenciesOf hids]
    constructor
    · intro h
      obtain ⟨d, hd, rfl, hb⟩ := h
      exact ⟨List.mem_map_of_mem hd, d, hd, rfl, hb⟩
    · exact fun h => h.2

theorem below_iff (hids : (ds.map (·.migrationId)).Nodup) :
    CycleSearch.Below (dependenciesOf ds) = Function.swap (DependsOn ds) := by
  funext b a
  exact propext (mem_dependenciesOf hids)

theorem acyclic_iff (hids : (ds.map (·.migrationId)).Nodup) :
    CycleSearch.Acyclic (dependenciesOf ds) ↔ AcyclicDependencies ds := by
  rw [CycleSearch.Acyclic, below_iff hids, AcyclicDependencies]
  refine forall_congr' fun a => not_congr ?_
  exact Relation.transGen_swap

/-- **The graph is accepted** exactly if every dependency is known and there
is no cycle. -/
theorem validateDependencyGraph_ok (hids : (ds.map (·.migrationId)).Nodup)
    (hdeps : ∀ d ∈ ds, d.dependencies.Nodup) {u : Unit} :
    validateDependencyGraph ds = .ok u ↔ KnownDependencies ds ∧ AcyclicDependencies ds := by
  have hloop : KnownDependencies ds →
      ((dependencyOrder ds).length = ds.length ↔ AcyclicDependencies ds) := by
    intro hknown
    rw [← acyclic_iff hids, ← KahnSort.order_complete (dependencyGraph hids hdeps) ?_ ?_,
      List.length_map, dependencyOrder]
    · intro a _ b hb
      obtain ⟨d, hd, -, hmem⟩ := (mem_dependenciesOf hids).mp hb
      exact hknown d hd b hmem
    · intro a hne
      obtain ⟨b, hb⟩ := List.exists_mem_of_ne_nil _ hne
      obtain ⟨d, hd, rfl, -⟩ := (mem_dependenciesOf hids).mp hb
      exact List.mem_map_of_mem hd
  have hunknown : ∀ d : DomainMigrationDescriptor, (d.dependencies.filter fun b =>
      decide (b ∉ ds.map (·.migrationId))) = [] ↔
        ∀ b ∈ d.dependencies, b ∈ ds.map (·.migrationId) := by
    intro d
    simp only [List.filter_eq_nil_iff, decide_eq_true_eq, not_not]
  simp only [validateDependencyGraph, except_bind_ok, forEach_ok, check_ok, not_not,
    hunknown, and_true]
  constructor
  · intro h
    obtain ⟨_, hchecks, hlength⟩ := h
    have hknown : KnownDependencies ds := fun d hd => (hchecks d hd).2
    exact ⟨hknown, (hloop hknown).mp hlength⟩
  · intro h
    obtain ⟨hknown, hacyclic⟩ := h
    refine ⟨(), fun d hd => ⟨?_, hknown d hd⟩, (hloop hknown).mpr hacyclic⟩
    exact fun hself => hacyclic d.migrationId (.single ⟨d, hd, rfl, hself⟩)

end Graphs

/-! ## Scripts -/

section Packages

variable {pkg : Packaged}

theorem packagedLoop_ok {migrations : List Migration} {u : Unit} :
    ∀ {ids : List Int} {filenames : List String}, packagedLoop ids filenames migrations = .ok u ↔
      ((migrations.map (·.id)).Nodup ∧ ∀ m ∈ migrations, m.id ∉ ids) ∧
        (migrations.map (·.filename)).Nodup ∧ ∀ m ∈ migrations, m.filename ∉ filenames := by
  induction migrations with
  | nil =>
    intro ids filenames
    simp [packagedLoop]
  | cons m rest ih =>
    intro ids filenames
    rw [packagedLoop, check_ok, check_ok, ih]
    simp only [List.forall_mem_cons, List.map_cons, List.nodup_cons, List.mem_map, not_exists,
      not_and]
    simp only [List.mem_cons, not_or]
    constructor
    · intro h
      obtain ⟨hid, hfile, ⟨hids, hallids⟩, hfiles, hallfiles⟩ := h
      exact ⟨⟨⟨fun o ho heq => (hallids o ho).1 heq, hids⟩, hid, fun o ho => (hallids o ho).2⟩,
        ⟨fun o ho heq => (hallfiles o ho).1 heq, hfiles⟩, hfile, fun o ho => (hallfiles o ho).2⟩
    · intro h
      obtain ⟨⟨⟨hdiffer, hids⟩, hid, hallids⟩, ⟨hdiffer', hfiles⟩, hfile, hallfiles⟩ := h
      exact ⟨hid, hfile, ⟨hids, fun o ho => ⟨hdiffer o ho, hallids o ho⟩⟩, hfiles,
        fun o ho => ⟨hdiffer' o ho, hallfiles o ho⟩⟩

/-- The descriptor is of the script packaged as `m`. -/
def Describes (pkg : Packaged) (d : DomainMigrationDescriptor) (m : Migration) : Prop :=
  m.id = d.migrationId ∧ m.filename = d.filename ∧
    ∃ sql, pkg.migrationText m.filename = some sql ∧ d.sqlSha256 = hexDigest sql

theorem checkPackaged_ok {d : DomainMigrationDescriptor} {m : Migration} (hid : m.id = d.migrationId) :
    checkPackaged pkg d m = .ok () ↔ Describes pkg d m := by
  rw [checkPackaged, check_ok, not_not, Describes]
  cases pkg.migrationText m.filename with
  | none => simp
  | some sql =>
    simp only [check_ok, not_not, and_true, hid, true_and, Option.some.injEq, exists_eq_left']
    exact and_congr_left fun _ => eq_comm

theorem missingIds_nil {a b : List Int} : missingIds a b = [] ↔ a ⊆ b := by
  have hnil : missingIds a b = [] ↔ (a.filter fun x => decide (x ∉ b)) = [] := by
    rw [missingIds, ← List.length_eq_zero_iff, List.length_insertionSort, List.length_eq_zero_iff]
  rw [hnil]
  simp only [List.filter_eq_nil_iff, decide_eq_true_eq, not_not]
  rfl

/-- The packaged migrations are those described, each with its script. -/
structure PackageCovers (pkg : Packaged) (ds : List DomainMigrationDescriptor) : Prop where
  count : pkg.migrations.length ≤ maxDomainMigrations
  ids : (pkg.migrations.map (·.id)).Nodup
  filenames : (pkg.migrations.map (·.filename)).Nodup
  described : ∀ m ∈ pkg.migrations, m.id ∈ ds.map (·.migrationId)
  scripts : ∀ d ∈ ds, ∃ m ∈ pkg.migrations, Describes pkg d m

/-- **The scripts are accepted** exactly if they are those described. -/
theorem validatePackagedMigrations_ok {ds : List DomainMigrationDescriptor} {u : Unit} :
    validatePackagedMigrations pkg ds = .ok u ↔ PackageCovers pkg ds := by
  -- Of packaged migrations with different ids, the one with an id is found by it.
  have hfind : (pkg.migrations.map (·.id)).Nodup → ∀ m ∈ pkg.migrations,
      pkg.migrations.find? (fun o => o.id = m.id) = some m := by
    intro hids m hm
    cases hfind : pkg.migrations.find? (fun o => o.id = m.id) with
    | none =>
      have := List.find?_eq_none.mp hfind m hm
      simp at this
    | some o =>
      have heq := List.find?_some hfind
      have hmem := List.mem_of_find?_eq_some hfind
      exact congrArg some (List.inj_on_of_nodup_map hids hmem hm (by simpa using heq))
  simp only [validatePackagedMigrations, except_bind_ok, boundedTuple_ok, packagedLoop_ok, check_ok,
    forEach_ok, missingIds_nil, ne_eq, not_or, not_not]
  constructor
  · intro h
    obtain ⟨_, ⟨hcount, rfl⟩, _, ⟨⟨hids, -⟩, hfiles, -⟩, ⟨hdescribed, hknown⟩, hscripts⟩ := h
    refine ⟨hcount, hids, hfiles, fun m hm => hdescribed (List.mem_map_of_mem hm), ?_⟩
    intro d hd
    obtain ⟨m, hm, hid⟩ := List.mem_map.mp (hknown (List.mem_map_of_mem hd))
    have hcheck := hscripts d hd
    rw [← hid, hfind hids m hm] at hcheck
    exact ⟨m, hm, (checkPackaged_ok hid).mp hcheck⟩
  · intro h
    refine ⟨_, ⟨h.count, rfl⟩, (), ⟨⟨h.ids, fun _ _ => List.not_mem_nil⟩, h.filenames,
      fun _ _ => List.not_mem_nil⟩, ⟨?_, ?_⟩, ?_⟩
    · intro x hx
      obtain ⟨m, hm, rfl⟩ := List.mem_map.mp hx
      exact h.described m hm
    · intro x hx
      obtain ⟨d, hd, rfl⟩ := List.mem_map.mp hx
      obtain ⟨m, hm, hdescribes⟩ := h.scripts d hd
      exact List.mem_map.mpr ⟨m, hm, hdescribes.1⟩
    · intro d hd
      obtain ⟨m, hm, hdescribes⟩ := h.scripts d hd
      rw [← hdescribes.1, hfind h.ids m hm]
      exact (checkPackaged_ok hdescribes.1).mpr hdescribes

theorem validateLegacy_ok {ds : List DomainMigrationDescriptor} {u : Unit} :
    validateLegacy pkg ds = .ok u ↔
      ∀ d ∈ ds, ∀ trusted, trustedById pkg d.migrationId = some trusted → d = trusted := by
  rw [validateLegacy, forEach_ok]
  refine forall₂_congr fun d _ => ?_
  cases trustedById pkg d.migrationId with
  | none => simp
  | some trusted => simp [check_ok]

end Packages

/-! ## Normal forms -/

section Normal

theorem insertionSort_eq_of_perm {α β : Type} [LinearOrder β] {f : α → β} {l l' : List α}
    (hperm : l.Perm l') (hf : ∀ a ∈ l, ∀ b ∈ l, f a = f b → a = b) :
    l.insertionSort (fun a b => f a ≤ f b) = l'.insertionSort (fun a b => f a ≤ f b) := by
  have hl := List.perm_insertionSort (fun a b => f a ≤ f b) l
  have hl' := List.perm_insertionSort (fun a b => f a ≤ f b) l'
  refine (hl.trans (hperm.trans hl'.symm)).eq_of_pairwise ?_
    (List.pairwise_insertionSort _ l) (List.pairwise_insertionSort _ l')
  intro a b ha hb hab hba
  exact hf a (hl.mem_iff.mp ha) b (hperm.mem_iff.mpr (hl'.mem_iff.mp hb)) (le_antisymm hab hba)

theorem ownedKey_inj {a b : OwnedSchemaObject} (h : ownedKey a = ownedKey b) : a = b := by
  obtain ⟨ta, na, da⟩ := a
  obtain ⟨tb, nb, db⟩ := b
  simp only [ownedKey, EmbeddingLike.apply_eq_iff_eq, Prod.mk.injEq, String.toList_inj] at h
  rw [h.1, h.2.1, h.2.2]

/-- The descriptors say the same, their collections in any order. -/
structure SameDescriptor (d e : DomainMigrationDescriptor) : Prop where
  migrationId : d.migrationId = e.migrationId
  filename : d.filename = e.filename
  sqlSha256 : d.sqlSha256 = e.sqlSha256
  domain : d.domain = e.domain
  domainVersion : d.domainVersion = e.domainVersion
  kind : d.kind = e.kind
  dependencies : d.dependencies.Perm e.dependencies
  ownedObjects : d.ownedObjects.Perm e.ownedObjects

theorem SameDescriptor.symm {d e : DomainMigrationDescriptor} (h : SameDescriptor d e) :
    SameDescriptor e d :=
  ⟨h.migrationId.symm, h.filename.symm, h.sqlSha256.symm, h.domain.symm, h.domainVersion.symm,
    h.kind.symm, h.dependencies.symm, h.ownedObjects.symm⟩

theorem normalForm_same (d : DomainMigrationDescriptor) : SameDescriptor (normalForm d) d :=
  ⟨rfl, rfl, rfl, rfl, rfl, rfl, List.perm_insertionSort _ _, List.perm_insertionSort _ _⟩

/-- **The normal form** does not see the order of the collections. -/
theorem SameDescriptor.normalForm_eq {d e : DomainMigrationDescriptor} (h : SameDescriptor d e) :
    normalForm d = normalForm e := by
  have hdeps : d.dependencies.insertionSort (· ≤ ·) = e.dependencies.insertionSort (· ≤ ·) :=
    insertionSort_eq_of_perm (f := id) h.dependencies (fun _ _ _ _ heq => heq)
  have howned : sortOwnedObjects d.ownedObjects = sortOwnedObjects e.ownedObjects :=
    insertionSort_eq_of_perm h.ownedObjects (fun _ _ _ _ heq => ownedKey_inj heq)
  obtain ⟨_, _, _, _, _, _, _, _⟩ := d
  obtain ⟨_, _, _, _, _, _, _, _⟩ := e
  obtain ⟨hid, hfile, hsql, hdomain, hversion, hkind, -, -⟩ := h
  simp only at hid hfile hsql hdomain hversion hkind hdeps howned
  simp only [normalForm, DomainMigrationDescriptor.mk.injEq]
  exact ⟨hid, hfile, hsql, hdomain, hversion, hkind, hdeps, howned⟩

theorem SameDescriptor.wellFormed {d e : DomainMigrationDescriptor} (h : SameDescriptor d e)
    (hw : WellFormed d) : WellFormed e where
  migrationId := h.migrationId ▸ hw.migrationId
  filename := h.filename ▸ hw.filename
  sqlSha256 := h.sqlSha256 ▸ hw.sqlSha256
  domain := h.domain ▸ hw.domain
  domainVersion := h.domainVersion ▸ hw.domainVersion
  dependencyCount := h.dependencies.length_eq ▸ hw.dependencyCount
  dependencyIds := fun b hb => hw.dependencyIds b (h.dependencies.mem_iff.mpr hb)
  dependenciesNodup := h.dependencies.nodup_iff.mp hw.dependenciesNodup
  objectCount := h.ownedObjects.length_eq ▸ hw.objectCount
  objects := fun item hitem => hw.objects item (h.ownedObjects.mem_iff.mpr hitem)
  objectsNodup := (h.ownedObjects.map _).nodup_iff.mp hw.objectsNodup

end Normal

/-! ## Registries -/

/-- A loop whose rounds end on what is `P`, each with its own result. -/
theorem mapM_ok {α β : Type} {f : α → Except MigrationError β} {P : α → Prop} {g : α → β}
    (hf : ∀ a b, f a = .ok b ↔ P a ∧ b = g a) :
    ∀ {l : List α} {bs : List β}, l.mapM f = .ok bs ↔ (∀ a ∈ l, P a) ∧ bs = l.map g := by
  intro l
  induction l with
  | nil =>
    intro bs
    simp [pure, Except.pure, eq_comm]
  | cons a rest ih =>
    intro bs
    rw [List.mapM_cons, except_bind_ok, List.forall_mem_cons, List.map_cons]
    simp only [except_bind_ok, hf, ih, pure, Except.pure, Except.ok.injEq]
    constructor
    · intro h
      obtain ⟨_, ⟨ha, rfl⟩, _, ⟨hrest, rfl⟩, rfl⟩ := h
      exact ⟨⟨ha, hrest⟩, rfl⟩
    · intro h
      obtain ⟨⟨ha, hrest⟩, rfl⟩ := h
      exact ⟨_, ⟨ha, rfl⟩, _, ⟨hrest, rfl⟩, rfl⟩

/-- What the registry's digest is of. -/
def registrySha256Of (ds : List DomainMigrationDescriptor) : String :=
  canonicalSha256 (.dict [
    ("descriptors", .list (ds.map fun d => .dict [
      ("descriptorSha256", .str (normalForm d).descriptorSha256),
      ("migrationId", .int d.migrationId)])),
    ("format", .str "qe.domain-migration-registry/1")])

theorem descriptorDigest_ok {d : DomainMigrationDescriptor} {digest : String} :
    descriptorDigest d = .ok digest ↔ WellFormed d ∧ digest = (normalForm d).descriptorSha256 := by
  simp only [descriptorDigest, except_bind_ok, normalizeDescriptor_ok, Except.ok.injEq]
  constructor
  · intro h
    obtain ⟨_, ⟨hw, rfl⟩, rfl⟩ := h
    exact ⟨hw, rfl⟩
  · intro h
    exact ⟨_, ⟨h.1, rfl⟩, h.2.symm⟩

theorem registryDigest_ok {ds : List DomainMigrationDescriptor} {digest : String} :
    registryDigest ds = .ok digest ↔ (∀ d ∈ ds, WellFormed d) ∧ digest = registrySha256Of ds := by
  have hitem : ∀ (d : DomainMigrationDescriptor) (v : Value), (do
      let digest ← descriptorDigest d
      Except.ok (Value.dict [("descriptorSha256", .str digest), ("migrationId", .int d.migrationId)])) =
        .ok v ↔ WellFormed d ∧ v = .dict [
          ("descriptorSha256", .str (normalForm d).descriptorSha256),
          ("migrationId", .int d.migrationId)] := by
    intro d v
    simp only [except_bind_ok, descriptorDigest_ok, Except.ok.injEq]
    constructor
    · intro h
      obtain ⟨_, ⟨hw, rfl⟩, rfl⟩ := h
      exact ⟨hw, rfl⟩
    · intro h
      exact ⟨_, ⟨h.1, rfl⟩, h.2.symm⟩
  simp only [registryDigest, except_bind_ok, mapM_ok hitem, Except.ok.injEq]
  constructor
  · intro h
    obtain ⟨_, ⟨hw, rfl⟩, rfl⟩ := h
    exact ⟨hw, rfl⟩
  · intro h
    exact ⟨_, ⟨h.1, rfl⟩, h.2.symm⟩

/-- What the descriptors of a registry are. -/
structure Accepted (pkg : Packaged) (ds : List DomainMigrationDescriptor) : Prop where
  count : ds.length ≤ maxDomainMigrations
  wellFormed : ∀ d ∈ ds, WellFormed d
  consistent : Consistent ds
  continuous : Continuous ds
  domains : (ds.map (·.domain)).dedup.length ≤ maxMigrationDomains
  known : KnownDependencies ds
  acyclic : AcyclicDependencies ds
  covered : PackageCovers pkg ds
  legacy : ∀ d ∈ ds, ∀ trusted, trustedById pkg d.migrationId = some trusted →
    normalForm d = trusted

/-- **What is accepted** once it is normalized and sorted. -/
theorem buildRegistry_ok {pkg : Packaged} {ds : List DomainMigrationDescriptor}
    (hcount : ds.length ≤ maxDomainMigrations) (hw : ∀ d ∈ ds, WellFormed d)
    (hnormal : ∀ d ∈ ds, normalForm d = d) {reg : DomainMigrationRegistry} :
    buildRegistry pkg ds = .ok reg ↔ Accepted pkg ds ∧ reg = ⟨ds, registrySha256Of ds⟩ := by
  have hdeps : ∀ d ∈ ds, d.dependencies.Nodup := fun d hd => (hw d hd).dependenciesNodup
  simp only [buildRegistry, except_bind_ok, validateUniqueCoordinates_ok,
    validatePackagedMigrations_ok, validateLegacy_ok, registryDigest_ok, Except.ok.injEq]
  constructor
  · intro h
    obtain ⟨_, ⟨hcons, hcont, hdomains⟩, _, hgraph, _, hcovers, _, hlegacy, _, ⟨-, rfl⟩, rfl⟩ := h
    obtain ⟨hknown, hacyclic⟩ := (validateDependencyGraph_ok hcons.ids hdeps).mp hgraph
    refine ⟨⟨hcount, hw, hcons, hcont, hdomains, hknown, hacyclic, hcovers, ?_⟩, rfl⟩
    intro d hd trusted htrusted
    rw [hnormal d hd]
    exact hlegacy d hd trusted htrusted
  · intro h
    obtain ⟨ha, rfl⟩ := h
    refine ⟨(), ⟨ha.consistent, ha.continuous, ha.domains⟩, (),
      (validateDependencyGraph_ok ha.consistent.ids hdeps).mpr ⟨ha.known, ha.acyclic⟩, (),
      ha.covered, (), ?_, _, ⟨hw, rfl⟩, rfl⟩
    intro d hd trusted htrusted
    rw [← hnormal d hd]
    exact ha.legacy d hd trusted htrusted

/-! ## Order -/

/-- The same descriptors in any order, their collections in any order. -/
def Rearranged (ds ds' : List DomainMigrationDescriptor) : Prop :=
  ∃ middle, ds.Perm middle ∧ List.Forall₂ SameDescriptor middle ds'

section Order

variable {ds ds' : List DomainMigrationDescriptor}

theorem rearranged_of_forall₂ {middle : List DomainMigrationDescriptor}
    (hsame : List.Forall₂ SameDescriptor ds middle) (hperm : middle.Perm ds') : Rearranged ds ds' := by
  have h : Relation.Comp (List.Forall₂ SameDescriptor) List.Perm ds ds' := ⟨middle, hsame, hperm⟩
  rw [List.forall₂_comp_perm_eq_perm_comp_forall₂] at h
  exact h

theorem Rearranged.symm (h : Rearranged ds ds') : Rearranged ds' ds := by
  obtain ⟨middle, hperm, hsame⟩ := h
  have hback : List.Forall₂ SameDescriptor ds' middle :=
    (hsame.flip).imp fun _ _ h => SameDescriptor.symm h
  exact rearranged_of_forall₂ hback hperm.symm

theorem Rearranged.mem (h : Rearranged ds ds') {d : DomainMigrationDescriptor} (hd : d ∈ ds) :
    ∃ e ∈ ds', SameDescriptor d e := by
  obtain ⟨middle, hperm, hsame⟩ := h
  have hmem := hperm.mem_iff.mp hd
  clear hd hperm
  induction hsame with
  | nil => cases hmem
  | cons hone hrest ih =>
    rcases List.mem_cons.mp hmem with rfl | hin
    · exact ⟨_, List.mem_cons_self, hone⟩
    · obtain ⟨e, he, hsame⟩ := ih hin
      exact ⟨e, List.mem_cons_of_mem _ he, hsame⟩

theorem Rearranged.map_perm {β : Type} {f : DomainMigrationDescriptor → β} (h : Rearranged ds ds')
    (hf : ∀ d e, SameDescriptor d e → f d = f e) : (ds.map f).Perm (ds'.map f) := by
  obtain ⟨middle, hperm, hsame⟩ := h
  have heq : middle.map f = ds'.map f := by
    induction hsame generalizing ds with
    | nil => rfl
    | cons hone _ ih => rw [List.map_cons, List.map_cons, hf _ _ hone, ih (List.Perm.refl _)]
  exact heq ▸ hperm.map f

theorem Rearranged.consistent (h : Rearranged ds ds') (hc : Consistent ds) : Consistent ds' := by
  refine ⟨(h.map_perm fun _ _ hs => hs.migrationId).nodup_iff.mp hc.ids,
    (h.map_perm fun _ _ hs => hs.filename).nodup_iff.mp hc.filenames,
    (h.map_perm fun _ _ hs => ?_).nodup_iff.mp hc.coordinates, ?_⟩
  · rw [DomainMigrationDescriptor.coordinate, DomainMigrationDescriptor.coordinate, hs.domain,
      hs.domainVersion]
  · intro d hd e he item hitem other hother heq
    obtain ⟨d', hd', hsd⟩ := h.symm.mem hd
    obtain ⟨e', he', hse⟩ := h.symm.mem he
    rw [hsd.domain, hse.domain]
    exact hc.owners d' hd' e' he' item (hsd.ownedObjects.mem_iff.mp hitem) other
      (hse.ownedObjects.mem_iff.mp hother) heq

theorem Rearranged.versions (h : Rearranged ds ds') {domain : String} {v : Int}
    (hv : v ∈ versionsIn ds domain) : v ∈ versionsIn ds' domain := by
  obtain ⟨d, hd, hdomain, hversion⟩ := mem_versionsIn.mp hv
  obtain ⟨e, he, hs⟩ := h.mem hd
  exact mem_versionsIn.mpr ⟨e, he, hs.domain ▸ hdomain, hs.domainVersion ▸ hversion⟩

theorem Rearranged.dependsOn (h : Rearranged ds ds') {a b : Int} (hab : DependsOn ds a b) :
    DependsOn ds' a b := by
  obtain ⟨d, hd, hid, hb⟩ := hab
  obtain ⟨e, he, hs⟩ := h.mem hd
  exact ⟨e, he, hs.migrationId ▸ hid, hs.dependencies.mem_iff.mp hb⟩

/-- **What is accepted** does not depend on any order. -/
theorem Rearranged.accepted {pkg : Packaged} (h : Rearranged ds ds') (ha : Accepted pkg ds) :
    Accepted pkg ds' := by
  have hids := h.map_perm fun _ _ hs => hs.migrationId
  have hdomains := h.map_perm fun _ _ hs => hs.domain
  refine ⟨?_, ?_, h.consistent ha.consistent, ?_, ?_, ?_, ?_, ?_, ?_⟩
  · have hlength := hids.length_eq
    rw [List.length_map, List.length_map] at hlength
    exact hlength ▸ ha.count
  · intro e he
    obtain ⟨d, hd, hs⟩ := h.symm.mem he
    exact hs.symm.wellFormed (ha.wellFormed d hd)
  · intro domain hdomain
    obtain ⟨k, hk⟩ := ha.continuous domain (hdomains.mem_iff.mpr hdomain)
    exact ⟨k, fun v => ⟨fun hv => (hk v).mp (h.symm.versions hv), fun hv => h.versions ((hk v).mpr hv)⟩⟩
  · rw [← hdomains.dedup.length_eq]
    exact ha.domains
  · intro e he b hb
    obtain ⟨d, hd, hs⟩ := h.symm.mem he
    exact hids.mem_iff.mp (ha.known d hd b (hs.dependencies.mem_iff.mp hb))
  · intro a hself
    exact ha.acyclic a (Relation.TransGen.mono (fun _ _ hab => h.symm.dependsOn hab) a a hself)
  · refine ⟨ha.covered.count, ha.covered.ids, ha.covered.filenames,
      fun m hm => hids.mem_iff.mp (ha.covered.described m hm), ?_⟩
    intro e he
    obtain ⟨d, hd, hs⟩ := h.symm.mem he
    obtain ⟨m, hm, hid, hfile, sql, htext, hsql⟩ := ha.covered.scripts d hd
    exact ⟨m, hm, hid.trans hs.migrationId.symm, hfile.trans hs.filename.symm, sql, htext,
      hs.sqlSha256.trans hsql⟩
  · intro e he trusted htrusted
    obtain ⟨d, hd, hs⟩ := h.symm.mem he
    rw [hs.normalForm_eq]
    exact ha.legacy d hd trusted (hs.migrationId ▸ htrusted)

/-- The normal forms, sorted. -/
def normalized (ds : List DomainMigrationDescriptor) : List DomainMigrationDescriptor :=
  sortById (ds.map normalForm)

theorem normalized_perm (ds : List DomainMigrationDescriptor) :
    (normalized ds).Perm (ds.map normalForm) := List.perm_insertionSort _ _

theorem rearranged_normalized (ds : List DomainMigrationDescriptor) : Rearranged ds (normalized ds) := by
  have hsame : List.Forall₂ SameDescriptor ds (ds.map normalForm) := by
    rw [List.forall₂_map_right_iff]
    exact List.forall₂_same.mpr fun d _ => (normalForm_same d).symm
  exact rearranged_of_forall₂ hsame (normalized_perm ds).symm

/-- The registry that accepted descriptors make. -/
def registryOf (ds : List DomainMigrationDescriptor) : DomainMigrationRegistry :=
  ⟨normalized ds, registrySha256Of (normalized ds)⟩

theorem mem_normalized {d : DomainMigrationDescriptor} (hd : d ∈ normalized ds) :
    ∃ e ∈ ds, normalForm e = d := List.mem_map.mp ((normalized_perm ds).mem_iff.mp hd)

/-- **What is accepted as given.** -/
theorem validateDomainMigrationRegistry_ok {pkg : Packaged} {reg : DomainMigrationRegistry} :
    validateDomainMigrationRegistry pkg ds = .ok reg ↔ Accepted pkg ds ∧ reg = registryOf ds := by
  simp only [validateDomainMigrationRegistry, except_bind_ok, boundedTuple_ok,
    mapM_ok fun _ _ => normalizeDescriptor_ok]
  -- What is built is built of the normal forms of well formed descriptors.
  have hbuild : ds.length ≤ maxDomainMigrations → (∀ d ∈ ds, WellFormed d) →
      (buildRegistry pkg (normalized ds) = .ok reg ↔
        Accepted pkg (normalized ds) ∧ reg = registryOf ds) := by
    intro hcount hw
    apply buildRegistry_ok
    · rw [(normalized_perm ds).length_eq, List.length_map]
      exact hcount
    · intro d hd
      obtain ⟨e, he, rfl⟩ := mem_normalized hd
      exact (normalForm_same e).symm.wellFormed (hw e he)
    · intro d hd
      obtain ⟨e, he, rfl⟩ := mem_normalized hd
      exact (normalForm_same e).normalForm_eq
  constructor
  · intro h
    obtain ⟨_, ⟨hcount, rfl⟩, _, ⟨hw, rfl⟩, hrun⟩ := h
    obtain ⟨ha, rfl⟩ := (hbuild hcount hw).mp hrun
    exact ⟨(rearranged_normalized _).symm.accepted ha, rfl⟩
  · intro h
    obtain ⟨ha, hreg⟩ := h
    exact ⟨_, ⟨ha.count, rfl⟩, _, ⟨ha.wellFormed, rfl⟩, (hbuild ha.count ha.wellFormed).mpr
      ⟨(rearranged_normalized ds).accepted ha, hreg⟩⟩

theorem Rearranged.registryOf_eq (h : Rearranged ds ds') (hids : (ds.map (·.migrationId)).Nodup) :
    registryOf ds = registryOf ds' := by
  have hnormal : normalized ds = normalized ds' := by
    apply insertionSort_eq_of_perm (h.map_perm fun _ _ hs => hs.normalForm_eq)
    have hnodup : ((ds.map normalForm).map (·.migrationId)).Nodup := by
      rw [List.map_map]
      exact hids
    intro a ha b hb heq
    exact List.inj_on_of_nodup_map hnodup ha hb heq
  rw [registryOf, registryOf, hnormal]

end Order

/-- **Which descriptors make a registry.** They are accepted exactly if they
are well formed, consistent and within the bounds, with the versions of every
domain `1..k`, dependencies known and without cycle, the packaged scripts the
ones described and the legacy migrations as shipped. The registry made, and
the digest of a descriptor, do not depend on the order of the descriptors or of
their collections. -/
theorem registry_acceptance (pkg : Packaged) :
    (∀ ds reg, validateDomainMigrationRegistry pkg ds = .ok reg ↔
      Accepted pkg ds ∧ reg = registryOf ds) ∧
    (∀ ds ds', Rearranged ds ds' → ∀ reg, validateDomainMigrationRegistry pkg ds = .ok reg ↔
      validateDomainMigrationRegistry pkg ds' = .ok reg) ∧
    (∀ d e, SameDescriptor d e → ∀ digest, descriptorDigest d = .ok digest ↔
      descriptorDigest e = .ok digest) := by
  have hone : ∀ ds ds', Rearranged ds ds' → ∀ reg,
      validateDomainMigrationRegistry pkg ds = .ok reg →
        validateDomainMigrationRegistry pkg ds' = .ok reg := by
    intro ds ds' h reg hrun
    obtain ⟨ha, rfl⟩ := validateDomainMigrationRegistry_ok.mp hrun
    exact validateDomainMigrationRegistry_ok.mpr ⟨h.accepted ha,
      h.registryOf_eq ha.consistent.ids⟩
  refine ⟨fun ds reg => validateDomainMigrationRegistry_ok, ?_, ?_⟩
  · intro ds ds' h reg
    exact ⟨hone ds ds' h reg, hone ds' ds h.symm reg⟩
  · intro d e hs digest
    rw [descriptorDigest_ok, descriptorDigest_ok, hs.normalForm_eq]
    exact and_congr_left fun _ => ⟨hs.wellFormed, hs.symm.wellFormed⟩

/-! ### A dependency named twice -/

namespace RepeatedDependency

/-- The packaged migrations 5 and 6, with empty scripts. -/
def pkg : Packaged where
  migrations := [⟨5, "five.up.sql", by decide, by decide⟩, ⟨6, "six.up.sql", by decide, by decide⟩]
  migrationText := fun _ => some ""
  legacy := []

def five : DomainMigrationDescriptor :=
  ⟨5, "five.up.sql", hexDigest "", "reports", 1, .native, [], []⟩

def six : DomainMigrationDescriptor :=
  ⟨6, "six.up.sql", hexDigest "", "reports", 2, .native, [5, 5], []⟩

end RepeatedDependency

open RepeatedDependency in
/-- **A dependency named twice is refused**, although ids, versions, owners,
dependencies, scripts and legacy migrations are all in order. -/
theorem repeated_dependency : ¬ ∀ (pkg : Packaged) (ds : List DomainMigrationDescriptor),
    (∃ reg, validateDomainMigrationRegistry pkg ds = .ok reg) ↔
      Consistent ds ∧ Continuous ds ∧ KnownDependencies ds ∧ AcyclicDependencies ds ∧
        PackageCovers pkg ds ∧ ∀ d ∈ ds, ∀ trusted,
          trustedById pkg d.migrationId = some trusted → normalForm d = trusted := by
  intro hall
  obtain ⟨reg, hreg⟩ := (hall pkg [five, six]).mpr (by
    refine ⟨⟨by decide, by decide, by decide, by simp [five, six]⟩, ?_, ?_, ?_, ?_, ?_⟩
    · intro domain hdomain
      obtain rfl : domain = "reports" := by simpa [five, six] using hdomain
      refine ⟨2, fun v => ?_⟩
      have hversions : versionsIn [five, six] "reports" = [1, 2] := by decide
      rw [hversions, List.mem_cons, List.mem_singleton]
      omega
    · simp [KnownDependencies, five, six]
    · -- Every dependency is the smaller one.
      intro a hself
      have hdown : ∀ x y, Relation.TransGen (DependsOn [five, six]) x y → y < x := by
        intro x y hxy
        have hstep : ∀ x y, DependsOn [five, six] x y → y < x := by
          intro x y h
          obtain ⟨d, hd, rfl, hy⟩ := h
          rcases List.mem_cons.mp hd with rfl | hd
          · cases hy
          · obtain rfl := List.mem_singleton.mp hd
            obtain rfl : y = 5 := by simpa [six] using hy
            decide
        induction hxy with
        | single h => exact hstep _ _ h
        | tail _ h ih => exact lt_trans (hstep _ _ h) ih
      exact lt_irrefl a (hdown a a hself)
    · refine ⟨by decide, by decide, by decide, by decide, ?_⟩
      intro d hd
      rcases List.mem_cons.mp hd with rfl | hd
      · exact ⟨_, List.mem_cons_self, rfl, rfl, "", rfl, rfl⟩
      · obtain rfl := List.mem_singleton.mp hd
        exact ⟨_, List.mem_cons_of_mem _ List.mem_cons_self, rfl, rfl, "", rfl, rfl⟩
    · intro d _ trusted htrusted
      cases htrusted)
  have hw := (validateDomainMigrationRegistry_ok.mp hreg).1.wellFormed six (by simp)
  exact absurd hw.dependenciesNodup (by decide)

end QuantumEntanglement.Migrations
