import QuantumEntanglement.Migrations.RegistryAcceptance

/-
  Registry prefixes — what the ledger holds while a registry is applied

  The legacy runner applies a registry in order of the ids, so a ledger always
  holds a prefix of it. A registry may name its dependencies and number its
  versions against that order: an id is an identity, not an order.

  What is proved:
    1. `prefixes_closed_iff`, `prefixes_continuous_iff` — the prefixes hold
       their own dependencies, and the versions `1..k` of every domain, exactly
       where the ids grow along the dependencies and with the versions.
    2. `dependencyOrder_prefixes` — in the order of Kahn's loop every prefix
       holds its own dependencies.
    3. `validateModels_prefix`, `planner_accepts_iff` — the planner accepts the
       state of a prefix exactly if it holds its own dependencies and all of it
       is legacy.
    4. `registry_prefixes` — the three for every registry accepted.
    5. `later_dependency` — a registry may depend on a later migration.
-/

namespace QuantumEntanglement.Migrations

open PyJson PyText Sha256 Checked

section Prefixes

/-- In order of their ids, none twice. -/
def ById (ds : List DomainMigrationDescriptor) : Prop :=
  ds.Pairwise fun d e => d.migrationId < e.migrationId

/-- Every prefix holds its own dependencies. -/
def ClosedPrefixes (ds : List DomainMigrationDescriptor) : Prop :=
  ∀ n, KnownDependencies (ds.take n)

/-- Every prefix holds versions `1..k` of each of its domains. -/
def ContinuousPrefixes (ds : List DomainMigrationDescriptor) : Prop :=
  ∀ n, Continuous (ds.take n)

/-- Every dependency has a smaller id. -/
def DependenciesEarlier (ds : List DomainMigrationDescriptor) : Prop :=
  ∀ d ∈ ds, ∀ b ∈ d.dependencies, b < d.migrationId

/-- The versions of a domain grow with the ids. -/
def VersionsIncrease (ds : List DomainMigrationDescriptor) : Prop :=
  ∀ d ∈ ds, ∀ e ∈ ds, d.domain = e.domain → d.migrationId < e.migrationId →
    d.domainVersion < e.domainVersion

variable {ds : List DomainMigrationDescriptor}

/-- What comes no later than a descriptor of a prefix is in the prefix. -/
theorem mem_take_of_le (hsorted : ById ds) {n : Nat} {d e : DomainMigrationDescriptor}
    (hd : d ∈ ds.take n) (he : e ∈ ds) (hle : e.migrationId ≤ d.migrationId) : e ∈ ds.take n := by
  rw [ById, ← List.take_append_drop n ds, List.pairwise_append] at hsorted
  rw [← List.take_append_drop n ds, List.mem_append] at he
  rcases he with he | he
  · exact he
  · have hlt := hsorted.2.2 d hd e he
    omega

/-- The prefix that ends with a descriptor. -/
theorem exists_prefix {d : DomainMigrationDescriptor} (hsorted : ById ds) (hd : d ∈ ds) :
    ∃ n, d ∈ ds.take n ∧ ∀ e ∈ ds.take n, e.migrationId ≤ d.migrationId := by
  obtain ⟨before, after, rfl⟩ := List.append_of_mem hd
  have htake : (before ++ d :: after).take (before.length + 1) = before ++ [d] := by
    rw [List.take_append]
    simp
  refine ⟨before.length + 1, ?_, ?_⟩
  · rw [htake]
    simp
  · rw [htake]
    intro e he
    rcases List.mem_append.mp he with he | he
    · have hlt := (List.pairwise_append.mp hsorted).2.2 e he d List.mem_cons_self
      omega
    · rw [List.mem_singleton.mp he]

/-- **Every prefix holds its own dependencies** exactly where each has a
smaller id. -/
theorem prefixes_closed_iff (hsorted : ById ds) (hknown : KnownDependencies ds)
    (hacyclic : AcyclicDependencies ds) : ClosedPrefixes ds ↔ DependenciesEarlier ds := by
  constructor
  · intro h d hd b hb
    obtain ⟨n, hn, hle⟩ := exists_prefix hsorted hd
    obtain ⟨e, he, rfl⟩ := List.mem_map.mp (h n d hn b hb)
    have hother : e.migrationId ≠ d.migrationId := by
      intro heq
      exact hacyclic d.migrationId (.single ⟨d, hd, rfl, heq ▸ hb⟩)
    have := hle e he
    omega
  · intro h n d hd b hb
    have hmem : d ∈ ds := List.mem_of_mem_take hd
    obtain ⟨e, he, rfl⟩ := List.mem_map.mp (hknown d hmem b hb)
    exact List.mem_map_of_mem (mem_take_of_le hsorted hd he (Int.le_of_lt (h d hmem _ hb)))

/-- Positive integers without a gap below any of them are `1..k`. -/
theorem downward_closed {vs : List Int} (hne : vs ≠ []) (hpos : ∀ v ∈ vs, 1 ≤ v)
    (hdown : ∀ v ∈ vs, ∀ w, 1 ≤ w → w ≤ v → w ∈ vs) : ∃ k : Nat, ∀ v, v ∈ vs ↔ 1 ≤ v ∧ v ≤ k := by
  obtain ⟨m, hm, hmax⟩ := vs.toFinset.exists_max_image id (List.toFinset_nonempty_iff vs |>.mpr hne)
  rw [List.mem_toFinset] at hm
  have hm1 := hpos m hm
  refine ⟨m.toNat, fun v => ⟨?_, ?_⟩⟩
  · intro hv
    have hle := hmax v (List.mem_toFinset.mpr hv)
    simp only [id_eq] at hle
    exact ⟨hpos v hv, by omega⟩
  · intro hv
    exact hdown m hm v hv.1 (by omega)

/-- **Every prefix holds versions `1..k`** exactly where the versions of a
domain grow with the ids. -/
theorem prefixes_continuous_iff (hsorted : ById ds) (hcons : Consistent ds) (hcont : Continuous ds)
    (hpos : ∀ d ∈ ds, 0 < d.domainVersion) : ContinuousPrefixes ds ↔ VersionsIncrease ds := by
  constructor
  · intro h d hd e he hdomain hlt
    obtain ⟨n, hn, hle⟩ := exists_prefix hsorted hd
    obtain ⟨k, hk⟩ := h n d.domain (List.mem_map_of_mem hn)
    have hdk := ((hk d.domainVersion).mp (mem_versionsIn.mpr ⟨d, hn, rfl, rfl⟩)).2
    by_contra hnot
    -- Then the version of `e` is in the prefix, and so is `e`.
    have hev : e.domainVersion ∈ versionsIn (ds.take n) d.domain := by
      have := hpos e he
      exact (hk _).mpr ⟨by omega, by omega⟩
    obtain ⟨c, hc, hcd, hcv⟩ := mem_versionsIn.mp hev
    have hsame : c = e := by
      refine List.inj_on_of_nodup_map hcons.coordinates (List.mem_of_mem_take hc) he ?_
      rw [DomainMigrationDescriptor.coordinate, DomainMigrationDescriptor.coordinate, hcd, hdomain,
        hcv]
    have := hle c hc
    rw [hsame] at this
    omega
  · intro h n domain hdomain
    obtain ⟨d, hd, rfl⟩ := List.mem_map.mp hdomain
    apply downward_closed
    · exact List.ne_nil_of_mem (mem_versionsIn.mpr ⟨d, hd, rfl, rfl⟩)
    · intro v hv
      obtain ⟨c, hc, -, rfl⟩ := mem_versionsIn.mp hv
      exact hpos c (List.mem_of_mem_take hc)
    · intro v hv w hw hle
      obtain ⟨c, hc, hcd, rfl⟩ := mem_versionsIn.mp hv
      have hcin : c ∈ ds := List.mem_of_mem_take hc
      obtain ⟨k, hk⟩ := hcont d.domain (List.mem_map_of_mem (List.mem_of_mem_take hd))
      have hck := ((hk c.domainVersion).mp (mem_versionsIn.mpr ⟨c, hcin, hcd, rfl⟩)).2
      obtain ⟨e, he, hed, rfl⟩ := mem_versionsIn.mp ((hk w).mpr ⟨hw, by omega⟩)
      refine mem_versionsIn.mpr ⟨e, mem_take_of_le hsorted hc he ?_, hed, rfl⟩
      by_contra hlt
      have := h c hcin e he (hcd.trans hed.symm) (by omega)
      omega

/-- **In the order of Kahn's loop** every prefix holds its own dependencies. -/
theorem dependencyOrder_prefixes (hids : (ds.map (·.migrationId)).Nodup)
    (hdeps : ∀ d ∈ ds, d.dependencies.Nodup) (hknown : KnownDependencies ds)
    (hacyclic : AcyclicDependencies ds) :
    (dependencyOrder ds).Perm (ds.map (·.migrationId)) ∧
      ∀ n, ∀ a ∈ (dependencyOrder ds).take n, ∀ b, DependsOn ds a b →
        b ∈ (dependencyOrder ds).take n := by
  have hgraph := dependencyGraph hids hdeps
  obtain ⟨hnodup, hsub, hinOrder, -⟩ := KahnSort.order_spec hgraph
  have hlength : (dependencyOrder ds).length = (ds.map (·.migrationId)).length := by
    refine (KahnSort.order_complete hgraph ?_ ?_).mpr ((acyclic_iff hids).mpr hacyclic)
    · intro a _ b hb
      obtain ⟨d, hd, -, hmem⟩ := (mem_dependenciesOf hids).mp hb
      exact hknown d hd b hmem
    · intro a hne
      obtain ⟨b, hb⟩ := List.exists_mem_of_ne_nil _ hne
      obtain ⟨d, hd, rfl, -⟩ := (mem_dependenciesOf hids).mp hb
      exact List.mem_map_of_mem hd
  refine ⟨(List.subperm_of_subset hnodup hsub).perm_of_length_le (Nat.le_of_eq hlength.symm), ?_⟩
  intro n a ha b hab
  obtain ⟨before, after, heq⟩ := List.append_of_mem ha
  have hsplit : dependencyOrder ds = before ++ a :: (after ++ (dependencyOrder ds).drop n) := by
    rw [← List.cons_append, ← List.append_assoc, ← heq, List.take_append_drop]
  rw [heq]
  exact List.mem_append_left _ (hinOrder before a _ hsplit b ((mem_dependenciesOf hids).mpr hab))

end Prefixes

/-! ## What the planner makes of a prefix -/

/-- `SchemaState.__post_init__`. -/
def boundedState (s : SchemaState) : Except MigrationError SchemaState := do
  let appliedMigrations ← boundedTuple s.appliedMigrations maxDomainMigrations
    "schema state applied migrations"
  let domainHeads ← boundedTuple s.domainHeads maxMigrationDomains "schema state domain heads"
  let dependencyEdges ← boundedTuple s.dependencyEdges maxDomainMigrations
    "schema state dependency edges"
  let ownedSchemaDigests ← boundedTuple s.ownedSchemaDigests maxMigrationDomains
    "schema state owned schema digests"
  .ok { s with
    appliedMigrations := appliedMigrations
    domainHeads := domainHeads
    dependencyEdges := dependencyEdges
    ownedSchemaDigests := ownedSchemaDigests }

/-- The edges recorded beside the first `n` migrations. -/
def prefixEdges (rel : Release) (shape : SchemaShape) (n : Nat) : List DomainMigrationDependencyRow :=
  if shape = .bridgedPrefix then declaredDependencies (rel.applied n) else []

/-- `_schema_state_from_bridge_state`, where the ledger holds the first `n` migrations. -/
def prefixState (rel : Release) (shape : SchemaShape) (n : Nat) : SchemaState :=
  buildSchemaState rel shape (rel.applied n) (prefixEdges rel shape n)

/-- The shapes a database with the first `n` migrations can have. -/
def FitsShape (rel : Release) (shape : SchemaShape) (n : Nat) : Prop :=
  (shape = .empty → rel.applied n = []) ∧
    (shape = .legacyPrefix ∨ shape = .bridgedPrefix → rel.applied n ≠ [])

/-- The state is one the planner takes. -/
def PlannerAccepts (rel : Release) (shape : SchemaShape) (n : Nat) : Prop :=
  boundedState (prefixState rel shape n) = .ok (prefixState rel shape n) ∧
    validateSchemaState rel (prefixState rel shape n) = .ok (rel.applied n)

section Heads

theorem latestByDomain_mem (rest : List AppliedSchemaMigration) :
    ∀ {latest : List AppliedSchemaMigration} {m : AppliedSchemaMigration},
      m ∈ latestByDomain latest rest → m ∈ latest ∨ m ∈ rest := by
  induction rest with
  | nil =>
    intro latest m hm
    exact .inl hm
  | cons first rest ih =>
    intro latest m hm
    rw [latestByDomain] at hm
    split at hm
    · rcases ih hm with h | h
      · rcases List.mem_append.mp h with h | h
        · exact .inl h
        · exact .inr (List.mem_singleton.mp h ▸ List.mem_cons_self)
      · exact .inr (List.mem_cons_of_mem _ h)
    · split at hm
      · rcases ih hm with h | h
        · obtain ⟨old, hold, rfl⟩ := List.mem_map.mp h
          split
          · exact .inr List.mem_cons_self
          · exact .inl hold
        · exact .inr (List.mem_cons_of_mem _ h)
      · rcases ih hm with h | h
        · exact .inl h
        · exact .inr (List.mem_cons_of_mem _ h)

/-- Every domain has one latest migration. -/
theorem latestByDomain_nodup (rest : List AppliedSchemaMigration) :
    ∀ {latest : List AppliedSchemaMigration}, (latest.map (·.domain)).Nodup →
      ((latestByDomain latest rest).map (·.domain)).Nodup := by
  induction rest with
  | nil => exact fun h => h
  | cons first rest ih =>
    intro latest h
    rw [latestByDomain]
    split
    next hnone =>
      apply ih
      rw [nodup_map_concat h]
      intro hmem
      obtain ⟨old, hold, heq⟩ := List.mem_map.mp hmem
      have := List.find?_eq_none.mp hnone old hold
      simp [heq] at this
    next =>
      split
      · apply ih
        have hkeep : (latest.map fun h => if h.domain = first.domain then first else h).map (·.domain) =
            latest.map (·.domain) := by
          rw [List.map_map]
          apply List.map_congr_left
          intro old _
          simp only [Function.comp_apply]
          split
          next heq => exact heq.symm
          next => rfl
        rw [hkeep]
        exact h
      · exact ih h

end Heads

section Planner

variable {rel : Release} {pkg : Packaged} {ds : List DomainMigrationDescriptor}

theorem guard_ok {ε α : Type} {c : Prop} [Decidable c] {e : ε} {x : Except ε α} {a : α} :
    (if c then .error e else x) = .ok a ↔ ¬c ∧ x = .ok a := by
  by_cases hc : c
  · simp [hc]
  · simp [hc]

theorem isSha256_canonicalSha256 (v : Value) : isSha256 (canonicalSha256 v) = true := by
  obtain ⟨hlength, hall⟩ := hexDigest_canonical (dumps v)
  rw [isSha256, canonicalSha256, hlength, Bool.and_eq_true, List.all_eq_true]
  exact ⟨rfl, hall⟩

/-- A migration of the state of a prefix is one of the prefix. -/
theorem mem_applied_prefix {shape : SchemaShape} {n : Nat} {m : AppliedSchemaMigration}
    (hm : m ∈ (prefixState rel shape n).appliedMigrations) :
    ∃ d ∈ rel.applied n, m = ⟨d.migrationId, d.filename, d.sqlSha256, d.domain, d.domainVersion,
      d.kind, d.descriptorSha256, d.ownedObjectManifestSha256, shape = .bridgedPrefix⟩ := by
  obtain ⟨d, hd, rfl⟩ := List.mem_map.mp hm
  exact ⟨d, hd, rfl⟩

theorem mem_heads_prefix {shape : SchemaShape} {n : Nat} {h : SchemaDomainHead}
    (hh : h ∈ (prefixState rel shape n).domainHeads) :
    ∃ d ∈ rel.applied n, h = ⟨d.domain, d.domainVersion, d.migrationId,
      d.ownedObjectManifestSha256, shape = .bridgedPrefix⟩ := by
  obtain ⟨m, hm, rfl⟩ := List.mem_map.mp ((List.perm_insertionSort _ _).mem_iff.mp hh)
  rcases latestByDomain_mem _ hm with hm | hm
  · cases hm
  · obtain ⟨d, hd, rfl⟩ := List.mem_map.mp hm
    exact ⟨d, hd, rfl⟩

theorem mem_edges_prefix {shape : SchemaShape} {n : Nat} {e : DomainMigrationDependencyRow}
    (he : e ∈ (prefixState rel shape n).dependencyEdges) :
    ∃ d ∈ rel.applied n, e.migrationId = d.migrationId ∧ e.dependsOnMigrationId ∈ d.dependencies := by
  have hmem : e ∈ prefixEdges rel shape n := (List.perm_insertionSort _ _).mem_iff.mp he
  rw [prefixEdges] at hmem
  split at hmem
  · obtain ⟨d, hd, hin⟩ := List.mem_flatMap.mp ((List.perm_insertionSort _ _).mem_iff.mp hmem)
    obtain ⟨b, hb, rfl⟩ := List.mem_map.mp hin
    exact ⟨d, hd, rfl, hb⟩
  · cases hmem

/-- **The models of a prefix** are accepted exactly if all of it is legacy. -/
theorem validateModels_prefix (hw : ∀ d ∈ rel.registry.descriptors, WellFormed d)
    (hdigest : isSha256 rel.registry.registrySha256 = true) {shape : SchemaShape} {n : Nat} {u : Unit} :
    validateSchemaStateModels (prefixState rel shape n) = .ok u ↔
      ∀ d ∈ rel.applied n, d.kind = .legacyBootstrap := by
  have hin : ∀ d ∈ rel.applied n, WellFormed d := fun d hd => hw d (List.mem_of_mem_take hd)
  have hpositive : ∀ v : Int, 0 < v ∧ v ≤ maxMigrationId →
      (decide (0 < v) && decide (v ≤ maxMigrationId)) = true := by
    intro v hv
    simp [hv.1, hv.2]
  have hversion : ¬((prefixState rel shape n).legacySchemaVersion < 0 ∨
      (prefixState rel shape n).legacySchemaVersion > maxMigrationId) := by
    show ¬(((rel.applied n).getLast?.map (·.migrationId)).getD 0 < 0 ∨
      ((rel.applied n).getLast?.map (·.migrationId)).getD 0 > maxMigrationId)
    cases hlast : (rel.applied n).getLast? with
    | none => decide
    | some d =>
      have hd := (hin d (List.mem_of_getLast? hlast)).migrationId
      simp only [Option.map_some, Option.getD_some]
      omega
  have hformat : ¬((prefixState rel shape n).sidecarFormat ≠ 0 ∧
      (prefixState rel shape n).sidecarFormat ≠ 1) := by
    show ¬((if shape = .sidecarAbsent then (0 : Int) else 1) ≠ 0 ∧
      (if shape = .sidecarAbsent then (0 : Int) else 1) ≠ 1)
    split <;> decide
  have hdigests : (!(isSha256 (prefixState rel shape n).registrySha256 &&
      isSha256 (prefixState rel shape n).stateSha256)) = false := by
    have hregistry : isSha256 (prefixState rel shape n).registrySha256 = true := hdigest
    have hstate : isSha256 (prefixState rel shape n).stateSha256 = true :=
      isSha256_canonicalSha256 _
    rw [hregistry, hstate]
    rfl
  simp only [validateSchemaStateModels, except_bind_ok, guard_ok, forEach_ok, hdigests,
    Bool.false_eq_true, not_false_eq_true, true_and]
  constructor
  · intro h
    obtain ⟨-, -, _, happlied, -⟩ := h
    intro d hd
    have hm := happlied _ (List.mem_map_of_mem hd)
    exact not_not.mp hm.2.2.2.1
  · intro hlegacy
    refine ⟨hformat, hversion, (), ?_, (), ?_, (), ?_, ?_⟩
    · intro m hm
      obtain ⟨d, hd, rfl⟩ := mem_applied_prefix hm
      have hd' := hin d hd
      refine ⟨?_, ?_, ?_, not_not.mpr (hlegacy d hd), ?_, trivial⟩
      · rw [hpositive _ hd'.migrationId, hd'.sqlSha256]
        decide
      · rw [hd'.domain]
        decide
      · rw [hpositive _ hd'.domainVersion]
        decide
      · rw [show isSha256 d.descriptorSha256 = true from isSha256_canonicalSha256 _,
          show isSha256 d.ownedObjectManifestSha256 = true from isSha256_canonicalSha256 _]
        decide
    · intro h hh
      obtain ⟨d, hd, rfl⟩ := mem_heads_prefix hh
      have hd' := hin d hd
      refine ⟨?_, ?_, trivial⟩
      · rw [hd'.domain]
        decide
      · rw [hpositive _ hd'.domainVersion, hpositive _ hd'.migrationId,
          show isSha256 d.ownedObjectManifestSha256 = true from isSha256_canonicalSha256 _]
        decide
    · intro e he
      obtain ⟨d, hd, hid, hb⟩ := mem_edges_prefix he
      have hd' := hin d hd
      refine ⟨?_, trivial⟩
      rw [hid, hpositive _ hd'.migrationId, hpositive _ (hd'.dependencyIds _ hb)]
      decide
    · intro p hp
      obtain ⟨h, hh, rfl⟩ := List.mem_map.mp hp
      obtain ⟨d, hd, rfl⟩ := mem_heads_prefix hh
      refine ⟨?_, ?_, trivial⟩
      · rw [(hin d hd).domain]
        decide
      · rw [show isSha256 d.ownedObjectManifestSha256 = true from isSha256_canonicalSha256 _]
        decide

/-- What the check of the descriptors of a prefix says. -/
theorem validateState_prefix (hw : ∀ d ∈ rel.registry.descriptors, WellFormed d)
    (hdigest : isSha256 rel.registry.registrySha256 = true) {shape : SchemaShape} {n : Nat}
    (hfits : FitsShape rel shape n) :
    validateSchemaState rel (prefixState rel shape n) = .ok (rel.applied n) ↔
      (∀ d ∈ rel.applied n, d.kind = .legacyBootstrap) ∧ KnownDependencies (rel.applied n) := by
  have hids : (prefixState rel shape n).appliedMigrations.map (·.migrationId) =
      (rel.applied n).map (·.migrationId) := by
    show ((rel.applied n).map _).map _ = _
    rw [List.map_map]
    rfl
  have hdescriptors : rel.applied ((prefixState rel shape n).appliedMigrations.map
      (·.migrationId)).length = rel.applied n := by
    rw [hids, List.length_map]
    exact rel.applied_length_applied n
  have hregistry : (prefixState rel shape n).registrySha256 = rel.registry.registrySha256 := rfl
  have hshape : (prefixState rel shape n).shape = shape := rfl
  have hbuilt : prefixState rel shape n = buildSchemaState rel shape (rel.applied n)
      (if shape = .bridgedPrefix then declaredDependencies (rel.applied n) else []) := rfl
  unfold validateSchemaState
  simp only [hdescriptors]
  simp only [except_bind_ok, guard_ok, forEach_ok, hids, hregistry, hshape,
    validateModels_prefix hw hdigest, ne_eq, not_true_eq_false, not_false_eq_true, true_and, not_not,
    not_exists, not_and, and_true]
  constructor
  · intro h
    obtain ⟨_, hlegacy, _, hdeps, -⟩ := h
    exact ⟨hlegacy, fun d hd b hb => (hdeps d hd).2 b hb⟩
  · intro h
    refine ⟨(), h.1, (), fun d hd => ⟨h.1 d hd, h.2 d hd⟩, fun hempty => hfits.1 hempty,
      fun hshaped => hfits.2 hshaped, hbuilt⟩

/-- **A state of a prefix can be built** exactly if its edges are not too many. -/
theorem boundedState_prefix (hcount : rel.registry.descriptors.length ≤ maxDomainMigrations)
    (hdomains : (rel.registry.descriptors.map (·.domain)).dedup.length ≤ maxMigrationDomains)
    {shape : SchemaShape} {n : Nat} :
    boundedState (prefixState rel shape n) = .ok (prefixState rel shape n) ↔
      (prefixEdges rel shape n).length ≤ maxDomainMigrations := by
  have happlied : (prefixState rel shape n).appliedMigrations.length ≤ maxDomainMigrations := by
    show ((rel.applied n).map _).length ≤ maxDomainMigrations
    rw [List.length_map, Release.applied, List.length_take]
    omega
  have hheads : (prefixState rel shape n).domainHeads.length ≤ maxMigrationDomains := by
    refine Nat.le_trans ?_ hdomains
    have hlength : (prefixState rel shape n).domainHeads.length =
        ((latestByDomain [] (prefixState rel shape n).appliedMigrations).map (·.domain)).length := by
      show (List.insertionSort _ _).length = _
      rw [List.length_insertionSort, List.length_map, List.length_map]
      rfl
    rw [hlength]
    have hnodup := @latestByDomain_nodup (prefixState rel shape n).appliedMigrations [] List.nodup_nil
    refine (List.subperm_of_subset hnodup ?_).length_le
    intro domain hdomain
    obtain ⟨m, hm, rfl⟩ := List.mem_map.mp hdomain
    rcases latestByDomain_mem _ hm with hm | hm
    · cases hm
    · obtain ⟨d, hd, rfl⟩ := mem_applied_prefix hm
      exact List.mem_dedup.mpr (List.mem_map_of_mem (List.mem_of_mem_take hd))
  have hdigests : (prefixState rel shape n).ownedSchemaDigests.length =
      (prefixState rel shape n).domainHeads.length := List.length_map _
  have hedges : (prefixState rel shape n).dependencyEdges.length = (prefixEdges rel shape n).length :=
    (List.perm_insertionSort _ _).length_eq
  simp only [boundedState, except_bind_ok, boundedTuple_ok, Except.ok.injEq]
  constructor
  · intro h
    obtain ⟨_, _, _, _, _, ⟨hlength, -⟩, -⟩ := h
    exact hedges ▸ hlength
  · intro h
    exact ⟨_, ⟨happlied, rfl⟩, _, ⟨hheads, rfl⟩, _, ⟨hedges ▸ h, rfl⟩, _,
      ⟨hdigests ▸ hheads, rfl⟩, rfl⟩

end Planner

/-! ## Every registry accepted -/

theorem normalized_byId {pkg : Packaged} {ds : List DomainMigrationDescriptor}
    (ha : Accepted pkg (normalized ds)) : ById (normalized ds) := by
  have hsorted : (normalized ds).Pairwise fun d e => d.migrationId ≤ e.migrationId :=
    List.pairwise_insertionSort (fun d e : DomainMigrationDescriptor => d.migrationId ≤ e.migrationId) _
  have hne : (normalized ds).Pairwise fun d e => d.migrationId ≠ e.migrationId :=
    List.pairwise_map.mp ha.consistent.ids
  refine (hsorted.and hne).imp ?_
  intro d e h
  have := h.1
  have := h.2
  omega

/-- **The prefixes of a registry.** Of every registry accepted, the prefixes
hold their own dependencies exactly where each dependency has a smaller id, and
versions `1..k` of each domain exactly where these grow with the ids; some
order of the migrations has all prefixes closed; and the planner accepts the
state of a prefix, of a shape it can have, exactly if the prefix holds its own
dependencies, all of it is legacy, and its recorded edges are not too many. -/
theorem registry_prefixes (pkg : Packaged) (ds : List DomainMigrationDescriptor)
    (reg : DomainMigrationRegistry) (h : validateDomainMigrationRegistry pkg ds = .ok reg) :
    (ClosedPrefixes reg.descriptors ↔ DependenciesEarlier reg.descriptors) ∧
    (ContinuousPrefixes reg.descriptors ↔ VersionsIncrease reg.descriptors) ∧
    ((dependencyOrder reg.descriptors).Perm (reg.descriptors.map (·.migrationId)) ∧
      ∀ n, ∀ a ∈ (dependencyOrder reg.descriptors).take n, ∀ b, DependsOn reg.descriptors a b →
        b ∈ (dependencyOrder reg.descriptors).take n) ∧
    ∀ rel : Release, rel.registry = reg → ∀ shape n, FitsShape rel shape n →
      (PlannerAccepts rel shape n ↔ KnownDependencies (reg.descriptors.take n) ∧
        (∀ d ∈ reg.descriptors.take n, d.kind = .legacyBootstrap) ∧
        (prefixEdges rel shape n).length ≤ maxDomainMigrations) := by
  obtain ⟨hds, rfl⟩ := validateDomainMigrationRegistry_ok.mp h
  have ha : Accepted pkg (normalized ds) := (rearranged_normalized ds).accepted hds
  have hsorted := normalized_byId ha
  have hdeps : ∀ d ∈ normalized ds, d.dependencies.Nodup :=
    fun d hd => (ha.wellFormed d hd).dependenciesNodup
  refine ⟨prefixes_closed_iff hsorted ha.known ha.acyclic,
    prefixes_continuous_iff hsorted ha.consistent ha.continuous
      (fun d hd => (ha.wellFormed d hd).domainVersion.1),
    dependencyOrder_prefixes ha.consistent.ids hdeps ha.known ha.acyclic, ?_⟩
  intro rel hrel shape n hfits
  have hdescriptors : rel.registry.descriptors = normalized ds := by
    rw [hrel]
    rfl
  have happlied : rel.applied n = (registryOf ds).descriptors.take n := by
    rw [Release.applied, hrel]
  have hw : ∀ d ∈ rel.registry.descriptors, WellFormed d := by
    rw [hdescriptors]
    exact ha.wellFormed
  have hdigest : isSha256 rel.registry.registrySha256 = true := by
    rw [hrel]
    exact isSha256_canonicalSha256 _
  have hcount : rel.registry.descriptors.length ≤ maxDomainMigrations := by
    rw [hdescriptors]
    exact ha.count
  have hdomains : (rel.registry.descriptors.map (·.domain)).dedup.length ≤ maxMigrationDomains := by
    rw [hdescriptors]
    exact ha.domains
  rw [PlannerAccepts, boundedState_prefix hcount hdomains, validateState_prefix hw hdigest hfits,
    happlied]
  constructor
  · intro haccepts
    exact ⟨haccepts.2.2, haccepts.2.1, haccepts.1⟩
  · intro hheld
    exact ⟨hheld.2.2, hheld.2.1, hheld.1⟩

/-! ### A later dependency -/

namespace LaterDependency

theorem five_positive : 0 < 5 := by decide

theorem six_positive : 0 < 6 := by decide

theorem five_suffix : ".up.sql".toList.isSuffixOf "five.up.sql".toList = true := by decide

theorem six_suffix : ".up.sql".toList.isSuffixOf "six.up.sql".toList = true := by decide

/-- The packaged migrations 5 and 6, with empty scripts. -/
def pkg : Packaged where
  migrations := [⟨5, "five.up.sql", five_positive, five_suffix⟩, ⟨6, "six.up.sql", six_positive, six_suffix⟩]
  migrationText := fun _ => some ""
  legacy := []

def five : DomainMigrationDescriptor :=
  ⟨5, "five.up.sql", hexDigest "", "reports", 1, .native, [6], []⟩

def six : DomainMigrationDescriptor :=
  ⟨6, "six.up.sql", hexDigest "", "search", 1, .native, [], []⟩

theorem wellFormed {d : DomainMigrationDescriptor} (hd : d ∈ [five, six]) : WellFormed d := by
  have hdigest : isSha256 (hexDigest "") = true := by
    obtain ⟨hlength, hall⟩ := hexDigest_canonical ""
    rw [isSha256, hlength, Bool.and_eq_true, List.all_eq_true]
    exact ⟨rfl, hall⟩
  rcases List.mem_cons.mp hd with rfl | hd
  · exact ⟨by decide, by decide, hdigest, by decide, by decide, by decide, by decide, by decide,
      by decide, by simp [five], by decide⟩
  · obtain rfl := List.mem_singleton.mp hd
    exact ⟨by decide, by decide, hdigest, by decide, by decide, by decide, by decide, by decide,
      by decide, by simp [six], by decide⟩

theorem accepted : Accepted pkg [five, six] := by
  refine ⟨by decide, fun d hd => wellFormed hd, ⟨by decide, by decide, by decide, by simp [five, six]⟩,
    ?_, by decide, by simp [KnownDependencies, five, six], ?_, ?_, ?_⟩
  · intro domain hdomain
    refine ⟨1, fun v => ?_⟩
    have hversions : versionsIn [five, six] domain = [1] := by
      have hone : domain = "reports" ∨ domain = "search" := by simpa [five, six] using hdomain
      rcases hone with rfl | rfl
      · decide
      · decide
    rw [hversions, List.mem_singleton]
    omega
  · -- Every dependency is the larger one.
    intro a hself
    have hup : ∀ x y, Relation.TransGen (DependsOn [five, six]) x y → x < y := by
      have hstep : ∀ x y, DependsOn [five, six] x y → x < y := by
        intro x y h
        obtain ⟨d, hd, rfl, hy⟩ := h
        rcases List.mem_cons.mp hd with rfl | hd
        · obtain rfl : y = 6 := by simpa [five] using hy
          decide
        · obtain rfl := List.mem_singleton.mp hd
          cases hy
      intro x y hxy
      induction hxy with
      | single h => exact hstep _ _ h
      | tail _ h ih => exact lt_trans ih (hstep _ _ h)
    exact lt_irrefl a (hup a a hself)
  · refine ⟨by decide, by decide, by decide, by decide, ?_⟩
    intro d hd
    rcases List.mem_cons.mp hd with rfl | hd
    · exact ⟨_, List.mem_cons_self, rfl, rfl, "", rfl, rfl⟩
    · obtain rfl := List.mem_singleton.mp hd
      exact ⟨_, List.mem_cons_of_mem _ List.mem_cons_self, rfl, rfl, "", rfl, rfl⟩
  · intro d _ trusted htrusted
    cases htrusted

theorem accepts : validateDomainMigrationRegistry pkg [five, six] = .ok (registryOf [five, six]) :=
  validateDomainMigrationRegistry_ok.mpr ⟨accepted, rfl⟩

end LaterDependency

/-- The first migration of a registry depends on the second, and no other. -/
theorem registry_prefixes_later :
    (ClosedPrefixes (registryOf [LaterDependency.five, LaterDependency.six]).descriptors ↔
      DependenciesEarlier (registryOf [LaterDependency.five, LaterDependency.six]).descriptors) :=
  (registry_prefixes _ _ _ LaterDependency.accepts).1

/-- **A registry may depend on a later migration**: its first prefix does not
hold the dependency. -/
theorem later_dependency : ¬ ∀ (pkg : Packaged) (ds : List DomainMigrationDescriptor)
    (reg : DomainMigrationRegistry), validateDomainMigrationRegistry pkg ds = .ok reg →
      ClosedPrefixes reg.descriptors ∧ ContinuousPrefixes reg.descriptors := by
  intro hall
  have hclosed := (hall _ _ _ LaterDependency.accepts).1 1
  have hfirst : ((registryOf [LaterDependency.five, LaterDependency.six]).descriptors.take 1) =
      [LaterDependency.five] := rfl
  rw [hfirst] at hclosed
  have := hclosed LaterDependency.five (by simp) 6 (by simp [LaterDependency.five])
  simp [LaterDependency.five] at this

end QuantumEntanglement.Migrations
