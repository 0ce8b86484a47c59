import QuantumEntanglement.ArtifactStore.Invariant

/-
  Lineages — the store's own checks pass on what its writes leave behind

  What is proved:
    1. `preflight_ok`, `stored_ok` — every version passes the checks before
       its content is fetched, and is then read.
    2. `checkLineage_ok` — rows in strict order whose versions each follow one
       that is there are a valid lineage.
    3. `filter_after` — the versions past a cursor are what is left of a
       numbered list when the cursor's many are dropped.
-/

namespace QuantumEntanglement.ArtifactStore

open Transaction TransitionSystem PyJson

variable {cfg : ArtifactStoreConfig} {db : ArtifactDb} {r : VersionRow}

/-! ## Reading one version -/

/-- The artifact of a version, if it reads. -/
def ArtifactDb.stored (db : ArtifactDb) (cfg : ArtifactStoreConfig) (r : VersionRow) :
    Option StoredArtifact :=
  (db.join r).bind fun j => (rowToArtifact cfg.py j).toOption

/-- What reading a version gives. -/
structure StoredAs (cfg : ArtifactStoreConfig) (db : ArtifactDb) (r : VersionRow) (b : BlobRow)
    (item : StoredArtifact) : Prop where
  blob : db.findBlob r.blobDigest = some b
  content : Content r b.content
  sized : b.byteSize = b.content.length
  limit : b.content.length ≤ cfg.maxContentBytes
  reads : ∀ py, rowToArtifact py ⟨r, b.content, b.byteSize⟩ = .ok item
  item : ∃ m, item = JoinedRow.artifact ⟨r, b.content, b.byteSize⟩ m
  row : ∃ m, RowOk r m

namespace StoredAs

variable {b : BlobRow} {item : StoredArtifact}

theorem join (h : StoredAs cfg db r b item) : db.join r = some ⟨r, b.content, b.byteSize⟩ := by
  rw [ArtifactDb.join, h.blob]
  rfl

theorem stored (h : StoredAs cfg db r b item) : db.stored cfg r = some item := by
  rw [ArtifactDb.stored, h.join, Option.bind_some, h.reads]
  rfl

theorem version (h : StoredAs cfg db r b item) : item.version = r.version := by
  obtain ⟨m, rfl⟩ := h.item
  rfl

theorem byteSize (h : StoredAs cfg db r b item) : item.byteSize = r.byteSize := by
  obtain ⟨m, rfl⟩ := h.item
  rfl

end StoredAs

/-- **Every version reads.** -/
theorem stored_ok (hi : StoreInv cfg db) (hr : r ∈ db.versions) :
    ∃ b item, StoredAs cfg db r b item := by
  obtain ⟨m, hm⟩ := hi.rows r hr
  obtain ⟨b, hb, hc⟩ := hi.stored r hr
  obtain ⟨-, hsize, hlimit⟩ := hi.blobs b (List.mem_of_find?_eq_some hb)
  exact ⟨b, _, hb, hc, hsize, hlimit, fun _ => rowToArtifact_ok hm hc hsize, ⟨m, rfl⟩, m, hm⟩

theorem asIntegrity_of_ok {α : Type} {message : String} {r : Except StoreError α} {a : α}
    (h : r = .ok a) : asIntegrity message r = .ok a := by
  rw [h]
  rfl

theorem persistedInteger_of {value minimum : Nat} (name : String) (h : minimum ≤ value)
    (h' : value ≤ maxSqliteInteger) : persistedIntegerFrom value name minimum = .ok value :=
  persistedIntegerFrom_ok.mpr ⟨⟨h, h'⟩, rfl⟩

/-- A version passes the checks of its sizes. -/
theorem preflight_ok {b : BlobRow} {item : StoredArtifact} (h : StoredAs cfg db r b item) :
    preflightBlobMetadata r (some b) = .ok (r.version, r.byteSize) := by
  obtain ⟨m, hm⟩ := h.row
  have hsize := h.content.size
  have hblob : b.byteSize = r.byteSize := h.sized.trans hsize.symm
  have hchecks : (do
      let _ ← persistedIntegerFrom r.version "version" 1
      let _ ← persistedIntegerFrom r.byteSize "byte_size" 0
      let _ ← persistedIntegerFrom b.byteSize "blob_byte_size" 0
      persistedIntegerFrom b.content.length "blob_content_length" 0 : Except StoreError Nat) =
      .ok r.byteSize := by
    simp only [except_bind_ok]
    refine ⟨_, persistedInteger_of _ hm.numbered.1 hm.numbered.2, _,
      persistedInteger_of _ (Nat.zero_le _) hm.sized, _,
      persistedInteger_of _ (Nat.zero_le _) (by rw [hblob]; exact hm.sized), ?_⟩
    rw [hsize]
    exact persistedInteger_of _ (Nat.zero_le _) (hsize ▸ hm.sized)
  rw [preflightBlobMetadata, asIntegrity_of_ok hchecks]
  show (if r.byteSize ≠ b.byteSize ∨ b.byteSize ≠ b.content.length then _ else _) = _
  rw [if_neg (not_or.mpr ⟨not_not.mpr hblob.symm, not_not.mpr h.sized⟩), hsize]

/-- A version passes the checks of its identity. -/
theorem preflightRecord_ok {b : BlobRow} {item : StoredArtifact} (hi : StoreInv cfg db)
    (h : StoredAs cfg db r b item) :
    ∃ identity, preflightRecordIdentity r (db.findBlob r.blobDigest) = .ok identity ∧
      identity.artifactId = r.artifactId ∧ identity.version = r.version ∧
      identity.blobDigest = r.blobDigest ∧ identity.contentLength = r.byteSize := by
  obtain ⟨m, hm⟩ := h.row
  have hdigest : b.digest = r.blobDigest := by
    simpa using List.find?_some h.blob
  have htext : requiredText r.blobDigest "blob_digest" 71 = .ok r.blobDigest := by
    rw [h.content.digest]
    exact requiredText_ok.mpr ⟨(contentDigest_canonical _).1, rfl⟩
  have hjoined : requiredText b.digest "joined_blob_digest" 71 = .ok b.digest := by
    rw [(hi.blobs b (List.mem_of_find?_eq_some h.blob)).1]
    exact requiredText_ok.mpr ⟨(contentDigest_canonical _).1, rfl⟩
  have hid : requiredText r.artifactId "artifact_id" maxIdentifierLength = .ok r.artifactId :=
    requiredText_ok.mpr ⟨hm.texts _ (by simp), rfl⟩
  refine ⟨⟨r.artifactId, r.version, r.blobDigest, r.byteSize⟩, ?_, rfl, rfl, rfl, rfl⟩
  rw [h.blob, preflightRecordIdentity, preflight_ok h]
  show (asIntegrity _ _ >>= fun _ => if b.digest ≠ r.blobDigest then _ else _) = _
  have hchecks : asIntegrity "artifact read identity violates its contract" (do
      let _ ← requiredText r.artifactId "artifact_id" maxIdentifierLength
      let _ ← requiredText r.blobDigest "blob_digest" 71
      requiredText b.digest "joined_blob_digest" 71) = .ok b.digest := by
    rw [hid, htext, hjoined]
    rfl
  rw [show ((some b).map (·.digest)).getD "" = b.digest from rfl, hchecks]
  show (if b.digest ≠ r.blobDigest then _ else _) = _
  rw [if_neg (not_not.mpr hdigest)]

/-- The versions an identity names are the one it was taken from. -/
theorem filter_id (hi : StoreInv cfg db) (hr : r ∈ db.versions) :
    (db.inScope r.scope).filter (fun r' => r'.artifactId = r.artifactId) = [r] := by
  have hscope : r ∈ db.inScope r.scope := mem_inScope.mpr ⟨hr, rfl⟩
  have hnodup : (db.inScope r.scope).Nodup :=
    (hi.ids.imp fun h e => h (congrArg VersionRow.artifactId e)).filter _
  have heq : (db.inScope r.scope).filter (fun r' => r'.artifactId = r.artifactId) =
      (db.inScope r.scope).filter (fun r' => r' == r) := by
    refine List.filter_congr fun r' hr' => ?_
    rw [Bool.eq_iff_iff]
    simp only [decide_eq_true_eq, beq_iff_eq]
    exact ⟨fun h => hi.id_inj (mem_inScope.mp hr').1 hr h, fun h => by rw [h]⟩
  rw [heq, List.filter_beq, List.count_eq_one_of_mem hnodup hscope]
  rfl

theorem selectRecord_ok {b : BlobRow} {item : StoredArtifact} (hi : StoreInv cfg db)
    (hr : r ∈ db.versions) (h : StoredAs cfg db r b item) :
    db.selectRecord r.scope r.artifactId = some ⟨r, b.content, b.byteSize⟩ := by
  rw [ArtifactDb.selectRecord, filter_id hi hr, List.filterMap_cons, h.join]
  rfl

/-- **A version that passed is fetched.** -/
theorem materialize_ok {b : BlobRow} {item : StoredArtifact} {identity : RecordIdentity}
    (hi : StoreInv cfg db) (hr : r ∈ db.versions) (h : StoredAs cfg db r b item)
    (hid : identity.artifactId = r.artifactId ∧ identity.version = r.version ∧
      identity.blobDigest = r.blobDigest ∧ identity.contentLength = r.byteSize) :
    materialize cfg db r.scope identity = .ok item := by
  obtain ⟨h₁, h₂, h₃, h₄⟩ := hid
  have hselect : selectMaterialized db r.scope identity = .ok ⟨r, b.content, b.byteSize⟩ := by
    have hrows : (db.inScope r.scope).filter (fun r' => r'.artifactId = identity.artifactId &&
        r'.version = identity.version && r'.blobDigest = identity.blobDigest) = [r] := by
      have hone := filter_id hi hr
      have hsplit : (fun r' : VersionRow => decide (r'.artifactId = identity.artifactId) &&
          decide (r'.version = identity.version) && decide (r'.blobDigest = identity.blobDigest)) =
          fun r' => (decide (r'.version = r.version) && decide (r'.blobDigest = r.blobDigest)) &&
            decide (r'.artifactId = r.artifactId) := by
        funext r'
        rw [h₁, h₂, h₃, Bool.and_assoc, Bool.and_comm]
      rw [hsplit, ← List.filter_filter, hone]
      simp
    rw [selectMaterialized, hrows, List.filterMap_cons, h.join]
    rfl
  have hread := h.reads cfg.py
  obtain ⟨m, hm⟩ := h.item
  rw [materialize, hselect]
  show (rowToArtifact cfg.py ⟨r, b.content, b.byteSize⟩ >>= _) = _
  rw [hread]
  show (if item.artifactId ≠ identity.artifactId ∨ item.version ≠ identity.version ∨
      item.digest ≠ identity.blobDigest ∨ item.byteSize ≠ identity.contentLength ∨
      item.content.length ≠ identity.contentLength then _ else _) = _
  rw [if_neg]
  rw [h₁, h₂, h₃, h₄, hm]
  simp only [JoinedRow.artifact, ne_eq, not_true_eq_false, false_or, not_not]
  exact h.content.size.symm

theorem withinContentLimit_ok {b : BlobRow} {item : StoredArtifact} (h : StoredAs cfg db r b item) :
    withinContentLimit cfg r.byteSize = .ok () := by
  rw [withinContentLimit, if_neg]
  have := h.limit
  rw [h.content.size]
  omega

/-! ## The order of a scope's rows -/

/-- The order of the rows of a scope, without ties. -/
def RowLt (a b : VersionRow) : Prop :=
  groupLt a.group b.group = true ∨ (a.group = b.group ∧ a.version < b.version)

theorem groupLt_irrefl (g : String × String) : groupLt g g = false := by
  simp [groupLt, keyLt_irrefl]

theorem groupLt_trans {a b c : String × String} (h : groupLt a b = true) (h' : groupLt b c = true) :
    groupLt a c = true := by
  simp only [groupLt, Bool.or_eq_true, Bool.and_eq_true, beq_iff_eq] at *
  rcases h with h | ⟨h, hs⟩ <;> rcases h' with h' | ⟨h', hs'⟩
  · exact .inl (keyLt_trans h h')
  · exact .inl (h' ▸ h)
  · exact .inl (h ▸ h')
  · exact .inr ⟨h.trans h', keyLt_trans hs hs'⟩

theorem groupLt_total {a b : String × String} (h : groupLt a b = false) :
    a = b ∨ groupLt b a = true := by
  simp only [groupLt, Bool.or_eq_false_iff, Bool.or_eq_true, Bool.and_eq_true, beq_iff_eq] at *
  obtain ⟨h₁, h₂⟩ := h
  rcases keyLt_total h₁ with he | hlt
  · simp only [he, beq_self_eq_true, Bool.true_and] at h₂
    rcases keyLt_total h₂ with he' | hlt'
    · exact .inl (Prod.ext he he')
    · exact .inr (.inr ⟨he.symm, hlt'⟩)
  · exact .inr (.inl hlt)

theorem rowLe_iff {a b : VersionRow} :
    rowLe a b = true ↔ groupLt a.group b.group = true ∨ (a.group = b.group ∧ a.version ≤ b.version) := by
  simp [rowLe]

theorem rowLe_total (a b : VersionRow) : rowLe a b = true ∨ rowLe b a = true := by
  rw [rowLe_iff, rowLe_iff]
  cases h : groupLt a.group b.group with
  | true => exact .inl (.inl rfl)
  | false =>
    rcases groupLt_total h with he | hlt
    · rcases Nat.le_total a.version b.version with hle | hle
      · exact .inl (.inr ⟨he, hle⟩)
      · exact .inr (.inr ⟨he.symm, hle⟩)
    · exact .inr (.inl hlt)

theorem rowLe_trans {a b c : VersionRow} (h : rowLe a b = true) (h' : rowLe b c = true) :
    rowLe a c = true := by
  rw [rowLe_iff] at *
  rcases h with h | ⟨h, hv⟩ <;> rcases h' with h' | ⟨h', hv'⟩
  · exact .inl (groupLt_trans h h')
  · exact .inl (h' ▸ h)
  · exact .inl (h ▸ h')
  · exact .inr ⟨h.trans h', Nat.le_trans hv hv'⟩

/-- The rows of a scope in order, if no two share group and version. -/
theorem orderByLineage_strict {rows : List VersionRow}
    (h : rows.Pairwise (fun a b => ¬(a.group = b.group ∧ a.version = b.version))) :
    (orderByLineage rows).Pairwise RowLt := by
  have htotal : Std.Total (fun a b : VersionRow => rowLe a b = true) := ⟨rowLe_total⟩
  have htrans : IsTrans VersionRow (fun a b => rowLe a b = true) := ⟨fun _ _ _ => rowLe_trans⟩
  have hsorted := List.pairwise_insertionSort (fun a b : VersionRow => rowLe a b = true) rows
  have hdistinct : (orderByLineage rows).Pairwise
      (fun a b => ¬(a.group = b.group ∧ a.version = b.version)) :=
    ((List.perm_insertionSort _ rows).pairwise_iff
      fun hab hba => hab ⟨hba.1.symm, hba.2.symm⟩).mpr h
  refine (hsorted.and hdistinct).imp fun {a b} hab => ?_
  rcases rowLe_iff.mp hab.1 with hlt | ⟨hg, hv⟩
  · exact .inl hlt
  · exact .inr ⟨hg, Nat.lt_of_le_of_ne hv fun e => hab.2 ⟨hg, e⟩⟩

/-- What the lineage check asks of one row by itself. -/
structure RowNumbered (r : VersionRow) : Prop where
  session : TextOk maxIdentifierLength r.sessionId
  name : TextOk maxIdentifierLength r.name
  numbered : 1 ≤ r.version ∧ r.version ≤ maxSqliteInteger
  parent : r.parentVersion = parentOf r.version

theorem RowOk.rowNumbered {m : Value} (h : RowOk r m) : RowNumbered r :=
  ⟨h.texts _ (by simp), h.texts _ (by simp), h.numbered, h.parent⟩

theorem checkLineage_fields {r : VersionRow} (h : RowNumbered r) :
    asIntegrity "artifact version lineage metadata violates its contract" (do
      let _ ← requiredText r.sessionId "session_id" maxIdentifierLength
      let _ ← requiredText r.name "name" maxIdentifierLength
      let _ ← persistedIntegerFrom r.version "version" 1
      persistedParent r.parentVersion) = .ok r.parentVersion := by
  apply asIntegrity_of_ok
  simp only [except_bind_ok]
  refine ⟨_, requiredText_ok.mpr ⟨h.session, rfl⟩, _, requiredText_ok.mpr ⟨h.name, rfl⟩, _,
    persistedInteger_of _ h.numbered.1 h.numbered.2, ?_⟩
  rw [h.parent]
  exact persistedParent_ok h.numbered.2

/-- **The lineage check passes** on rows in strict order, each of which is a
first version or follows one: the row before, or one still to come. -/
theorem checkLineage_ok : ∀ (rows : List VersionRow) (group : Option (String × String))
    (previous checked : Nat), rows.Pairwise RowLt → (∀ r ∈ rows, RowNumbered r) →
    (∀ r ∈ rows, r.version = 1 ∨ (group = some r.group ∧ r.version = previous + 1) ∨
      ∃ q ∈ rows, q.group = r.group ∧ q.version + 1 = r.version) →
    (∀ g, group = some g → ∀ r ∈ rows,
      groupLt g r.group = true ∨ (g = r.group ∧ previous < r.version)) →
    checkLineage group previous checked rows =
      .ok (checked + rows.length, (rows.map (·.version)).getLast?.getD
        (if group.isSome then previous else 0))
  | [], group, previous, checked, _, _, _, _ => rfl
  | r :: rest, group, previous, checked, hsorted, hrows, hfollows, hgroup => by
    obtain ⟨hfirst, hrest⟩ := List.pairwise_cons.mp hsorted
    have hr := hrows r List.mem_cons_self
    -- no later row is the one before `r`
    have hprevious : r.version = 1 ∨ (group = some r.group ∧ r.version = previous + 1) := by
      rcases hfollows r List.mem_cons_self with h | h | ⟨q, hq, hqg, hqv⟩
      · exact .inl h
      · exact .inr h
      · rcases List.mem_cons.mp hq with rfl | hq
        · omega
        · rcases hfirst q hq with hlt | ⟨-, hlt⟩
          · rw [hqg, groupLt_irrefl] at hlt
            exact absurd hlt (by simp)
          · omega
    have hnext : ∀ r' ∈ rest, r'.version = 1 ∨ (some r.group = some r'.group ∧
        r'.version = r.version + 1) ∨ ∃ q ∈ rest, q.group = r'.group ∧ q.version + 1 = r'.version := by
      intro r' hr'
      rcases hfollows r' (List.mem_cons_of_mem _ hr') with h | ⟨h, hv⟩ | ⟨q, hq, hqg, hqv⟩
      · exact .inl h
      · -- a row of the group before would come before `r`
        rcases hgroup _ h r List.mem_cons_self with hlt | ⟨hg, hlt⟩ <;>
          rcases hfirst r' hr' with hlt' | ⟨hg', hlt'⟩
        · exact absurd (groupLt_trans hlt hlt') (by simp [groupLt_irrefl])
        · rw [hg', groupLt_irrefl] at hlt
          exact absurd hlt (by simp)
        · rw [hg, groupLt_irrefl] at hlt'
          exact absurd hlt' (by simp)
        · omega
      · rcases List.mem_cons.mp hq with rfl | hq
        · exact .inr (.inl ⟨congrArg some hqg, hqv.symm⟩)
        · exact .inr (.inr ⟨q, hq, hqg, hqv⟩)
    have hafter : ∀ g, some r.group = some g → ∀ r' ∈ rest,
        groupLt g r'.group = true ∨ (g = r'.group ∧ r.version < r'.version) := by
      intro g hg r' hr'
      rw [← Option.some.inj hg]
      exact hfirst r' hr'
    have ih := checkLineage_ok rest (some r.group) r.version (checked + 1) hrest
      (fun r' hr' => hrows r' (List.mem_cons_of_mem _ hr')) hnext hafter
    have hend : ((r :: rest).map (·.version)).getLast?.getD (if group.isSome then previous else 0) =
        (rest.map (·.version)).getLast?.getD (if (some r.group).isSome then r.version else 0) := by
      simp [List.getLast?_cons]
    rw [hend, List.length_cons, Nat.add_comm rest.length 1, ← Nat.add_assoc, ← ih, checkLineage,
      checkLineage_fields hr]
    show (if group = some r.group then _ else _) = _
    by_cases hsame : group = some r.group
    · -- the next version of the group
      have hversion : r.version = previous + 1 := by
        rcases hprevious with h | ⟨-, h⟩
        · rcases hgroup _ hsame r List.mem_cons_self with hlt | ⟨-, hlt⟩
          · rw [groupLt_irrefl] at hlt
            exact absurd hlt (by simp)
          · omega
        · exact h
      rw [if_pos hsame, if_neg, hsame]
      rw [not_or, not_not, not_not]
      exact ⟨hversion, by rw [hr.parent, hversion]⟩
    · -- the first version of the next group
      have hversion : r.version = 1 := by
        rcases hprevious with h | ⟨h, -⟩
        · exact h
        · exact absurd h hsame
      have hlater : group.any (fun g => !groupLt g r.group) = false := by
        cases hg : group with
        | none => rfl
        | some g =>
          rcases hgroup g hg r List.mem_cons_self with hlt | ⟨heq, -⟩
          · simp [hlt]
          · exact absurd (hg.trans (congrArg some heq)) hsame
      rw [if_neg hsame, hlater, if_neg (by simp), if_neg]
      rw [not_or, not_not, not_not]
      exact ⟨hversion, by rw [hr.parent, hversion]; rfl⟩

/-! ## The rows of a run -/

section
variable (hi : StoreInv cfg db)
include hi

theorem version_mem (l : Lineage) (v : Nat) :
    (∃ r ∈ db.inLineage l, r.version = v) ↔ 1 ≤ v ∧ v ≤ (db.inLineage l).length := by
  rw [← List.mem_map, hi.lineages l, List.mem_range'_1]
  omega

theorem version_inj {a b : VersionRow} (ha : a ∈ db.versions) (hb : b ∈ db.versions)
    (hl : a.lineage = b.lineage) (hv : a.version = b.version) : a = b := by
  have hnodup : ((db.inLineage b.lineage).map (·.version)).Nodup := by
    rw [hi.lineages]
    exact List.nodup_range'
  exact List.inj_on_of_nodup_map hnodup (mem_inLineage.mpr ⟨ha, hl⟩) (mem_inLineage.mpr ⟨hb, rfl⟩) hv

/-- A version that is not the first has the one before it. -/
theorem follows (hr : r ∈ db.versions) :
    r.version = 1 ∨ ∃ q ∈ db.versions, q.lineage = r.lineage ∧ q.version + 1 = r.version := by
  have hrange := (version_mem hi r.lineage r.version).mp ⟨r, mem_inLineage.mpr ⟨hr, rfl⟩, rfl⟩
  by_cases hone : r.version = 1
  · exact .inl hone
  · obtain ⟨q, hq, hv⟩ := (version_mem hi r.lineage (r.version - 1)).mpr ⟨by omega, by omega⟩
    exact .inr ⟨q, (mem_inLineage.mp hq).1, (mem_inLineage.mp hq).2, by omega⟩

theorem rowNumbered (hr : r ∈ db.versions) : RowNumbered r := by
  obtain ⟨m, hm⟩ := hi.rows r hr
  exact hm.rowNumbered

/-- **The rows of a scope, or of a lineage, pass the lineage check.** -/
theorem validateLineage_ok {rows : List VersionRow} {s : Scope} (hsub : rows.Sublist db.versions)
    (hscope : ∀ r ∈ rows, r.scope = s)
    (hclosed : ∀ r ∈ rows, ∀ q ∈ db.versions, q.lineage = r.lineage → q ∈ rows) :
    validateVersionLineage (orderByLineage rows) =
      .ok (rows.length, ((orderByLineage rows).map (·.version)).getLast?.getD 0) := by
  have hlineage : ∀ {a b}, a ∈ rows → b ∈ rows → a.group = b.group → a.lineage = b.lineage := by
    intro a b ha hb hg
    obtain ⟨h₁, h₂⟩ := Prod.mk.inj hg
    simp only [VersionRow.lineage, hscope a ha, hscope b hb, h₁, h₂]
  have hmem : ∀ {r}, r ∈ orderByLineage rows ↔ r ∈ rows := (List.perm_insertionSort _ rows).mem_iff
  have hstrict : (orderByLineage rows).Pairwise RowLt := by
    refine orderByLineage_strict ((hi.ids.sublist hsub).imp_of_mem fun {a b} ha hb hid heq => hid ?_)
    rw [version_inj hi (hsub.subset ha) (hsub.subset hb) (hlineage ha hb heq.1) heq.2]
  refine (checkLineage_ok _ none 0 0 hstrict (fun r hr => ?_) (fun r hr => ?_) ?_).trans ?_
  · exact rowNumbered hi (hsub.subset (hmem.mp hr))
  · rcases follows hi (hsub.subset (hmem.mp hr)) with h | ⟨q, hq, hl, hv⟩
    · exact .inl h
    · refine .inr (.inr ⟨q, hmem.mpr (hclosed r (hmem.mp hr) q hq hl), ?_, hv⟩)
      simp only [VersionRow.lineage, Lineage.mk.injEq] at hl
      exact Prod.ext hl.2.1 hl.2.2
  · intro g hg
    exact absurd hg (by simp)
  · have hlength : (orderByLineage rows).length = rows.length :=
      (List.perm_insertionSort _ rows).length_eq
    rw [Nat.zero_add, hlength]
    rfl

theorem validateScope_ok (s : Scope) : ∃ last,
    validateVersionLineage (orderByLineage (db.inScope s)) = .ok ((db.inScope s).length, last) :=
  ⟨_, validateLineage_ok hi List.filter_sublist (fun _ hr => (mem_inScope.mp hr).2) fun _ hr _ hq hl =>
    mem_inScope.mpr ⟨hq, (congrArg Lineage.scope hl).trans (mem_inScope.mp hr).2⟩⟩

/-- The versions of a lineage are in order as they stand. -/
theorem inLineage_increasing (l : Lineage) :
    (db.inLineage l).Pairwise (fun a b => a.version < b.version) := by
  have h : ((db.inLineage l).map (·.version)).Pairwise (· < ·) := by
    rw [hi.lineages l]
    exact List.pairwise_lt_range'
  exact List.pairwise_map.mp h

theorem orderByLineage_inLineage (l : Lineage) :
    orderByLineage (db.inLineage l) = db.inLineage l := by
  refine List.Pairwise.insertionSort_eq ((inLineage_increasing hi l).imp_of_mem fun {a b} ha hb h => ?_)
  refine rowLe_iff.mpr (.inr ⟨?_, Nat.le_of_lt h⟩)
  have hl := (mem_inLineage.mp ha).2.trans (mem_inLineage.mp hb).2.symm
  exact congrArg (fun l : Lineage => (l.sessionId, l.name)) hl

/-- **The rows of a lineage pass the check**, which says how many they are. -/
theorem validateVersions_ok (l : Lineage) :
    validateVersionLineage (orderByLineage (db.inLineage l)) =
      .ok ((db.inLineage l).length, (db.inLineage l).length) := by
  have hvalid := @validateLineage_ok cfg db hi (db.inLineage l) l.scope
    (by rw [inLineage_eq]; exact List.filter_sublist)
    (fun r hr => congrArg Lineage.scope (mem_inLineage.mp hr).2)
    fun r hr q hq hl => mem_inLineage.mpr ⟨hq, hl.trans (mem_inLineage.mp hr).2⟩
  have hlast : ((db.inLineage l).map (·.version)).getLast?.getD 0 = (db.inLineage l).length := by
    rw [hi.lineages l]
    cases (db.inLineage l).length with
    | zero => rfl
    | succ n => simp [List.range'_concat, Nat.add_comm]
  rw [hvalid, orderByLineage_inLineage hi, hlast]

end

/-! ## What a cursor leaves -/

/-- The rows of a numbered list past a cursor. -/
theorem filter_after {rows : List VersionRow} {first n : Nat}
    (h : rows.map (·.version) = List.range' first n) (after : Nat) :
    rows.filter (fun r => after < r.version) = rows.drop (after + 1 - first) := by
  induction rows generalizing first n with
  | nil => simp
  | cons r rest ih =>
    cases n with
    | zero => simp at h
    | succ n =>
      rw [List.map_cons, List.range'_succ] at h
      obtain ⟨hr, hrest⟩ := List.cons.inj h
      have hstep := ih hrest
      by_cases hafter : after < r.version
      · have hzero : after + 1 - first = 0 := by omega
        have hzero' : after + 1 - (first + 1) = 0 := by omega
        rw [List.filter_cons_of_pos (by simpa using hafter), hstep, hzero, hzero']
        rfl
      · have hsucc : after + 1 - first = (after + 1 - (first + 1)) + 1 := by omega
        rw [List.filter_cons_of_neg (by simpa using hafter), hstep, hsucc, List.drop_succ_cons]

/-- A list in strictly ascending order, sorted the other way. -/
theorem insertionSort_reverse {α : Type} {r : α → α → Prop} [DecidableRel r] :
    ∀ {l : List α}, l.Pairwise (fun a b => ¬r a b) → l.insertionSort r = l.reverse
  | [], _ => rfl
  | a :: rest, h => by
    obtain ⟨hfirst, hrest⟩ := List.pairwise_cons.mp h
    have hlast : ∀ {l' : List α}, (∀ b ∈ l', ¬r a b) → l'.orderedInsert r a = l' ++ [a] := by
      intro l' hl'
      induction l' with
      | nil => rfl
      | cons b more ih =>
        rw [List.orderedInsert, if_neg (hl' b List.mem_cons_self),
          ih fun c hc => hl' c (List.mem_cons_of_mem _ hc)]
        rfl
    rw [List.insertionSort_cons, insertionSort_reverse hrest, List.reverse_cons,
      hlast fun b hb => hfirst b (List.mem_reverse.mp hb)]

end QuantumEntanglement.ArtifactStore
