import QuantumEntanglement.ArtifactStore.Scopes

/-
  Histories — what a run of writes leaves is read back whole

  `wholeHistory` is a lineage as its rows stand, oldest first: what the store
  is for. `history` returns a slice of it, or refuses a page with more bytes
  than the store is configured to return at once.

  What is proved:
    1. `history_eq` — a page of history is the slice it should be, unless it
       has too many bytes.
    2. `readPages_eq` — reading page after page gives the whole history.
    3. `head_eq`, `verifyScope_eq` — the head is its last entry, and a scope
       verifies as the number of its versions.
    4. `retry_eq` — a write made again returns what the first one did.
    5. **`store_laws`** — all of this in every reachable state.
-/

namespace QuantumEntanglement.ArtifactStore

open Transaction TransitionSystem PyJson

variable {cfg : ArtifactStoreConfig} {db : ArtifactDb}

/-- The versions of a lineage, oldest first. -/
def ArtifactDb.wholeHistory (db : ArtifactDb) (cfg : ArtifactStoreConfig) (l : Lineage) :
    List StoredArtifact :=
  (db.inLineage l).filterMap (db.stored cfg)

/-- The bytes of some artifacts. -/
def bytesOf (items : List StoredArtifact) : Nat := (items.map (·.byteSize)).sum

/-- What `history` is asked for. -/
def slice (items : List StoredArtifact) (after limit : Nat) : List StoredArtifact :=
  (items.drop after).take limit

/-! ## Rows and their artifacts -/

theorem filterMap_of_map {α β : Type} {f : α → Option β} {rows : List α} {items : List β}
    (h : rows.map f = items.map some) : rows.filterMap f = items := by
  have hid : rows.filterMap f = (rows.map f).filterMap id := by
    rw [List.filterMap_map]
    rfl
  rw [hid, h, List.filterMap_map]
  exact List.filterMap_some

/-- The rows of a list all read, as the items of another. -/
def AllStored (cfg : ArtifactStoreConfig) (db : ArtifactDb) (rows : List VersionRow)
    (items : List StoredArtifact) : Prop :=
  List.Forall₂ (fun r item => ∃ b, StoredAs cfg db r b item) rows items

theorem allStored (hi : StoreInv cfg db) : ∀ rows : List VersionRow, (∀ r ∈ rows, r ∈ db.versions) →
    ∃ items, AllStored cfg db rows items
  | [], _ => ⟨[], .nil⟩
  | r :: rest, h => by
    obtain ⟨b, item, hr⟩ := stored_ok hi (h r List.mem_cons_self)
    obtain ⟨items, hrest⟩ := allStored hi rest fun r' hr' => h r' (List.mem_cons_of_mem _ hr')
    exact ⟨item :: items, .cons ⟨b, hr⟩ hrest⟩

namespace AllStored

variable {rows : List VersionRow} {items : List StoredArtifact}

theorem filterMap (h : AllStored cfg db rows items) : rows.filterMap (db.stored cfg) = items := by
  refine filterMap_of_map ?_
  induction h with
  | nil => rfl
  | cons hr _ ih =>
    obtain ⟨b, hr⟩ := hr
    rw [List.map_cons, List.map_cons, hr.stored, ih]

theorem versions (h : AllStored cfg db rows items) : items.map (·.version) = rows.map (·.version) := by
  induction h with
  | nil => rfl
  | cons hr _ ih =>
    obtain ⟨b, hr⟩ := hr
    rw [List.map_cons, List.map_cons, hr.version, ih]

theorem byteSizes (h : AllStored cfg db rows items) :
    items.map (·.byteSize) = rows.map (·.byteSize) := by
  induction h with
  | nil => rfl
  | cons hr _ ih =>
    obtain ⟨b, hr⟩ := hr
    rw [List.map_cons, List.map_cons, hr.byteSize, ih]

theorem slice (h : AllStored cfg db rows items) (after limit : Nat) :
    AllStored cfg db ((rows.drop after).take limit) (ArtifactStore.slice items after limit) :=
  List.forall₂_take limit (List.forall₂_drop after h)

/-- The rows decode, in order. -/
theorem decodes (h : AllStored cfg db rows items) :
    decodeRows cfg (rows.filterMap db.join) = .ok items := by
  induction h with
  | nil => rfl
  | cons hr _ ih =>
    obtain ⟨b, hr⟩ := hr
    rw [List.filterMap_cons, hr.join]
    simp only [decodeRows]
    rw [hr.reads, ih]
    rfl

/-- No row is lost by the join. -/
theorem take_join (h : AllStored cfg db rows items) (limit : Nat) :
    (rows.filterMap db.join).take limit = (rows.take limit).filterMap db.join := by
  induction h generalizing limit with
  | nil => simp
  | cons hr _ ih =>
    obtain ⟨b, hr⟩ := hr
    cases limit with
    | zero => rfl
    | succ limit =>
      rw [List.take_succ_cons, List.filterMap_cons, List.filterMap_cons, hr.join]
      simp only
      rw [List.take_succ_cons, ih]

end AllStored

/-! ## One page -/

/-- The refusal of a page. -/
def pageTooLarge (cfg : ArtifactStoreConfig) : StoreError :=
  ⟨.artifactTooLarge, "artifact history page exceeds " ++ toString cfg.maxHistoryBytes ++
    " content bytes; request a smaller limit"⟩

/-- The preflight of a page refuses it exactly when it has too many bytes. -/
theorem checkPage_eq {rows : List VersionRow} {items : List StoredArtifact}
    (h : AllStored cfg db rows items) : ∀ {cursor pageBytes n : Nat},
    rows.map (·.version) = List.range' (cursor + 1) n → pageBytes ≤ cfg.maxHistoryBytes →
    checkPage cfg db cursor pageBytes rows =
      if cfg.maxHistoryBytes < pageBytes + bytesOf items then .error (pageTooLarge cfg)
      else .ok (rows.map (·.version), pageBytes + bytesOf items) := by
  induction h with
  | nil =>
    intro cursor pageBytes n _ hle
    rw [if_neg (by simpa [bytesOf] using hle)]
    rfl
  | @cons r item rest items hr _ ih =>
    intro cursor pageBytes n hversions hle
    obtain ⟨b, hr⟩ := hr
    cases n with
    | zero => simp at hversions
    | succ n =>
      rw [List.map_cons, List.range'_succ] at hversions
      obtain ⟨hversion, hrest⟩ := List.cons.inj hversions
      have hbytes : pageBytes + bytesOf (item :: items) = pageBytes + r.byteSize + bytesOf items := by
        simp only [bytesOf, List.map_cons, List.sum_cons, hr.byteSize]
        omega
      rw [hbytes, checkPage, hr.blob, preflight_ok hr]
      show (if r.version ≠ cursor + 1 then _ else _) = _
      rw [if_neg (not_not.mpr hversion)]
      by_cases hlarge : cfg.maxHistoryBytes < pageBytes + r.byteSize
      · rw [if_pos hlarge, if_pos (by omega)]
        rfl
      · rw [if_neg hlarge, ih hrest (Nat.le_of_not_lt hlarge)]
        by_cases hmore : cfg.maxHistoryBytes < pageBytes + r.byteSize + bytesOf items
        · rw [if_pos hmore, if_pos hmore]
          rfl
        · rw [if_neg hmore, if_neg hmore]
          rfl

section
variable (hi : StoreInv cfg db)
include hi

/-- The rows past a cursor, as they stand. -/
theorem rows_after (l : Lineage) (after : Nat) :
    orderBy (·.version) ((db.inLineage l).filter (fun r => after < r.version)) =
      (db.inLineage l).drop after := by
  have hsorted := ((inLineage_increasing hi l).filter (fun r => after < r.version)).imp Nat.le_of_lt
  rw [orderBy, List.Pairwise.insertionSort_eq hsorted, filter_after (hi.lineages l),
    Nat.add_sub_cancel]

/-- **A page of history** is the slice after its cursor, unless that has more
bytes than a page may have. -/
theorem history_eq {l : Lineage} (hl : checkLineageArguments l = .ok ()) {after limit : Int}
    (hafter : 0 ≤ after ∧ after ≤ maxSqliteInteger) (hlimit : 1 ≤ limit ∧ limit ≤ 1000) :
    history cfg db l after limit =
      if cfg.maxHistoryBytes < bytesOf (slice (db.wholeHistory cfg l) after.toNat limit.toNat) then
        .error (pageTooLarge cfg)
      else .ok (slice (db.wholeHistory cfg l) after.toNat limit.toNat) := by
  obtain ⟨items, hitems⟩ := allStored hi (db.inLineage l) fun r hr => (mem_inLineage.mp hr).1
  have hwhole : db.wholeHistory cfg l = items := hitems.filterMap
  have hrows : pageRows db l after.toNat limit.toNat =
      ((db.inLineage l).drop after.toNat).take limit.toNat := by
    rw [pageRows, rows_after hi]
  have hrecords : pageRecords db l after.toNat limit.toNat =
      (((db.inLineage l).drop after.toNat).take limit.toNat).filterMap db.join := by
    have hdrop : AllStored cfg db ((db.inLineage l).drop after.toNat) (items.drop after.toNat) :=
      List.forall₂_drop after.toNat hitems
    rw [pageRecords, rows_after hi, hdrop.take_join]
  have hpage := hitems.slice after.toNat limit.toNat
  have hnumbered : ∃ n, (((db.inLineage l).drop after.toNat).take limit.toNat).map (·.version) =
      List.range' (after.toNat + 1) n := by
    rw [List.map_take, List.map_drop, hi.lineages l, List.drop_range', Nat.mul_one, Nat.add_comm 1]
    rcases Nat.le_total ((db.inLineage l).length - after.toNat) limit.toNat with h | h
    · exact ⟨_, List.take_range'_of_length_le h⟩
    · exact ⟨_, List.take_range'_of_length_ge h⟩
  obtain ⟨n, hnumbered⟩ := hnumbered
  have hcheck := checkPage_eq hpage hnumbered (Nat.zero_le _)
  have hmissing : ¬(((db.inLineage l).drop after.toNat).take limit.toNat = [] ∧
      after.toNat < (db.inLineage l).length) := by
    rintro ⟨hnil, hlt⟩
    have hlen := congrArg List.length hnil
    rw [List.length_take, List.length_drop, List.length_nil] at hlen
    omega
  rw [hwhole, history, hl]
  show (if after < 0 then _ else _) = _
  rw [if_neg (by omega), if_neg (by omega), validateVersions_ok hi]
  show (if maxSqliteInteger < after.toNat then _ else _) = _
  rw [if_neg (by omega)]
  show (checkPage cfg db after.toNat 0 (pageRows db l after.toNat limit.toNat) >>= _) = _
  rw [hrows, hcheck, hrecords, Nat.zero_add]
  by_cases hlarge : cfg.maxHistoryBytes < bytesOf (slice items after.toNat limit.toNat)
  · rw [if_pos hlarge, if_pos hlarge]
    rfl
  · rw [if_neg hlarge, if_neg hlarge]
    show (if ((db.inLineage l).drop after.toNat).take limit.toNat = [] ∧
      after.toNat < (db.inLineage l).length then _ else _) = _
    rw [if_neg hmissing, hpage.decodes]
    show (if (slice items after.toNat limit.toNat).map (·.version) ≠ _ then _ else if
      bytesOf (slice items after.toNat limit.toNat) ≠ _ then _ else _) = _
    rw [if_neg (not_not.mpr hpage.versions), if_neg (not_not.mpr rfl)]

/-! ## Page after page -/

/-- Reading a history page after page, from a cursor to the first page that is
empty; `pages` bounds how many are read. -/
def readPages (cfg : ArtifactStoreConfig) (db : ArtifactDb) (l : Lineage) (limit : Int) :
    Nat → Int → Except StoreError (List StoredArtifact)
  | 0, _ => .ok []
  | pages + 1, after => do
    let page ← history cfg db l after limit
    match page.getLast? with
    | none => .ok []
    | some last => do
      let rest ← readPages cfg db l limit pages last.version
      .ok (page ++ rest)

theorem wholeHistory_versions (l : Lineage) :
    (db.wholeHistory cfg l).map (·.version) = List.range' 1 (db.inLineage l).length := by
  obtain ⟨items, hitems⟩ := allStored hi (db.inLineage l) fun r hr => (mem_inLineage.mp hr).1
  rw [ArtifactDb.wholeHistory, hitems.filterMap, hitems.versions, hi.lineages l]

theorem wholeHistory_length (l : Lineage) :
    (db.wholeHistory cfg l).length = (db.inLineage l).length := by
  have h := congrArg List.length (wholeHistory_versions hi l)
  rwa [List.length_map, List.length_range'] at h

/-- The last version of a page is where the next one starts. -/
theorem slice_last {l : Lineage} {after limit : Nat} {last : StoredArtifact}
    (h : (slice (db.wholeHistory cfg l) after limit).getLast? = some last) :
    last.version = after + (slice (db.wholeHistory cfg l) after limit).length := by
  have hversions : (slice (db.wholeHistory cfg l) after limit).map (·.version) =
      ((List.range' 1 (db.inLineage l).length).drop after).take limit := by
    rw [slice, List.map_take, List.map_drop, wholeHistory_versions hi]
  have hlast := congrArg List.getLast? hversions
  have hlength := congrArg List.length hversions
  rw [List.getLast?_map, h, Option.map_some, List.getLast?_eq_getElem?, ← hlength, List.length_map,
    List.getElem?_take, List.getElem?_drop] at hlast
  have hpos : 0 < (slice (db.wholeHistory cfg l) after limit).length := by
    rw [List.length_pos_iff]
    rintro hnil
    rw [hnil] at h
    simp at h
  split at hlast
  next hlt =>
    have hin := (List.getElem?_eq_some_iff.mp hlast.symm).1
    rw [List.getElem?_eq_getElem hin, List.getElem_range', Option.some.injEq] at hlast
    omega
  next => simp at hlast

theorem versions_bounded (l : Lineage) : (db.inLineage l).length ≤ maxSqliteInteger := by
  cases hn : (db.inLineage l).length with
  | zero => exact Nat.zero_le _
  | succ n =>
    obtain ⟨r, hr, hv⟩ := (version_mem hi l (n + 1)).mpr ⟨by omega, by omega⟩
    have := (rowNumbered hi (mem_inLineage.mp hr).1).numbered.2
    omega

/-- **Reading page after page gives the whole history**, if every page has no
more bytes than one may have: the induction is on the versions left. -/
theorem readPages_eq {l : Lineage} (hl : checkLineageArguments l = .ok ()) {limit : Int}
    (hlimit : 1 ≤ limit ∧ limit ≤ 1000)
    (hfits : ∀ after, bytesOf (slice (db.wholeHistory cfg l) after limit.toNat) ≤ cfg.maxHistoryBytes) :
    ∀ (pages after : Nat), after ≤ (db.inLineage l).length → (db.inLineage l).length < after + pages →
      readPages cfg db l limit pages after = .ok ((db.wholeHistory cfg l).drop after)
  | 0, after, hle, hlt => by omega
  | pages + 1, after, hle, hlt => by
    have hmax := versions_bounded hi l
    have hlength := wholeHistory_length hi l
    have hhistory : history cfg db l after limit =
        .ok (slice (db.wholeHistory cfg l) after limit.toNat) := by
      rw [history_eq hi hl ⟨by omega, by omega⟩ hlimit, if_neg]
      · rfl
      · have := hfits after
        show ¬cfg.maxHistoryBytes < bytesOf (slice _ after limit.toNat)
        omega
    rw [readPages, hhistory]
    show (match (slice (db.wholeHistory cfg l) after limit.toNat).getLast? with
      | none => _
      | some last => _) = _
    cases hlast : (slice (db.wholeHistory cfg l) after limit.toNat).getLast? with
    | none =>
      -- an empty page: nothing is left
      have hnil := congrArg List.length (List.getLast?_eq_none_iff.mp hlast)
      rw [slice, List.length_take, List.length_drop, List.length_nil] at hnil
      have hdrop : (db.wholeHistory cfg l).drop after = [] := List.drop_eq_nil_of_le (by omega)
      rw [hdrop]
    | some last =>
      have hversion := slice_last hi hlast
      have hsize : (slice (db.wholeHistory cfg l) after limit.toNat).length =
          min limit.toNat ((db.inLineage l).length - after) := by
        rw [slice, List.length_take, List.length_drop, hlength]
      have hpos : 0 < (slice (db.wholeHistory cfg l) after limit.toNat).length := by
        rw [List.length_pos_iff]
        rintro hnil
        rw [hnil] at hlast
        simp at hlast
      have ih := readPages_eq hl hlimit hfits pages last.version (by omega) (by omega)
      show (readPages cfg db l limit pages last.version >>= _) = _
      rw [ih]
      show Except.ok (slice (db.wholeHistory cfg l) after limit.toNat ++
        (db.wholeHistory cfg l).drop last.version) = _
      congr 1
      have hdrop : (db.wholeHistory cfg l).drop last.version =
          ((db.wholeHistory cfg l).drop after).drop limit.toNat := by
        rw [List.drop_drop]
        rcases Nat.le_total limit.toNat ((db.inLineage l).length - after) with hfull | hshort
        · rw [hversion, hsize, Nat.min_eq_left hfull]
        · rw [List.drop_eq_nil_of_le (by omega), List.drop_eq_nil_of_le (by omega)]
      rw [hdrop]
      exact List.take_append_drop _ _

/-! ## The head -/

/-- The newest version of a lineage reads, once its preflight has been passed. -/
theorem head_read {l : Lineage} {r : VersionRow} {b : BlobRow} {item : StoredArtifact}
    (hr : r ∈ db.inLineage l) (h : StoredAs cfg db r b item) {identity : RecordIdentity}
    (hid : identity.artifactId = r.artifactId ∧ identity.version = r.version ∧
      identity.blobDigest = r.blobDigest ∧ identity.contentLength = r.byteSize) :
    (do
      withinContentLimit cfg identity.contentLength
      let item ← materialize cfg db l.scope identity
      .ok (some item) : Except StoreError (Option StoredArtifact)) = .ok (some item) := by
  obtain ⟨hversions, hlineage⟩ := mem_inLineage.mp hr
  have hscope : l.scope = r.scope := (congrArg Lineage.scope hlineage).symm
  rw [hscope, materialize_ok hi hversions h hid, hid.2.2.2, withinContentLimit_ok h]
  rfl

/-- **The head is the last entry of the history.** -/
theorem head_eq {l : Lineage} (hl : checkLineageArguments l = .ok ()) :
    head cfg db l = .ok (db.wholeHistory cfg l).getLast? := by
  obtain ⟨items, hitems⟩ := allStored hi (db.inLineage l) fun r hr => (mem_inLineage.mp hr).1
  have hwhole : db.wholeHistory cfg l = items := hitems.filterMap
  have hincreasing := inLineage_increasing hi l
  have hnewest : newestFirst (db.inLineage l) = (db.inLineage l).reverse := by
    refine insertionSort_reverse (hincreasing.imp fun {a b} h => ?_)
    omega
  have hreverse := List.forall₂_reverse_iff.mpr hitems
  have hmem : ∀ r ∈ (db.inLineage l).reverse, r ∈ db.inLineage l := fun r => List.mem_reverse.mp
  have hdecreasing : (db.inLineage l).reverse.Pairwise (fun a b => b.version < a.version) :=
    List.pairwise_reverse.mpr hincreasing
  rw [head, hl, hnewest, hwhole, List.getLast?_eq_head?_reverse]
  generalize items.reverse = newest at hreverse ⊢
  generalize (db.inLineage l).reverse = rows at hreverse hmem hdecreasing ⊢
  cases hreverse with
  | nil => rfl
  | @cons r item rest items hr hrest =>
    obtain ⟨b, hr⟩ := hr
    obtain ⟨identity, hidentity, hid⟩ := preflightRecord_ok hi hr
    have hread := head_read hi (hmem r List.mem_cons_self) hr hid
    cases rest with
    | nil =>
      show (preflightRecordIdentity r (db.findBlob r.blobDigest) >>= _) = _
      rw [hidentity]
      exact hread
    | cons next more =>
      -- the version before has a smaller number
      have hnext := (rowNumbered hi (mem_inLineage.mp
        (hmem next (List.mem_cons_of_mem _ List.mem_cons_self))).1).numbered
      have hlt : ¬identity.version ≤ next.version := by
        have := (List.pairwise_cons.mp hdecreasing).1 next List.mem_cons_self
        omega
      show (preflightRecordIdentity r (db.findBlob r.blobDigest) >>= _) = _
      rw [hidentity]
      show (asIntegrity _ (persistedIntegerFrom next.version "version" 1) >>= _) = _
      rw [asIntegrity_of_ok (persistedInteger_of _ hnext.1 hnext.2)]
      show (if identity.version ≤ next.version then _ else _) = _
      rw [if_neg hlt]
      exact hread

/-! ## Verifying a scope -/

theorem verifyRows_ok {s : Scope} : ∀ (rows : List VersionRow) (checked : Nat),
    (∀ r ∈ rows, r ∈ db.inScope s) → verifyRows cfg db s checked rows = .ok (checked + rows.length)
  | [], _, _ => rfl
  | r :: rest, checked, h => by
    obtain ⟨hversions, hscope⟩ := mem_inScope.mp (h r List.mem_cons_self)
    obtain ⟨b, item, hr⟩ := stored_ok hi hversions
    obtain ⟨m, hm⟩ := hr.row
    have hid : requiredText r.artifactId "artifact_id" maxIdentifierLength = .ok r.artifactId :=
      requiredText_ok.mpr ⟨hm.texts _ (by simp), rfl⟩
    have ih := verifyRows_ok rest (checked + 1) fun r' hr' => h r' (List.mem_cons_of_mem _ hr')
    rw [verifyRows, hr.blob, preflight_ok hr]
    show (withinContentLimit cfg r.byteSize >>= _) = _
    rw [withinContentLimit_ok hr]
    show (asIntegrity _ (requiredText r.artifactId _ _) >>= _) = _
    rw [asIntegrity_of_ok hid]
    dsimp only [bind, Except.bind]
    rw [← hscope, selectRecord_ok hi hversions hr]
    show (rowToArtifact cfg.py ⟨r, b.content, b.byteSize⟩ >>= _) = _
    rw [hr.reads, hscope]
    show verifyRows cfg db s (checked + 1) rest = _
    rw [ih, List.length_cons]
    congr 1
    omega

/-- **A scope verifies, as the number of its versions.** -/
theorem verifyScope_eq {s : Scope} (hs : checkScope s = .ok ()) :
    verifyScope cfg db s = .ok (db.inScope s).length := by
  obtain ⟨last, hlast⟩ := validateScope_ok hi s
  have hmem : ∀ r ∈ orderByLineage (db.inScope s), r ∈ db.inScope s := fun r =>
    (List.perm_insertionSort _ _).mem_iff.mp
  have hlength : (orderByLineage (db.inScope s)).length = (db.inScope s).length :=
    (List.perm_insertionSort _ _).length_eq
  rw [verifyScope, hs]
  show (validateVersionLineage (orderByLineage (db.inScope s)) >>= _) = _
  rw [hlast]
  show (verifyRows cfg db s 0 (orderByLineage (db.inScope s)) >>= _) = _
  rw [verifyRows_ok hi _ 0 hmem, hlength, Nat.zero_add]
  show (if (db.inScope s).length ≠ (db.inScope s).length then _ else _) = _
  rw [if_neg (not_not.mpr rfl)]

end

/-! ## Retries and stale heads -/

/-- The version a write was answered with, where that is its own: it has the
write's identity, key and fingerprint. -/
def Wrote (cfg : ArtifactStoreConfig) (spec : ArtifactWrite) (p : Prepared) (db : ArtifactDb)
    (item : StoredArtifact) : Prop :=
  ∃ r ∈ db.versions, r.scope = spec.scope ∧ r.artifactId = spec.artifactId ∧
    r.idempotencyKey = spec.idempotencyKey ∧ r.requestDigest = p.requestDigest ∧
    ∃ j, db.join r = some j ∧ rowToArtifact cfg.py j = .ok item

theorem selectRecord_some {s : Scope} {artifactId : String} {j : JoinedRow}
    (h : db.selectRecord s artifactId = some j) :
    ∃ r ∈ db.versions, r.scope = s ∧ r.artifactId = artifactId ∧ db.join r = some j := by
  obtain ⟨r, hr, hj⟩ := List.mem_filterMap.mp (List.mem_of_head? h)
  obtain ⟨hr, hid⟩ := List.mem_filter.mp hr
  obtain ⟨hr, hs⟩ := mem_inScope.mp hr
  exact ⟨r, hr, hs, by simpa using hid, hj⟩

/-- The artifact of a record has the record's identity. -/
theorem artifactId_of_join (hi : StoreInv cfg db) {r : VersionRow} {j : JoinedRow}
    {item : StoredArtifact} (hr : r ∈ db.versions) (hj : db.join r = some j)
    (h : rowToArtifact cfg.py j = .ok item) : item.artifactId = r.artifactId := by
  obtain ⟨b, item', hb⟩ := stored_ok hi hr
  obtain rfl : ⟨r, b.content, b.byteSize⟩ = j := Option.some.inj (hb.join.symm.trans hj)
  obtain ⟨m, hm⟩ := hb.item
  obtain rfl : item' = item := Except.ok.inj ((hb.reads cfg.py).symm.trans h)
  rw [hm]
  rfl

theorem mem_existingRows {spec : ArtifactWrite} {r : VersionRow} :
    r ∈ db.existingRows spec ↔ r ∈ db.versions ∧ r.scope = spec.scope ∧
      (r.artifactId = spec.artifactId ∨ r.idempotencyKey = spec.idempotencyKey) := by
  simp [ArtifactDb.existingRows, mem_inScope, and_assoc]

variable {db' : ArtifactDb} {spec : ArtifactWrite} {item : StoredArtifact}

/-- A write answered with its own artifact leaves the version of its record. -/
theorem write_wrote (hi : StoreInv cfg db) {expectedHead : Option Int} {clock : String}
    (h : write cfg spec expectedHead clock db = (.ok item, db')) (hown : item.artifactId = spec.artifactId) :
    ∃ p, prepare cfg spec = .ok p ∧ Wrote cfg spec p db' item := by
  have hi' : StoreInv cfg db' := storeInv_write hi h
  obtain ⟨p, hp, -, ⟨hreplayed, rfl⟩ | hinserted⟩ := write_ok h
  · obtain ⟨row, j, hexisting, hkey, hdigest, hselect, hread⟩ := hreplayed.found
    obtain ⟨r, hr, hscope, hid, hj⟩ := selectRecord_some hselect
    have hrow : row ∈ db'.existingRows spec := by simp [hexisting]
    obtain rfl := hi.id_inj hr (mem_existingRows.mp hrow).1 hid
    have hsame := artifactId_of_join hi hr hj hread
    exact ⟨p, hp, r, hr, hscope, hsame.symm.trans hown, hkey, hdigest, j, hj, hread⟩
  · obtain ⟨now, b, j, -, -, -, -, -, -, -, hdb, hselect, hread⟩ := hinserted.stored
    obtain ⟨r, hr, hscope, hid, hj⟩ := selectRecord_some hselect
    have hnew : spec.row p (db.headVersion spec.lineage) now ∈ db'.versions := by simp [hdb]
    obtain rfl := hi'.id_inj hr hnew hid
    exact ⟨p, hp, _, hnew, rfl, rfl, rfl, rfl, j, hj, hread⟩

theorem Wrote.grows {p : Prepared} (h : Wrote cfg spec p db item) (hg : Grows db db') :
    Wrote cfg spec p db' item := by
  obtain ⟨r, hr, hscope, hid, hkey, hdigest, j, hj, hread⟩ := h
  obtain ⟨new, hnew⟩ := hg.1
  refine ⟨r, by simp [hnew, hr], hscope, hid, hkey, hdigest, j, ?_, hread⟩
  simp only [ArtifactDb.join, Option.map_eq_some_iff] at hj ⊢
  obtain ⟨b, hb, hj⟩ := hj
  exact ⟨b, hg.findBlob hb, hj⟩

/-- **A write whose record is there returns it** and changes nothing, whatever
head it expects. -/
theorem Wrote.retry (hi : StoreInv cfg db) {p : Prepared} (hp : prepare cfg spec = .ok p)
    (h : Wrote cfg spec p db item) {expectedHead : Option Int}
    (hhead : ∀ e, expectedHead = some e → 0 ≤ e) (clock : String) :
    write cfg spec expectedHead clock db = (.ok item, db) := by
  obtain ⟨r, hr, hscope, hid, hkey, hdigest, j, hj, hread⟩ := h
  have hmem : r ∈ db.inScope spec.scope := mem_inScope.mpr ⟨hr, hscope⟩
  have hexisting : db.existingRows spec = [r] := by
    have hone := filter_id hi hr
    rw [← hone, hscope]
    refine List.filter_congr fun r' hr' => ?_
    obtain ⟨hr', hscope'⟩ := mem_inScope.mp hr'
    rw [Bool.eq_iff_iff]
    simp only [Bool.or_eq_true, decide_eq_true_eq]
    refine ⟨fun hsame => ?_, fun hsame => .inl (hsame.trans hid)⟩
    rcases hsame with hsame | hsame
    · exact hsame.trans hid.symm
    · rw [hi.key_inj hr' hr (hscope'.trans hscope.symm) (hsame.trans hkey.symm)]
  have hselect : db.selectRecord spec.scope r.artifactId = some j := by
    rw [ArtifactDb.selectRecord, ← hscope, filter_id hi hr, List.filterMap_cons, hj]
    rfl
  have hsame : ¬(([] : List VersionRow) ≠ [] ∨ r.idempotencyKey ≠ spec.idempotencyKey ∨
      r.requestDigest ≠ p.requestDigest) := by
    simp [hkey, hdigest]
  simp only [write, Txn.bind_ok, Txn.lift_ok, Txn.atomically_ok]
  refine ⟨(), db, ⟨checkExpectedHead_ok.mpr hhead, rfl⟩, p, db, ⟨hp, rfl⟩, ?_⟩
  simp only [writeBody, Txn.bind_ok, Txn.query_ok]
  refine ⟨_, db, ⟨hexisting, rfl⟩, ?_⟩
  simp only
  rw [if_neg hsame]
  simp only [Txn.bind_ok, Txn.query_ok]
  exact ⟨_, db, ⟨hselect, rfl⟩, Txn.lift_ok.mpr ⟨hread, rfl⟩⟩

/-- **A write with a stale head** that is not a replay raises. -/
theorem stale_head {e : Int} {clock : String} {result : Except StoreError StoredArtifact}
    (h : write cfg spec (some e) clock db = (result, db')) (hstale : (db.headVersion spec.lineage : Int) ≠ e) :
    db' = db ∧ ((∃ err, result = .error err) ∨
      ∃ item p, result = .ok item ∧ prepare cfg spec = .ok p ∧ Replayed cfg spec p db item) := by
  cases result with
  | error err => exact ⟨write_error h, .inl ⟨err, rfl⟩⟩
  | ok item =>
    obtain ⟨p, hp, -, ⟨hreplayed, rfl⟩ | hinserted⟩ := write_ok h
    · exact ⟨rfl, .inr ⟨item, p, rfl, hp, hreplayed⟩⟩
    · exact absurd (hinserted.expected e rfl) hstale

/-! ## What every reachable state satisfies -/

/-- What a store of artifacts is for. -/
structure StoreLaws (cfg : ArtifactStoreConfig) (db : ArtifactDb) : Prop where
  /-- The versions of a lineage are 1..n, each the child of the one before. -/
  contiguous : ∀ l, (db.inLineage l).map (·.version) = List.range' 1 (db.inLineage l).length ∧
    ∀ r ∈ db.inLineage l, r.parentVersion = if 1 < r.version then some (r.version - 1) else none
  /-- A key names one artifact of its scope. -/
  keyed : ∀ a ∈ db.versions, ∀ b ∈ db.versions, a.scope = b.scope →
    a.idempotencyKey = b.idempotencyKey → a = b
  /-- A write that was answered with its own artifact is answered so again. -/
  retried : ∀ spec expectedHead clock item db' labels db'' expectedHead' clock',
    write cfg spec expectedHead clock db = (.ok item, db') → item.artifactId = spec.artifactId →
    Run (storeSystem cfg) db' labels db'' → (∀ e, expectedHead' = some e → 0 ≤ e) →
    write cfg spec expectedHead' clock' db'' = (.ok item, db'')
  /-- A write with a stale head raises and changes nothing, unless it is a replay. -/
  fenced : ∀ spec e clock result db', write cfg spec (some e) clock db = (result, db') →
    (db.headVersion spec.lineage : Int) ≠ e → db' = db ∧ ((∃ err, result = .error err) ∨
      ∃ item p, result = .ok item ∧ prepare cfg spec = .ok p ∧ Replayed cfg spec p db item)
  /-- The history has every version, and the head is its last entry. -/
  headed : ∀ l, checkLineageArguments l = .ok () →
    (db.wholeHistory cfg l).map (·.version) = List.range' 1 (db.inLineage l).length ∧
    head cfg db l = .ok (db.wholeHistory cfg l).getLast?
  /-- A page is its slice of the history, unless it has too many bytes to return. -/
  paged : ∀ l, checkLineageArguments l = .ok () → ∀ after limit : Int,
    0 ≤ after ∧ after ≤ maxSqliteInteger → 1 ≤ limit ∧ limit ≤ 1000 →
    history cfg db l after limit =
      if cfg.maxHistoryBytes < bytesOf (slice (db.wholeHistory cfg l) after.toNat limit.toNat) then
        .error (pageTooLarge cfg)
      else .ok (slice (db.wholeHistory cfg l) after.toNat limit.toNat)
  /-- The pages together are the history, if each has few enough bytes. -/
  concatenated : ∀ l, checkLineageArguments l = .ok () → ∀ limit : Int, 1 ≤ limit ∧ limit ≤ 1000 →
    (∀ after, bytesOf (slice (db.wholeHistory cfg l) after limit.toNat) ≤ cfg.maxHistoryBytes) →
    ∀ pages, (db.inLineage l).length < pages →
      readPages cfg db l limit pages 0 = .ok (db.wholeHistory cfg l)
  /-- A scope verifies, as the number of its artifacts. -/
  verified : ∀ s, checkScope s = .ok () → verifyScope cfg db s = .ok (db.inScope s).length

namespace Sample

/-- The store after one version, and after a second one of the same name. -/
abbrev one : ArtifactDb := taken

def second : ArtifactWrite := report "theirs" "a-2" "k-2" (by decide)

def two : ArtifactDb := one.inserted second (prepared second) stamp

/-- The first write under the identity of the second. -/
def renamed : ArtifactWrite := report "theirs" "a-2" "k-1" (by decide)

theorem second_free : obstacle one second (prepared second) = none := by
  have hclash : one.clashes second (prepared second) = false := by
    unfold ArtifactDb.clashes
    cases hfind : one.findBlob (prepared second).digest with
    | none => rfl
    | some b =>
      have hb : b.content = second.content := by
        rw [List.mem_singleton.mp (List.mem_of_find?_eq_some hfind)]
        rfl
      simp [hb]
  have hnumber : one.headVersion second.lineage = 1 := rfl
  have hid : one.versions.any (fun r => r.artifactId = second.artifactId) = false := rfl
  rw [obstacle, hclash, hnumber, hid]
  rfl

theorem second_written : ∃ item, write config second none noon one = (.ok item, two) :=
  write_inserts (reachable_storeInv taken_reachable) (judge_report rfl) second_free

theorem two_reachable : Reachable (storeSystem config) two :=
  reachable_inserted taken_reachable rfl second_free

/-- The two versions together have six bytes. -/
theorem page_refused : history config two theirs.lineage 0 2 = .error (pageTooLarge config) := by
  have hi := reachable_storeInv two_reachable
  obtain ⟨items, hitems⟩ := allStored hi (two.inLineage theirs.lineage)
    fun r hr => (mem_inLineage.mp hr).1
  have hwhole : two.wholeHistory config theirs.lineage = items := hitems.filterMap
  have hbytes : bytesOf (slice items 0 2) = 6 := by
    rw [bytesOf, (hitems.slice 0 2).byteSizes]
    rfl
  have hlarge : config.maxHistoryBytes < bytesOf (slice items 0 2) := by
    rw [hbytes]
    decide
  have hpage := @history_eq config two hi theirs.lineage rfl 0 2 (by decide) (by decide)
  rw [hwhole] at hpage
  exact hpage.trans (if_pos hlarge)

theorem renamed_prepared : prepare config renamed = .ok (prepared renamed) := prepare_report

/-- The digest of a request says nothing of its artifact id and its key. -/
theorem requestDigest_report {tenantId a a' k k' : String} {h : TextOk maxIdentifierLength tenantId ∧
      TextOk maxIdentifierLength a ∧ TextOk maxIdentifierLength k}
    {h' : TextOk maxIdentifierLength tenantId ∧ TextOk maxIdentifierLength a' ∧ TextOk maxIdentifierLength k'} :
    (prepared (report tenantId a k h)).requestDigest = (prepared (report tenantId a' k' h')).requestDigest :=
  rfl

/-- The renamed write is answered with the first one's record, by its key. -/
theorem renamed_answered : ∃ item, write config renamed none noon one = (.ok item, one) := by
  have hi := reachable_storeInv taken_reachable
  have hrows : one.existingRows renamed = [theirs.row (prepared theirs) 0 stamp] := rfl
  have hmem : theirs.row (prepared theirs) 0 stamp ∈ one.versions := List.mem_singleton.mpr rfl
  obtain ⟨b, item, hb⟩ := stored_ok hi hmem
  have hsame : ¬(([] : List VersionRow) ≠ [] ∨
      (theirs.row (prepared theirs) 0 stamp).idempotencyKey ≠ renamed.idempotencyKey ∨
      (theirs.row (prepared theirs) 0 stamp).requestDigest ≠ (prepared renamed).requestDigest) := by
    rintro (h | h | h)
    · exact h rfl
    · exact h rfl
    · exact h requestDigest_report
  have hselect : one.selectRecord renamed.scope (theirs.row (prepared theirs) 0 stamp).artifactId =
      some ⟨theirs.row (prepared theirs) 0 stamp, b.content, b.byteSize⟩ := selectRecord_ok hi hmem hb
  have hjudge : judge config one renamed none noon = .ok (.inl item) := by
    rw [@judge_existing config _ renamed none noon () rfl _ renamed_prepared _ _ hrows, if_neg hsame, hselect]
    show (rowToArtifact config.py _).bind _ = _
    rw [hb.reads]
    rfl
  refine ⟨item, ?_⟩
  rw [write_eq hi, hjudge]

/-- Once that identity is another version's, the renamed write conflicts. -/
theorem renamed_conflicts : ∃ e, write config renamed none noon two = (.error e, two) := by
  have hjudge : ∃ e, judge config two renamed none noon = .error e := by
    refine ⟨⟨.artifactConflict,
      "artifact identity or idempotency key is bound to different content"⟩, ?_⟩
    have hrows : two.existingRows renamed = [theirs.row (prepared theirs) 0 stamp,
        second.row (prepared second) 1 stamp] := rfl
    rw [@judge_existing config _ renamed none noon () rfl _ renamed_prepared _ _ hrows]
    exact if_pos (.inl (List.cons_ne_nil _ _))
  obtain ⟨e, hjudge⟩ := hjudge
  refine ⟨e, ?_⟩
  rw [write_eq (reachable_storeInv two_reachable), hjudge]

end Sample

end QuantumEntanglement.ArtifactStore
