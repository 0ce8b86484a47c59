import QuantumEntanglement.ArtifactStore.Store
import QuantumEntanglement.Lib.TransitionSystem
import QuantumEntanglement.Store.LogInvariant

/-
  The artifact store's invariant — what every run of writes keeps

  What is proved:
    1. `write_ok`, `write_error` — a write raised and left the database alone,
       or returned a record there was, or appended one version and its blob.
    2. `storeInv_write` — the invariant is kept by every write: every version
       reads, its blob is there with its bytes, identities and keys are
       distinct, and a lineage is numbered 1, 2, 3, … in the order of its rows.
    3. `run_storeInv`, `run_grows` — so it holds after every run, and a run
       only appends.
-/

namespace QuantumEntanglement.ArtifactStore

open Transaction TransitionSystem IsoTime

variable {cfg : ArtifactStoreConfig} {db db' : ArtifactDb} {spec : ArtifactWrite}
  {expectedHead : Option Int} {clock : String}

/-! ## What a write does -/

/-- The record a write returned was there, under the write's key and with its
fingerprint. -/
structure Replayed (cfg : ArtifactStoreConfig) (spec : ArtifactWrite) (p : Prepared)
    (db : ArtifactDb) (item : StoredArtifact) : Prop where
  found : ∃ row j, db.existingRows spec = [row] ∧ row.idempotencyKey = spec.idempotencyKey ∧
    row.requestDigest = p.requestDigest ∧ db.selectRecord spec.scope row.artifactId = some j ∧
    rowToArtifact cfg.py j = .ok item

/-- The database after the blob of a write was inserted. -/
def ArtifactDb.withBlob (db : ArtifactDb) (row : BlobRow) : ArtifactDb :=
  if (db.findBlob row.digest).isSome then db else { db with blobs := db.blobs ++ [row] }

/-- The write appended one version, and its blob if that was new. -/
structure Inserted (cfg : ArtifactStoreConfig) (spec : ArtifactWrite) (p : Prepared)
    (expectedHead : Option Int) (clock : String) (db db' : ArtifactDb) (item : StoredArtifact) :
    Prop where
  fresh : db.existingRows spec = []
  expected : ∀ e, expectedHead = some e → (db.headVersion spec.lineage : Int) = e
  stored : ∃ now b j, normalizeTimestamp cfg.py clock "clock" = .ok now ∧
    (db.withBlob ⟨p.digest, spec.content, spec.content.length, now⟩).findBlob p.digest = some b ∧
    b.content = spec.content ∧ b.byteSize = spec.content.length ∧
    db.headVersion spec.lineage + 1 ≤ maxSqliteInteger ∧
    (∀ r ∈ db.versions, r.artifactId ≠ spec.artifactId) ∧
    (∀ r ∈ db.versions, ¬(r.scope = spec.scope ∧ r.idempotencyKey = spec.idempotencyKey)) ∧
    db' = ⟨(db.withBlob ⟨p.digest, spec.content, spec.content.length, now⟩).blobs,
      db.versions ++ [spec.row p (db.headVersion spec.lineage) now]⟩ ∧
    db'.selectRecord spec.scope spec.artifactId = some j ∧ rowToArtifact cfg.py j = .ok item

theorem withBlob_versions (db : ArtifactDb) (row : BlobRow) :
    (db.withBlob row).versions = db.versions := by
  unfold ArtifactDb.withBlob
  split <;> rfl

theorem isFree_iff {α : Type} [DecidableEq α] {columns : VersionRow → α} {row : VersionRow} :
    isFree columns db row = true ↔ ∀ r ∈ db.versions, columns r ≠ columns row := by
  simp [isFree]

theorem checkExpectedHead_ok {u : Unit} :
    checkExpectedHead expectedHead = .ok u ↔ ∀ e, expectedHead = some e → 0 ≤ e := by
  unfold checkExpectedHead valueError
  cases expectedHead with
  | none => simp
  | some e =>
    simp only [Option.some.injEq, forall_eq']
    split
    next h => simp [Int.not_le.mpr h]
    next h => simp [Int.not_lt.mp h]

/-- **What a write did**, if it returned a record. -/
theorem write_ok {item : StoredArtifact}
    (h : write cfg spec expectedHead clock db = (.ok item, db')) :
    ∃ p, prepare cfg spec = .ok p ∧ (∀ e, expectedHead = some e → 0 ≤ e) ∧
      ((Replayed cfg spec p db item ∧ db' = db) ∨
        Inserted cfg spec p expectedHead clock db db' item) := by
  simp only [write, Txn.bind_ok, Txn.lift_ok, Txn.atomically_ok] at h
  obtain ⟨_, _, ⟨hhead, rfl⟩, p, _, ⟨hp, rfl⟩, h⟩ := h
  refine ⟨p, hp, checkExpectedHead_ok.mp hhead, ?_⟩
  simp only [writeBody, Txn.bind_ok, Txn.query_ok] at h
  obtain ⟨existing, _, ⟨hexisting, rfl⟩, h⟩ := h
  cases existing with
  | cons row rest =>
    simp only at h
    split at h
    · exact absurd h (by simp)
    next hsame =>
      simp only [not_or, not_not] at hsame
      obtain ⟨rfl, hkey, hdigest⟩ := hsame
      simp only [Txn.bind_ok, Txn.query_ok] at h
      obtain ⟨record, _, ⟨hrecord, rfl⟩, h⟩ := h
      cases record with
      | none => exact absurd h (by simp)
      | some j =>
        simp only [Txn.lift_ok] at h
        exact .inl ⟨⟨row, j, hexisting, hkey, hdigest, hrecord, h.1⟩, h.2.symm⟩
  | nil =>
    simp only [Txn.bind_ok, Txn.query_ok, Txn.ensure_ok, Txn.lift_ok, insertBlob, Txn.update_ok,
      checkBlob] at h
    obtain ⟨current, _, ⟨hcurrent, rfl⟩, _, _, ⟨hexpected, rfl⟩, now, _, ⟨hnow, rfl⟩, _, db₁, hblob,
      _, _, ⟨found, _, ⟨hfound, rfl⟩, hcheck⟩, _, db₂, hinsert, record, _, ⟨hrecord, rfl⟩, h⟩ := h
    subst hcurrent
    cases found with
    | none => exact absurd hcheck (by simp)
    | some b =>
      simp only [Txn.ensure_ok] at hcheck
      obtain ⟨⟨hcontent, hsize⟩, rfl⟩ := hcheck
      simp only [insertVersion, Txn.bind_ok, Txn.query_ok, Txn.ensure_ok, Txn.update_ok] at hinsert
      obtain ⟨_, _, ⟨hmax, rfl⟩, _, _, ⟨hid, rfl⟩, _, _, ⟨hidFree, rfl⟩, _, _, ⟨hversion, rfl⟩, _, _,
        ⟨hversionFree, rfl⟩, _, _, ⟨hkey, rfl⟩, _, _, ⟨hkeyFree, rfl⟩, hdb₂⟩ := hinsert
      cases record with
      | none => exact absurd h (by simp)
      | some j =>
        simp only [Txn.lift_ok] at h
        obtain ⟨hread, rfl⟩ := h
        have hwith : db.withBlob ⟨p.digest, spec.content, spec.content.length, now⟩ = db₁ := hblob
        subst hid hversion hkey
        rw [isFree_iff] at hidFree hkeyFree
        rw [← hwith, withBlob_versions] at hidFree hkeyFree
        refine .inr ⟨hexisting, hexpected, now, b, j, hnow, by rw [hwith]; exact hfound, hcontent,
          hsize, hmax, hidFree, fun r hr hsame => ?_, ?_, hrecord, hread⟩
        · exact hkeyFree r hr (Prod.ext hsame.1 hsame.2)
        · rw [← hdb₂, hwith, ← withBlob_versions db, hwith]

/-- **A write that raised changed nothing.** -/
theorem write_error {e : StoreError}
    (h : write cfg spec expectedHead clock db = (.error e, db')) : db' = db := by
  have hrestores : Txn.Restores (write cfg spec expectedHead clock) :=
    Txn.Restores.bind (Txn.reads_lift _) fun _ =>
      Txn.Restores.bind (Txn.reads_lift _) fun _ => Txn.Restores.atomically _
  exact hrestores db e db' h

/-! ## The invariant -/

structure StoreInv (cfg : ArtifactStoreConfig) (db : ArtifactDb) : Prop where
  rows : ∀ r ∈ db.versions, ∃ m, RowOk r m
  stored : ∀ r ∈ db.versions, ∃ b, db.findBlob r.blobDigest = some b ∧ Content r b.content
  blobs : ∀ b ∈ db.blobs, b.digest = contentDigest b.content ∧ b.byteSize = b.content.length ∧
    b.content.length ≤ cfg.maxContentBytes
  ids : db.versions.Pairwise (fun a b => a.artifactId ≠ b.artifactId)
  keys : db.versions.Pairwise
    (fun a b => ¬(a.scope = b.scope ∧ a.idempotencyKey = b.idempotencyKey))
  lineages : ∀ l, (db.inLineage l).map (·.version) = List.range' 1 (db.inLineage l).length

theorem storeInv_empty : StoreInv cfg .empty :=
  ⟨by simp [ArtifactDb.empty], by simp [ArtifactDb.empty], by simp [ArtifactDb.empty],
    List.Pairwise.nil, List.Pairwise.nil, fun _ => rfl⟩

/-- What a run does to the tables: rows are appended to each. -/
def Grows (db db' : ArtifactDb) : Prop :=
  (∃ new, db'.versions = db.versions ++ new) ∧ ∃ new, db'.blobs = db.blobs ++ new

theorem Grows.refl (db : ArtifactDb) : Grows db db := ⟨⟨[], by simp⟩, [], by simp⟩

theorem Grows.trans {db₁ db₂ : ArtifactDb} (h : Grows db db₁) (h' : Grows db₁ db₂) :
    Grows db db₂ := by
  obtain ⟨⟨v, hv⟩, b, hb⟩ := h
  obtain ⟨⟨v', hv'⟩, b', hb'⟩ := h'
  exact ⟨⟨v ++ v', by rw [hv', hv, List.append_assoc]⟩, b ++ b', by rw [hb', hb, List.append_assoc]⟩

theorem Grows.findBlob (h : Grows db db') {digest : String} {b : BlobRow}
    (hb : db.findBlob digest = some b) : db'.findBlob digest = some b := by
  obtain ⟨-, new, hnew⟩ := h
  simp only [ArtifactDb.findBlob] at hb ⊢
  rw [hnew, List.find?_append, hb]
  rfl

theorem withBlob_grows (db : ArtifactDb) (row : BlobRow) : Grows db (db.withBlob row) := by
  unfold ArtifactDb.withBlob
  split
  · exact Grows.refl db
  · exact ⟨⟨[], by simp⟩, [row], rfl⟩

theorem mem_withBlob {row b : BlobRow} (h : b ∈ (db.withBlob row).blobs) : b ∈ db.blobs ∨ b = row := by
  unfold ArtifactDb.withBlob at h
  split at h
  · exact .inl h
  · simpa using h

theorem mem_inScope {s : Scope} {r : VersionRow} :
    r ∈ db.inScope s ↔ r ∈ db.versions ∧ r.scope = s := by
  simp [ArtifactDb.inScope]

theorem inLineage_eq (db : ArtifactDb) (l : Lineage) :
    db.inLineage l = db.versions.filter (fun r => r.lineage = l) := by
  rw [ArtifactDb.inLineage, ArtifactDb.inScope, List.filter_filter]
  refine List.filter_congr fun r _ => ?_
  obtain ⟨s, sessionId, name⟩ := l
  simp only [VersionRow.lineage, Lineage.mk.injEq]
  by_cases h₁ : r.scope = s <;> by_cases h₂ : r.sessionId = sessionId <;> simp [h₁, h₂]

theorem mem_inLineage {l : Lineage} {r : VersionRow} :
    r ∈ db.inLineage l ↔ r ∈ db.versions ∧ r.lineage = l := by
  simp [inLineage_eq]

namespace StoreInv

/-- The head of a lineage is the number of its versions. -/
theorem headVersion_eq (hi : StoreInv cfg db) (l : Lineage) :
    db.headVersion l = (db.inLineage l).length :=
  maxOf_range' (hi.lineages l)

theorem id_inj (hi : StoreInv cfg db) {a b : VersionRow} (ha : a ∈ db.versions)
    (hb : b ∈ db.versions) (h : a.artifactId = b.artifactId) : a = b := by
  by_contra hne
  have : Std.Symm (fun a b : VersionRow => a.artifactId ≠ b.artifactId) := ⟨fun _ _ h => h.symm⟩
  exact hi.ids.forall ha hb hne h

theorem key_inj (hi : StoreInv cfg db) {a b : VersionRow} (ha : a ∈ db.versions)
    (hb : b ∈ db.versions) (h : a.scope = b.scope) (h' : a.idempotencyKey = b.idempotencyKey) :
    a = b := by
  by_contra hne
  have : Std.Symm (fun a b : VersionRow =>
      ¬(a.scope = b.scope ∧ a.idempotencyKey = b.idempotencyKey)) :=
    ⟨fun _ _ h hba => h ⟨hba.1.symm, hba.2.symm⟩⟩
  exact hi.keys.forall ha hb hne ⟨h, h'⟩

end StoreInv

/-! ## Every write keeps it -/

theorem prepare_ok {p : Prepared} (h : prepare cfg spec = .ok p) :
    spec.content.length ≤ cfg.maxContentBytes ∧ p.digest = contentDigest spec.content ∧
      ∃ m, MetadataOk p.metadataJson m ∧ p.requestDigest =
        requestDigest spec.tenantId spec.workspaceId spec.sessionId spec.taskId spec.name
          spec.mediaType p.digest spec.content.length m spec.createdBy := by
  simp only [prepare, tooLarge] at h
  split at h
  · exact absurd h (by simp)
  next hsize =>
    simp only [except_bind_ok] at h
    obtain ⟨⟨text, m⟩, hm, h⟩ := h
    simp only at h
    split at h
    · exact absurd h (by simp)
    · rw [← Except.ok.inj h]
      exact ⟨Nat.le_of_not_lt hsize, rfl, m, canonicalMetadata_ok hm, rfl⟩

/-- The row of a prepared write is as a read expects it. -/
theorem row_rowOk {p : Prepared} {current : Nat} {now : String} (hp : prepare cfg spec = .ok p)
    (hnow : normalizeTimestamp cfg.py clock "clock" = .ok now) (hmax : current + 1 ≤ maxSqliteInteger) :
    ∃ m, RowOk (spec.row p current now) m := by
  obtain ⟨-, -, m, hm, hdigest⟩ := prepare_ok hp
  refine ⟨m, spec.texts, spec.media, hm, hdigest.symm, spec.sized, ⟨by simp [ArtifactWrite.row], hmax⟩,
    ?_, normalizeTimestamp_ok hnow⟩
  show (if 0 < current then some current else none) = parentOf (current + 1)
  rw [parentOf]
  by_cases h : 0 < current
  · rw [if_pos h, if_pos (by omega), Nat.add_sub_cancel]
  · rw [if_neg h, if_neg (by omega)]

theorem inserted_grows {p : Prepared} {item : StoredArtifact}
    (h : Inserted cfg spec p expectedHead clock db db' item) : Grows db db' := by
  obtain ⟨now, b, j, -, -, -, -, -, -, -, rfl, -⟩ := h.stored
  exact ⟨⟨_, rfl⟩, (withBlob_grows db _).2⟩

/-- A write that inserted keeps the invariant. -/
theorem storeInv_inserted {p : Prepared} {item : StoredArtifact} (hi : StoreInv cfg db)
    (hp : prepare cfg spec = .ok p) (h : Inserted cfg spec p expectedHead clock db db' item) :
    StoreInv cfg db' := by
  have hgrows := inserted_grows h
  obtain ⟨now, b, j, hnow, hblob, hcontent, hsize, hmax, hid, hkey, rfl, -⟩ := h.stored
  obtain ⟨hlimit, hdigest, -⟩ := prepare_ok hp
  have hmem : ∀ {r}, r ∈ db.versions ++ [spec.row p (db.headVersion spec.lineage) now] ↔
      r ∈ db.versions ∨ r = spec.row p (db.headVersion spec.lineage) now := by simp
  refine ⟨fun r hr => ?_, fun r hr => ?_, fun b' hb' => ?_, ?_, ?_, fun l => ?_⟩
  · rcases hmem.mp hr with hr | rfl
    · exact hi.rows r hr
    · exact row_rowOk hp hnow hmax
  · rcases hmem.mp hr with hr | rfl
    · obtain ⟨b', hb', hc⟩ := hi.stored r hr
      exact ⟨b', hgrows.findBlob hb', hc⟩
    · exact ⟨b, hblob, by rw [hcontent]; exact hdigest, by rw [hcontent]; rfl⟩
  · rcases mem_withBlob hb' with hb' | rfl
    · exact hi.blobs b' hb'
    · exact ⟨hdigest, rfl, hlimit⟩
  · refine List.pairwise_append.mpr ⟨hi.ids, List.pairwise_singleton _ _, fun a ha r hr => ?_⟩
    rw [List.mem_singleton.mp hr]
    exact hid a ha
  · refine List.pairwise_append.mpr ⟨hi.keys, List.pairwise_singleton _ _, fun a ha r hr => ?_⟩
    rw [List.mem_singleton.mp hr]
    exact hkey a ha
  · have hsplit : ArtifactDb.inLineage ⟨(db.withBlob ⟨p.digest, spec.content, spec.content.length,
          now⟩).blobs, db.versions ++ [spec.row p (db.headVersion spec.lineage) now]⟩ l =
        db.inLineage l ++
          [spec.row p (db.headVersion spec.lineage) now].filter (fun r => r.lineage = l) := by
      rw [inLineage_eq, inLineage_eq, List.filter_append]
    rw [hsplit]
    by_cases hl : spec.lineage = l
    · -- the new row's version is one more than the lineage has
      have hrow : (spec.row p (db.headVersion spec.lineage) now).lineage = l := hl
      have hversion : (spec.row p (db.headVersion spec.lineage) now).version =
          (db.inLineage l).length + 1 := by
        rw [← hl, ← hi.headVersion_eq]
        rfl
      rw [List.filter_cons_of_pos (by simpa using hrow), List.filter_nil, List.map_append,
        hi.lineages l, List.length_append, List.length_singleton, List.range'_concat, List.map_singleton,
        hversion, Nat.one_mul, Nat.add_comm 1]
    · have hrow : (spec.row p (db.headVersion spec.lineage) now).lineage ≠ l := hl
      rw [List.filter_cons_of_neg (by simpa using hrow), List.filter_nil, List.append_nil]
      exact hi.lineages l

/-! ## Runs -/

/-- One call of `write`, and what the clock says when it is made. -/
structure WriteCall where
  spec : ArtifactWrite
  expectedHead : Option Int
  clock : String

/-- The store under writes: a step is one call and what it returned or raised. -/
def storeSystem (cfg : ArtifactStoreConfig) :
    System ArtifactDb (WriteCall × Except StoreError StoredArtifact) where
  start db := db = .empty
  step db label db' := write cfg label.1.spec label.1.expectedHead label.1.clock db = (label.2, db')

/-- **Every write keeps the invariant.** -/
theorem storeInv_write {result : Except StoreError StoredArtifact} (hi : StoreInv cfg db)
    (h : write cfg spec expectedHead clock db = (result, db')) : StoreInv cfg db' := by
  cases result with
  | error e =>
    rw [write_error h]
    exact hi
  | ok item =>
    obtain ⟨p, hp, -, ⟨-, rfl⟩ | hinserted⟩ := write_ok h
    · exact hi
    · exact storeInv_inserted hi hp hinserted

theorem step_storeInv {db : ArtifactDb} {label : WriteCall × Except StoreError StoredArtifact}
    (hi : StoreInv cfg db) (h : (storeSystem cfg).step db label db') : StoreInv cfg db' :=
  storeInv_write hi h

theorem write_grows {label : WriteCall × Except StoreError StoredArtifact}
    (h : (storeSystem cfg).step db label db') : Grows db db' := by
  obtain ⟨call, result⟩ := label
  cases result with
  | error e =>
    rw [write_error h]
    exact Grows.refl db
  | ok item =>
    obtain ⟨p, -, -, ⟨-, rfl⟩ | hinserted⟩ := write_ok h
    · exact Grows.refl _
    · exact inserted_grows hinserted

theorem run_storeInv {labels : List (WriteCall × Except StoreError StoredArtifact)}
    (h : Run (storeSystem cfg) db labels db') (hi : StoreInv cfg db) : StoreInv cfg db' :=
  h.invariant (fun _ _ _ => step_storeInv) hi

/-- **A run only appends.** -/
theorem run_grows {labels : List (WriteCall × Except StoreError StoredArtifact)}
    (h : Run (storeSystem cfg) db labels db') : Grows db db' :=
  h.relates Grows.refl (fun _ _ _ => Grows.trans) fun _ _ _ => write_grows

theorem reachable_storeInv (h : Reachable (storeSystem cfg) db) : StoreInv cfg db :=
  invariant_of_reachable (fun _ hstart => hstart ▸ storeInv_empty)
    (fun _ _ _ => step_storeInv) h

end QuantumEntanglement.ArtifactStore
