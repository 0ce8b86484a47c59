import QuantumEntanglement.ArtifactStore.Lineage

/-
  Scopes — what one tenant's calls can learn of another's

  A call in a scope reads the versions of that scope and their blobs. What a
  write decides before it inserts, `judge`, depends on them alone; what can
  stop the insertion, `obstacle`, does not: an artifact id is unique over all
  scopes, and a blob is shared by all that hold the same bytes.

  What is proved:
    1. `write_eq` — a write is what it decides, then the insertion or what
       stops it.
    2. `Agree` congruences — every read, and `judge`, gives the same in two
       databases that agree on the scope.
    3. **`noninterference_iff`** — so does every call, and it leaves them in
       agreement, exactly when the two databases do not stop an insertion
       differently.
-/

namespace QuantumEntanglement.ArtifactStore

open Transaction TransitionSystem PyJson

variable {cfg : ArtifactStoreConfig} {db db₁ db₂ : ArtifactDb} {spec : ArtifactWrite}
  {expectedHead : Option Int} {clock : String}

/-! ## A write in two halves -/

/-- What a write decides before it inserts: an error, a replay, or what to
insert and when. -/
def judge (cfg : ArtifactStoreConfig) (db : ArtifactDb) (spec : ArtifactWrite)
    (expectedHead : Option Int) (clock : String) :
    Except StoreError (StoredArtifact ⊕ (Prepared × String)) := do
  checkExpectedHead expectedHead
  let p ← prepare cfg spec
  match db.existingRows spec with
  | row :: rest =>
    if rest ≠ [] ∨ row.idempotencyKey ≠ spec.idempotencyKey ∨ row.requestDigest ≠ p.requestDigest then
      .error ⟨.artifactConflict,
        "artifact identity or idempotency key is bound to different content"⟩
    else
      match db.selectRecord spec.scope row.artifactId with
      | none => .error ⟨.artifactIntegrity, "idempotent artifact record has no blob"⟩
      | some existing => do
        let item ← rowToArtifact cfg.py existing
        .ok (.inl item)
  | [] =>
    if ∀ e, expectedHead = some e → (db.headVersion spec.lineage : Int) = e then do
      let now ← normalizeTimestamp cfg.py clock "clock"
      .ok (.inr (p, now))
    else .error (staleHead (expectedHead.getD 0) (db.headVersion spec.lineage))

/-- The digest names other bytes. -/
def ArtifactDb.clashes (db : ArtifactDb) (spec : ArtifactWrite) (p : Prepared) : Bool :=
  (db.findBlob p.digest).any (fun b => b.content ≠ spec.content)

/-- What stops an insertion: other bytes under the digest, a version number
too large, or the artifact id in any scope. -/
def obstacle (db : ArtifactDb) (spec : ArtifactWrite) (p : Prepared) : Option StoreError :=
  if db.clashes spec p then
    some ⟨.artifactIntegrity, "existing content-addressed blob is corrupted"⟩
  else if maxSqliteInteger < db.headVersion spec.lineage + 1 then
    some ⟨.overflowError, "Python int too large to convert to SQLite INTEGER"⟩
  else if db.versions.any (fun r => r.artifactId = spec.artifactId) then
    some ⟨.sqliteIntegrity, "UNIQUE constraint failed: artifact_versions.artifact_id"⟩
  else none

/-- The database after an insertion. -/
def ArtifactDb.inserted (db : ArtifactDb) (spec : ArtifactWrite) (p : Prepared) (now : String) :
    ArtifactDb :=
  ⟨(db.withBlob ⟨p.digest, spec.content, spec.content.length, now⟩).blobs,
    db.versions ++ [spec.row p (db.headVersion spec.lineage) now]⟩

theorem findBlob_withBlob (row : BlobRow) :
    (db.withBlob row).findBlob row.digest = some ((db.findBlob row.digest).getD row) := by
  unfold ArtifactDb.withBlob
  cases h : db.findBlob row.digest with
  | none =>
    have hnew : ArtifactDb.findBlob { db with blobs := db.blobs ++ [row] } row.digest = some row := by
      simp only [ArtifactDb.findBlob] at h ⊢
      rw [List.find?_append, h]
      simp
    simpa using hnew
  | some b => simpa using h

/-- The blob of a write is accepted unless its digest names other bytes. -/
theorem checkBlob_eq (hi : StoreInv cfg db) {p : Prepared} {now : String} :
    checkBlob p.digest spec.content
        (db.withBlob ⟨p.digest, spec.content, spec.content.length, now⟩) =
      (if db.clashes spec p then
          .error ⟨.artifactIntegrity, "existing content-addressed blob is corrupted"⟩ else .ok (),
        db.withBlob ⟨p.digest, spec.content, spec.content.length, now⟩) := by
  have hfind := @findBlob_withBlob db ⟨p.digest, spec.content, spec.content.length, now⟩
  simp only at hfind
  simp only [checkBlob, Bind.bind, Txn.query, hfind, Txn.ensure]
  have haccepted : (((db.findBlob p.digest).getD ⟨p.digest, spec.content, spec.content.length,
      now⟩).content = spec.content ∧ ((db.findBlob p.digest).getD ⟨p.digest, spec.content,
      spec.content.length, now⟩).byteSize = spec.content.length) ↔ db.clashes spec p = false := by
    rw [ArtifactDb.clashes]
    cases h : db.findBlob p.digest with
    | none => simp
    | some b =>
      have hsize := (hi.blobs b (List.mem_of_find?_eq_some h)).2.1
      simp only [Option.getD_some, Option.any_some, decide_eq_false_iff_not, not_not, hsize,
        and_iff_left_iff_imp]
      intro hsame
      rw [hsame]
  cases hclash : db.clashes spec p with
  | true =>
    rw [if_neg (by rw [haccepted, hclash]; simp)]
    rfl
  | false =>
    rw [if_pos (haccepted.mpr hclash)]
    rfl

/-- The version of a write is inserted unless its number is too large or its
artifact id is taken: no version has its number, and none its key. -/
theorem insertVersion_eq (hi : StoreInv cfg db) {p : Prepared} {now : String}
    (hfresh : db.existingRows spec = []) {db' : ArtifactDb} (hversions : db'.versions = db.versions) :
    insertVersion (spec.row p (db.headVersion spec.lineage) now) db' =
      if maxSqliteInteger < db.headVersion spec.lineage + 1 then
        (.error ⟨.overflowError, "Python int too large to convert to SQLite INTEGER"⟩, db')
      else if db.versions.any (fun r => r.artifactId = spec.artifactId) then
        (.error ⟨.sqliteIntegrity, "UNIQUE constraint failed: artifact_versions.artifact_id"⟩, db')
      else (.ok (), ⟨db'.blobs, db.versions ++ [spec.row p (db.headVersion spec.lineage) now]⟩) := by
  have hversion : isFree (fun r => (r.lineage, r.version)) db'
      (spec.row p (db.headVersion spec.lineage) now) = true := by
    refine isFree_iff.mpr fun r hr heq => ?_
    obtain ⟨hl, hv⟩ := Prod.mk.inj heq
    have hl : r.lineage = spec.lineage := hl
    have hv : r.version = db.headVersion spec.lineage + 1 := hv
    have hrange := (version_mem hi spec.lineage r.version).mp
      ⟨r, mem_inLineage.mpr ⟨hversions ▸ hr, hl⟩, rfl⟩
    rw [hi.headVersion_eq] at hv
    omega
  have hkey : isFree (fun r => (r.scope, r.idempotencyKey)) db'
      (spec.row p (db.headVersion spec.lineage) now) = true := by
    refine isFree_iff.mpr fun r hr heq => ?_
    obtain ⟨hs, hk⟩ := Prod.mk.inj heq
    have hmem : r ∈ db.existingRows spec := by
      simp only [ArtifactDb.existingRows, List.mem_filter, mem_inScope, Bool.or_eq_true,
        decide_eq_true_eq]
      exact ⟨⟨hversions ▸ hr, hs⟩, .inr hk⟩
    rw [hfresh] at hmem
    simp at hmem
  have hid : isFree (·.artifactId) db' (spec.row p (db.headVersion spec.lineage) now) =
      !db.versions.any (fun r => r.artifactId = spec.artifactId) := by
    rw [isFree, hversions]
    rfl
  have hnumber : (spec.row p (db.headVersion spec.lineage) now).version =
      db.headVersion spec.lineage + 1 := rfl
  simp only [insertVersion, bind, Txn.query, Txn.update, hnumber]
  by_cases hmax : maxSqliteInteger < db.headVersion spec.lineage + 1
  · rw [if_pos hmax]
    simp [Txn.ensure, Txn.raise, Nat.not_le.mpr hmax]
  · rw [if_neg hmax]
    cases htaken : db.versions.any (fun r => decide (r.artifactId = spec.artifactId)) with
    | true =>
      rw [htaken] at hid
      simp [Txn.ensure, Txn.raise, pure, Nat.le_of_not_lt hmax, hid]
    | false =>
      rw [htaken] at hid
      simp [Txn.ensure, pure, Nat.le_of_not_lt hmax, hid, hversion, hkey, hversions]

theorem obstacle_none {p : Prepared} (h : obstacle db spec p = none) :
    db.clashes spec p = false ∧ db.headVersion spec.lineage + 1 ≤ maxSqliteInteger ∧
      ∀ r ∈ db.versions, r.artifactId ≠ spec.artifactId := by
  unfold obstacle at h
  split at h
  · simp at h
  next hclash =>
    split at h
    · simp at h
    next hmax =>
      split at h
      · simp at h
      next htaken =>
        refine ⟨by simpa using hclash, Nat.le_of_not_lt hmax, fun r hr heq => htaken ?_⟩
        exact List.any_eq_true.mpr ⟨r, hr, by simpa using heq⟩

/-- The blob of an inserted version has its bytes. -/
theorem inserted_blob (hi : StoreInv cfg db) {p : Prepared} {now : String}
    (hclash : db.clashes spec p = false) :
    ∃ b, (db.inserted spec p now).findBlob p.digest = some b ∧ b.digest = p.digest ∧
      b.content = spec.content ∧ b.byteSize = spec.content.length := by
  refine ⟨_, findBlob_withBlob ⟨p.digest, spec.content, spec.content.length, now⟩, ?_⟩
  simp only [ArtifactDb.clashes] at hclash
  cases h : db.findBlob p.digest with
  | none => exact ⟨rfl, rfl, rfl⟩
  | some b =>
    have hdigest : b.digest = p.digest := by simpa using List.find?_some h
    have hcontent : b.content = spec.content := by simpa [h] using hclash
    refine ⟨hdigest, hcontent, ?_⟩
    rw [Option.getD_some, (hi.blobs b (List.mem_of_find?_eq_some h)).2.1, hcontent]

/-- The inserted version is selected. -/
theorem inserted_selected (hi : StoreInv cfg db) {p : Prepared} {now : String}
    (hfree : obstacle db spec p = none) :
    (db.inserted spec p now).selectRecord spec.scope spec.artifactId =
      some ⟨spec.row p (db.headVersion spec.lineage) now, spec.content, spec.content.length⟩ := by
  obtain ⟨hclash, -, hid⟩ := obstacle_none hfree
  obtain ⟨b, hb, -, hcontent, hsize⟩ := @inserted_blob cfg db spec hi p now hclash
  have hjoin : (db.inserted spec p now).join (spec.row p (db.headVersion spec.lineage) now) =
      some ⟨spec.row p (db.headVersion spec.lineage) now, spec.content, spec.content.length⟩ := by
    show ((db.inserted spec p now).findBlob p.digest).map _ = _
    rw [hb, Option.map_some, hcontent, hsize]
  have hold : (db.versions.filter (fun r => r.scope = spec.scope)).filter
      (fun r => r.artifactId = spec.artifactId) = [] := by
    refine List.filter_eq_nil_iff.mpr fun r hr heq => hid r (List.mem_of_mem_filter hr) ?_
    simpa using heq
  have hrows : ((db.inserted spec p now).inScope spec.scope).filter
      (fun r => r.artifactId = spec.artifactId) = [spec.row p (db.headVersion spec.lineage) now] := by
    rw [ArtifactDb.inScope, ArtifactDb.inserted]
    simp only
    rw [List.filter_append, List.filter_append, hold, List.nil_append]
    simp [VersionRow.scope, ArtifactWrite.scope, ArtifactWrite.row]
  rw [ArtifactDb.selectRecord, hrows, List.filterMap_cons, hjoin]
  rfl

/-- The inserted version is read back. -/
theorem inserted_reads {p : Prepared} {now : String}
    (hp : prepare cfg spec = .ok p) (hnow : normalizeTimestamp cfg.py clock "clock" = .ok now)
    (hfree : obstacle db spec p = none) :
    ∃ item, rowToArtifact cfg.py ⟨spec.row p (db.headVersion spec.lineage) now, spec.content,
      spec.content.length⟩ = .ok item := by
  obtain ⟨-, hmax, -⟩ := obstacle_none hfree
  obtain ⟨m, hm⟩ := row_rowOk hp hnow hmax
  obtain ⟨-, hdigest, -⟩ := prepare_ok hp
  exact ⟨_, rowToArtifact_ok hm ⟨hdigest, rfl⟩ rfl⟩

theorem query_bind {α β : Type} (f : ArtifactDb → α) (g : α → ArtifactTxn β) :
    (Txn.query f >>= g) db = g (f db) db := rfl

/-- The transaction of a write that inserts, or is stopped. -/
theorem insertion_eq (hi : StoreInv cfg db) {p : Prepared} {now : String}
    (hp : prepare cfg spec = .ok p) (hfresh : db.existingRows spec = [])
    (hexpected : ∀ e, expectedHead = some e → (db.headVersion spec.lineage : Int) = e)
    (hnow : normalizeTimestamp cfg.py clock "clock" = .ok now) :
    Txn.atomically (writeBody cfg spec p expectedHead clock) db =
      match obstacle db spec p with
      | some e => (.error e, db)
      | none => (rowToArtifact cfg.py ⟨spec.row p (db.headVersion spec.lineage) now, spec.content,
          spec.content.length⟩, db.inserted spec p now) := by
  have hrun : writeBody cfg spec p expectedHead clock db =
      (checkBlob p.digest spec.content >>= fun _ =>
        insertVersion (spec.row p (db.headVersion spec.lineage) now) >>= fun _ =>
        Txn.query (·.selectRecord spec.scope spec.artifactId) >>= fun record =>
        match record with
        | none => Txn.raise ⟨.runtimeError, "stored artifact disappeared"⟩
        | some stored => Txn.lift (rowToArtifact cfg.py stored) : ArtifactTxn StoredArtifact)
      (db.withBlob ⟨p.digest, spec.content, spec.content.length, now⟩) := by
    have hensure : (Txn.ensure (∀ e, expectedHead = some e → (db.headVersion spec.lineage : Int) = e)
        (staleHead (expectedHead.getD 0) (db.headVersion spec.lineage)) : ArtifactTxn Unit) = pure () :=
      if_pos hexpected
    simp only [writeBody, bind, Txn.query, Txn.lift, hfresh, hnow]
    rw [hensure]
    rfl
  have hcheck := @checkBlob_eq cfg db spec hi p now
  have hinsert := @insertVersion_eq cfg db spec hi p now hfresh _
    (withBlob_versions db ⟨p.digest, spec.content, spec.content.length, now⟩)
  rw [Txn.atomically, hrun]
  simp only [bind]
  rw [hcheck, obstacle]
  cases hclash : db.clashes spec p with
  | true => rfl
  | false =>
    simp only [Bool.false_eq_true, if_false]
    rw [hinsert]
    by_cases hmax : maxSqliteInteger < db.headVersion spec.lineage + 1
    · rw [if_pos hmax, if_pos hmax]
    · rw [if_neg hmax, if_neg hmax]
      cases htaken : db.versions.any (fun r => decide (r.artifactId = spec.artifactId)) with
      | true => rfl
      | false =>
        have hfree : obstacle db spec p = none := by simp [obstacle, hclash, hmax, htaken]
        obtain ⟨item, hread⟩ := inserted_reads hp hnow hfree
        have hselected := @inserted_selected cfg db spec hi p now hfree
        simp only [ArtifactDb.inserted] at hselected
        simp only [Bool.false_eq_true, if_false, Txn.query]
        rw [hselected, hread]
        simp only [Txn.lift, hread]
        rfl

section
variable {u : Unit} (hhead : checkExpectedHead expectedHead = .ok u) {p : Prepared}
  (hp : prepare cfg spec = .ok p)
include hhead hp

/-- What a write decides whose identity or key there is. -/
theorem judge_existing {row : VersionRow} {rest : List VersionRow}
    (hrows : db.existingRows spec = row :: rest) :
    judge cfg db spec expectedHead clock =
      if rest ≠ [] ∨ row.idempotencyKey ≠ spec.idempotencyKey ∨ row.requestDigest ≠ p.requestDigest then
        .error ⟨.artifactConflict,
          "artifact identity or idempotency key is bound to different content"⟩
      else
        match db.selectRecord spec.scope row.artifactId with
        | none => .error ⟨.artifactIntegrity, "idempotent artifact record has no blob"⟩
        | some existing => (rowToArtifact cfg.py existing).bind fun item => .ok (.inl item) := by
  rw [judge, hhead, hp, hrows]
  rfl

/-- What a write decides whose identity and key are new, and whose head is as it
expects. -/
theorem judge_fresh (hrows : db.existingRows spec = [])
    (hexpected : ∀ e, expectedHead = some e → (db.headVersion spec.lineage : Int) = e) :
    judge cfg db spec expectedHead clock =
      (normalizeTimestamp cfg.py clock "clock").bind fun now => .ok (.inr (p, now)) := by
  rw [judge, hhead, hp, hrows]
  exact if_pos hexpected

end

/-- **A write is what it decides**, then the insertion or what stops it. -/
theorem write_eq (hi : StoreInv cfg db) :
    write cfg spec expectedHead clock db =
      match judge cfg db spec expectedHead clock with
      | .error e => (.error e, db)
      | .ok (.inl item) => (.ok item, db)
      | .ok (.inr (p, now)) =>
        match obstacle db spec p with
        | some e => (.error e, db)
        | none => (rowToArtifact cfg.py ⟨spec.row p (db.headVersion spec.lineage) now, spec.content,
            spec.content.length⟩, db.inserted spec p now) := by
  cases hhead : checkExpectedHead expectedHead with
  | error e => simp [write, judge, hhead, bind, Txn.lift, Except.bind]
  | ok u =>
    cases hp : prepare cfg spec with
    | error e => simp [write, judge, hhead, hp, bind, Txn.lift, Except.bind]
    | ok p =>
      have hwrite : write cfg spec expectedHead clock db =
          Txn.atomically (writeBody cfg spec p expectedHead clock) db := by
        simp [write, bind, Txn.lift, hhead, hp]
      rw [hwrite]
      cases hrows : db.existingRows spec with
      | cons row rest =>
        have hbody : writeBody cfg spec p expectedHead clock db =
            (if rest ≠ [] ∨ row.idempotencyKey ≠ spec.idempotencyKey ∨
                row.requestDigest ≠ p.requestDigest then
              Txn.raise ⟨.artifactConflict,
                "artifact identity or idempotency key is bound to different content"⟩
            else Txn.query (·.selectRecord spec.scope row.artifactId) >>= fun record =>
              match record with
              | none => Txn.raise ⟨.artifactIntegrity, "idempotent artifact record has no blob"⟩
              | some existing => Txn.lift (rowToArtifact cfg.py existing) :
              ArtifactTxn StoredArtifact) db := by
          rewrite [writeBody, query_bind, hrows]
          rfl
        have hjudge := @judge_existing cfg db spec expectedHead clock u hhead p hp row rest hrows
        rw [Txn.atomically, hbody, hjudge]
        by_cases hconflict : rest ≠ [] ∨ row.idempotencyKey ≠ spec.idempotencyKey ∨
            row.requestDigest ≠ p.requestDigest
        · rw [if_pos hconflict, if_pos hconflict]
          rfl
        · rw [if_neg hconflict, if_neg hconflict, query_bind]
          cases hrecord : db.selectRecord spec.scope row.artifactId with
          | none => rfl
          | some j => cases hread : rowToArtifact cfg.py j <;> simp only [Txn.lift, hread] <;> rfl
      | nil =>
        by_cases hexpected : ∀ e, expectedHead = some e → (db.headVersion spec.lineage : Int) = e
        · have hjudge := @judge_fresh cfg db spec expectedHead clock u hhead p hp hrows hexpected
          cases hnow : normalizeTimestamp cfg.py clock "clock" with
          | error e =>
            have hbody : writeBody cfg spec p expectedHead clock db = (.error e, db) := by
              rewrite [writeBody, query_bind, hrows]
              show (Txn.query _ >>= _) db = _
              rw [query_bind, Txn.ensure, if_pos hexpected, hnow]
              rfl
            rw [Txn.atomically, hbody, hjudge, hnow]
            rfl
          | ok now =>
            rw [insertion_eq hi hp hrows hexpected hnow, hjudge, hnow]
            rfl
        · have hjudge : judge cfg db spec expectedHead clock =
              .error (staleHead (expectedHead.getD 0) (db.headVersion spec.lineage)) := by
            rw [judge, hhead, hp, hrows]
            exact if_neg hexpected
          have hbody : writeBody cfg spec p expectedHead clock db =
              (.error (staleHead (expectedHead.getD 0) (db.headVersion spec.lineage)), db) := by
            rewrite [writeBody, query_bind, hrows]
            show (Txn.query _ >>= _) db = _
            rw [query_bind, Txn.ensure, if_neg hexpected]
            rfl
          rw [Txn.atomically, hbody, hjudge]

/-! ## Databases that agree on a scope -/

/-- The columns of a blob that calls depend on. -/
def BlobRow.seen (b : BlobRow) : String × List UInt8 × Nat := (b.digest, b.content, b.byteSize)

/-- The two databases have the same versions in a scope, over the same bytes. -/
structure Agree (s : Scope) (db₁ db₂ : ArtifactDb) : Prop where
  versions : db₁.inScope s = db₂.inScope s
  blobs : ∀ r ∈ db₁.inScope s,
    (db₁.findBlob r.blobDigest).map BlobRow.seen = (db₂.findBlob r.blobDigest).map BlobRow.seen

theorem preflightBlobMetadata_seen {r : VersionRow} {x y : Option BlobRow}
    (h : x.map BlobRow.seen = y.map BlobRow.seen) :
    preflightBlobMetadata r x = preflightBlobMetadata r y := by
  cases x with
  | none =>
    cases y with
    | none => rfl
    | some c => simp at h
  | some b =>
    cases y with
    | none => simp at h
    | some c =>
      simp only [Option.map_some, Option.some.injEq, BlobRow.seen, Prod.mk.injEq] at h
      obtain ⟨-, hcontent, hsize⟩ := h
      simp only [preflightBlobMetadata, hcontent, hsize]

theorem preflightRecordIdentity_seen {r : VersionRow} {x y : Option BlobRow}
    (h : x.map BlobRow.seen = y.map BlobRow.seen) :
    preflightRecordIdentity r x = preflightRecordIdentity r y := by
  have hdigest : x.map (·.digest) = y.map (·.digest) := by
    have := congrArg (Option.map Prod.fst) h
    rwa [Option.map_map, Option.map_map] at this
  rw [preflightRecordIdentity, preflightRecordIdentity, preflightBlobMetadata_seen h, hdigest]

section
variable {s : Scope} (ha : Agree s db₁ db₂)
include ha

theorem Agree.join {r : VersionRow} (hr : r ∈ db₁.inScope s) : db₁.join r = db₂.join r := by
  have hparts := congrArg (Option.map fun seen => JoinedRow.mk r seen.2.1 seen.2.2) (ha.blobs r hr)
  rwa [Option.map_map, Option.map_map] at hparts

theorem Agree.joins {rows : List VersionRow} (h : ∀ r ∈ rows, r ∈ db₁.inScope s) :
    rows.filterMap db₁.join = rows.filterMap db₂.join :=
  List.filterMap_congr fun r hr => ha.join (h r hr)

theorem Agree.selectRecord (artifactId : String) :
    db₁.selectRecord s artifactId = db₂.selectRecord s artifactId := by
  rw [ArtifactDb.selectRecord, ArtifactDb.selectRecord, ← ha.versions]
  rw [ha.joins fun r hr => List.mem_of_mem_filter hr]

theorem Agree.inLineage {l : Lineage} (hl : l.scope = s) : db₁.inLineage l = db₂.inLineage l := by
  rw [ArtifactDb.inLineage, ArtifactDb.inLineage, hl, ha.versions]

theorem Agree.materialize (identity : RecordIdentity) :
    materialize cfg db₁ s identity = materialize cfg db₂ s identity := by
  have hselect : selectMaterialized db₁ s identity = selectMaterialized db₂ s identity := by
    rw [selectMaterialized, selectMaterialized, ← ha.versions]
    rw [ha.joins fun r hr => List.mem_of_mem_filter hr]
  rw [ArtifactStore.materialize, ArtifactStore.materialize, hselect]

theorem Agree.get (artifactId : String) : get cfg db₁ s artifactId = get cfg db₂ s artifactId := by
  have hmem : ∀ r ∈ ((db₁.inScope s).filter (fun r => r.artifactId = artifactId)).take 2,
      r ∈ db₁.inScope s := fun r hr => List.mem_of_mem_filter (List.mem_of_mem_take hr)
  rw [ArtifactStore.get, ArtifactStore.get, ← ha.versions]
  generalize ((db₁.inScope s).filter (fun r => r.artifactId = artifactId)).take 2 = rows at hmem ⊢
  cases rows with
  | nil => rfl
  | cons r rest =>
    cases rest with
    | nil =>
      simp only [preflightRecordIdentity_seen (ha.blobs r (hmem r List.mem_cons_self)), ha.materialize]
    | cons _ _ => rfl

theorem Agree.head {l : Lineage} (hl : l.scope = s) : head cfg db₁ l = head cfg db₂ l := by
  have hmem : ∀ r ∈ (newestFirst (db₁.inLineage l)).take 2, r ∈ db₁.inScope s := by
    intro r hr
    have hr := (List.perm_insertionSort _ _).mem_iff.mp (List.mem_of_mem_take hr)
    rw [← hl]
    exact List.mem_of_mem_filter hr
  rw [ArtifactStore.head, ArtifactStore.head, ← ha.inLineage hl, hl]
  generalize (newestFirst (db₁.inLineage l)).take 2 = rows at hmem ⊢
  cases rows with
  | nil => rfl
  | cons r more =>
    simp only [preflightRecordIdentity_seen (ha.blobs r (hmem r List.mem_cons_self)), ha.materialize]

theorem Agree.checkPage : ∀ (rows : List VersionRow) (cursor pageBytes : Nat),
    (∀ r ∈ rows, r ∈ db₁.inScope s) →
    checkPage cfg db₁ cursor pageBytes rows = checkPage cfg db₂ cursor pageBytes rows
  | [], _, _, _ => rfl
  | r :: rest, cursor, pageBytes, h => by
    have ih := fun cursor pageBytes => Agree.checkPage rest cursor pageBytes
      fun r' hr' => h r' (List.mem_cons_of_mem _ hr')
    simp only [ArtifactStore.checkPage, ih,
      preflightBlobMetadata_seen (ha.blobs r (h r List.mem_cons_self))]

theorem Agree.history {l : Lineage} (hl : l.scope = s) (after limit : Int) :
    history cfg db₁ l after limit = history cfg db₂ l after limit := by
  have hmem : ∀ n, ∀ r ∈ orderBy (·.version) ((db₁.inLineage l).filter (fun r => n < r.version)),
      r ∈ db₁.inScope s := by
    intro n r hr
    have hr := List.mem_of_mem_filter ((List.perm_insertionSort _ _).mem_iff.mp hr)
    rw [← hl]
    exact List.mem_of_mem_filter hr
  have hrows : ∀ n m, pageRows db₁ l n m = pageRows db₂ l n m := by
    intro n m
    rw [pageRows, pageRows, ha.inLineage hl]
  have hrecords : ∀ n m, pageRecords db₁ l n m = pageRecords db₂ l n m := by
    intro n m
    rw [pageRecords, pageRecords, ← ha.inLineage hl, ha.joins (hmem n)]
  have hcheck : ∀ n m cursor bytes,
      ArtifactStore.checkPage cfg db₁ cursor bytes (pageRows db₁ l n m) =
        ArtifactStore.checkPage cfg db₂ cursor bytes (pageRows db₁ l n m) := fun n m cursor bytes =>
    ha.checkPage _ cursor bytes fun r hr => hmem n r (List.mem_of_mem_take hr)
  simp only [ArtifactStore.history, hcheck, hrecords, ← hrows, ha.inLineage hl]

theorem Agree.verifyRows : ∀ (rows : List VersionRow) (checked : Nat),
    (∀ r ∈ rows, r ∈ db₁.inScope s) →
    verifyRows cfg db₁ s checked rows = verifyRows cfg db₂ s checked rows
  | [], _, _ => rfl
  | r :: rest, checked, h => by
    have ih := fun checked => Agree.verifyRows rest checked
      fun r' hr' => h r' (List.mem_cons_of_mem _ hr')
    simp only [ArtifactStore.verifyRows, ih, ha.selectRecord,
      preflightBlobMetadata_seen (ha.blobs r (h r List.mem_cons_self))]

theorem Agree.verifyScope : verifyScope cfg db₁ s = verifyScope cfg db₂ s := by
  have hmem : ∀ r ∈ orderByLineage (db₁.inScope s), r ∈ db₁.inScope s := fun r =>
    (List.perm_insertionSort _ _).mem_iff.mp
  have hverify := fun checked => @Agree.verifyRows cfg db₁ db₂ s ha _ checked hmem
  simp only [ArtifactStore.verifyScope, hverify, ← ha.versions]

/-- What a write decides depends on its scope alone. -/
theorem Agree.judge (hs : spec.scope = s) :
    judge cfg db₁ spec expectedHead clock = judge cfg db₂ spec expectedHead clock := by
  have hexisting : db₁.existingRows spec = db₂.existingRows spec := by
    rw [ArtifactDb.existingRows, ArtifactDb.existingRows, hs, ha.versions]
  have hhead : db₁.headVersion spec.lineage = db₂.headVersion spec.lineage := by
    rw [ArtifactDb.headVersion, ArtifactDb.headVersion, ha.inLineage (l := spec.lineage) hs]
  have hselect : ∀ a, db₁.selectRecord spec.scope a = db₂.selectRecord spec.scope a := by
    rw [hs]
    exact ha.selectRecord
  simp only [ArtifactStore.judge, hexisting, hhead, hselect]

end

/-! ## Every call of a scope -/

/-- What a call returns. -/
inductive Reply where
  | stored (item : StoredArtifact)
  | found (item : Option StoredArtifact)
  | page (items : List StoredArtifact)
  | verified (count : Nat)

/-- A call in a scope. -/
inductive ScopeCall (s : Scope) where
  | get (artifactId : String)
  | head (sessionId name : String)
  | history (sessionId name : String) (after limit : Int)
  | verify
  | write (spec : ArtifactWrite) (expectedHead : Option Int) (clock : String) (hscope : spec.scope = s)

/-- What a call returns or raises, and the database it leaves. -/
def ScopeCall.run {s : Scope} (cfg : ArtifactStoreConfig) (db : ArtifactDb) :
    ScopeCall s → Except StoreError Reply × ArtifactDb
  | .get artifactId => ((ArtifactStore.get cfg db s artifactId).map .found, db)
  | .head sessionId name => ((ArtifactStore.head cfg db ⟨s, sessionId, name⟩).map .found, db)
  | .history sessionId name after limit =>
    ((ArtifactStore.history cfg db ⟨s, sessionId, name⟩ after limit).map .page, db)
  | .verify => ((ArtifactStore.verifyScope cfg db s).map .verified, db)
  | .write spec expectedHead clock _ =>
    ((ArtifactStore.write cfg spec expectedHead clock db).1.map .stored,
      (ArtifactStore.write cfg spec expectedHead clock db).2)

/-- The two databases stop the call's insertion alike, if it gets that far. -/
def ScopeCall.StoppedAlike {s : Scope} (cfg : ArtifactStoreConfig) (db₁ db₂ : ArtifactDb) :
    ScopeCall s → Prop
  | .write spec expectedHead clock _ => ∀ p now,
    judge cfg db₁ spec expectedHead clock = .ok (.inr (p, now)) →
      obstacle db₁ spec p = obstacle db₂ spec p
  | _ => True

/-- The call gives the same in both databases, and leaves them in agreement. -/
def ScopeCall.Indistinguishable {s : Scope} (cfg : ArtifactStoreConfig) (db₁ db₂ : ArtifactDb)
    (call : ScopeCall s) : Prop :=
  (call.run cfg db₁).1 = (call.run cfg db₂).1 ∧ Agree s (call.run cfg db₁).2 (call.run cfg db₂).2

theorem judge_inr {p : Prepared} {now : String}
    (h : judge cfg db spec expectedHead clock = .ok (.inr (p, now))) :
    prepare cfg spec = .ok p ∧ normalizeTimestamp cfg.py clock "clock" = .ok now := by
  simp only [judge, except_bind_ok] at h
  obtain ⟨_, -, p', hp, h⟩ := h
  split at h
  · split at h
    · simp at h
    · split at h
      · simp at h
      · simp only [except_bind_ok, Except.ok.injEq, reduceCtorEq, and_false, exists_false] at h
  · split at h
    · simp only [except_bind_ok, Except.ok.injEq, Sum.inr.injEq, Prod.mk.injEq] at h
      obtain ⟨now', hnow, rfl, rfl⟩ := h
      exact ⟨hp, hnow⟩
    · simp at h

/-- An insertion in both leaves them in agreement. -/
theorem Agree.inserted {s : Scope} (ha : Agree s db₁ db₂) (hs : spec.scope = s)
    (hi₁ : StoreInv cfg db₁) (hi₂ : StoreInv cfg db₂) {p : Prepared} {now : String}
    (hfree₁ : obstacle db₁ spec p = none) (hfree₂ : obstacle db₂ spec p = none) :
    Agree s (db₁.inserted spec p now) (db₂.inserted spec p now) := by
  have hhead : db₁.headVersion spec.lineage = db₂.headVersion spec.lineage := by
    rw [ArtifactDb.headVersion, ArtifactDb.headVersion, ha.inLineage (l := spec.lineage) hs]
  have hrow : ∀ n, (spec.row p n now).scope = s := fun _ => hs
  have hscope : ∀ db : ArtifactDb, (db.inserted spec p now).inScope s =
      db.inScope s ++ [spec.row p (db.headVersion spec.lineage) now] := by
    intro db
    rw [ArtifactDb.inScope, ArtifactDb.inserted]
    simp only
    rw [List.filter_append, List.filter_cons_of_pos (by simpa using hrow _), List.filter_nil]
    rfl
  have hgrows : ∀ db : ArtifactDb, Grows db (db.inserted spec p now) := fun db =>
    ⟨⟨_, rfl⟩, (withBlob_grows db _).2⟩
  refine ⟨by rw [hscope, hscope, ha.versions, hhead], fun r hr => ?_⟩
  rw [hscope] at hr
  rcases List.mem_append.mp hr with hr | hr
  · -- a version there was keeps its blob
    obtain ⟨b₁, hb₁, -⟩ := hi₁.stored r (mem_inScope.mp hr).1
    obtain ⟨b₂, hb₂, -⟩ := hi₂.stored r (mem_inScope.mp (ha.versions ▸ hr)).1
    have h := ha.blobs r hr
    rw [hb₁, hb₂] at h
    rw [(hgrows db₁).findBlob hb₁, (hgrows db₂).findBlob hb₂, h]
  · obtain rfl := List.mem_singleton.mp hr
    obtain ⟨b₁, hb₁, hd₁, hc₁, hs₁⟩ := @inserted_blob cfg db₁ spec hi₁ p now (obstacle_none hfree₁).1
    obtain ⟨b₂, hb₂, hd₂, hc₂, hs₂⟩ := @inserted_blob cfg db₂ spec hi₂ p now (obstacle_none hfree₂).1
    show ((db₁.inserted spec p now).findBlob p.digest).map _ =
      ((db₂.inserted spec p now).findBlob p.digest).map _
    rw [hb₁, hb₂]
    simp only [Option.map_some, BlobRow.seen, hd₁, hd₂, hc₁, hc₂, hs₁, hs₂]

/-- A write is told apart exactly by what stops its insertion. -/
theorem write_indistinguishable {s : Scope} (ha : Agree s db₁ db₂) (hs : spec.scope = s)
    (hi₁ : StoreInv cfg db₁) (hi₂ : StoreInv cfg db₂) :
    (ScopeCall.write spec expectedHead clock hs).Indistinguishable cfg db₁ db₂ ↔
      (ScopeCall.write spec expectedHead clock hs).StoppedAlike cfg db₁ db₂ := by
  have hhead : db₁.headVersion spec.lineage = db₂.headVersion spec.lineage := by
    rw [ArtifactDb.headVersion, ArtifactDb.headVersion, ha.inLineage (l := spec.lineage) hs]
  have hjudge : judge cfg db₁ spec expectedHead clock = judge cfg db₂ spec expectedHead clock :=
    ha.judge hs
  simp only [ScopeCall.Indistinguishable, ScopeCall.StoppedAlike, ScopeCall.run, write_eq hi₁,
    write_eq hi₂, ← hjudge]
  cases h : judge cfg db₁ spec expectedHead clock with
  | error e => simp [ha]
  | ok decided =>
    cases decided with
    | inl item => simp [ha]
    | inr found =>
      obtain ⟨p, now⟩ := found
      obtain ⟨hp, hnow⟩ := judge_inr h
      simp only [Except.ok.injEq, Sum.inr.injEq, Prod.mk.injEq, and_imp]
      cases h₁ : obstacle db₁ spec p with
      | some e₁ =>
        cases h₂ : obstacle db₂ spec p with
        | some e₂ => simp [Except.map, ha, h₁, h₂]
        | none =>
          obtain ⟨item, hitem⟩ := inserted_reads hp hnow h₂
          simp [hitem, Except.map, h₁, h₂]
      | none =>
        obtain ⟨item, hitem⟩ := inserted_reads hp hnow h₁
        cases h₂ : obstacle db₂ spec p with
        | some e₂ => simp [hitem, Except.map, h₁, h₂]
        | none => simp [hhead, ha.inserted hs hi₁ hi₂ h₁ h₂, h₁, h₂]

/-- **Non-interference**: what other scopes hold shows in a call of this one
exactly where it stops the call's insertion in one database and not in the
other, or otherwise than in the other. -/
theorem noninterference_iff {s : Scope} (h₁ : Reachable (storeSystem cfg) db₁)
    (h₂ : Reachable (storeSystem cfg) db₂) (ha : Agree s db₁ db₂) (call : ScopeCall s) :
    call.Indistinguishable cfg db₁ db₂ ↔ call.StoppedAlike cfg db₁ db₂ := by
  cases call with
  | get artifactId =>
    have heq := @Agree.get cfg db₁ db₂ s ha artifactId
    exact ⟨fun _ => trivial, fun _ => ⟨congrArg (Except.map Reply.found) heq, ha⟩⟩
  | head sessionId name =>
    have heq := @Agree.head cfg db₁ db₂ s ha ⟨s, sessionId, name⟩ rfl
    exact ⟨fun _ => trivial, fun _ => ⟨congrArg (Except.map Reply.found) heq, ha⟩⟩
  | history sessionId name after limit =>
    have heq := @Agree.history cfg db₁ db₂ s ha ⟨s, sessionId, name⟩ rfl after limit
    exact ⟨fun _ => trivial, fun _ => ⟨congrArg (Except.map Reply.page) heq, ha⟩⟩
  | verify =>
    have heq := @Agree.verifyScope cfg db₁ db₂ s ha
    exact ⟨fun _ => trivial, fun _ => ⟨congrArg (Except.map Reply.verified) heq, ha⟩⟩
  | write spec expectedHead clock hscope =>
    exact write_indistinguishable ha hscope (reachable_storeInv h₁) (reachable_storeInv h₂)

/-! ## A sample store -/

/-- A write that nothing stops inserts its version. -/
theorem write_inserts (hi : StoreInv cfg db) {p : Prepared} {now : String}
    (hjudge : judge cfg db spec expectedHead clock = .ok (.inr (p, now)))
    (hfree : obstacle db spec p = none) :
    ∃ item, write cfg spec expectedHead clock db = (.ok item, db.inserted spec p now) := by
  obtain ⟨hp, hnow⟩ := judge_inr hjudge
  obtain ⟨item, hitem⟩ := inserted_reads hp hnow hfree
  refine ⟨item, ?_⟩
  rw [write_eq hi, hjudge]
  simp only [hfree, hitem]

namespace Sample

/-- A store whose pages hold at most five bytes. -/
def config : ArtifactStoreConfig := ⟨64, 64, 5, .py311, by decide⟩

def noon : String := "2024-01-01T12:00:00Z"

def stamp : String := "2024-01-01T12:00:00.000000Z"

/-- A write of the same three bytes, under some identity and key of a tenant. -/
def report (tenantId artifactId key : String)
    (h : TextOk maxIdentifierLength tenantId ∧ TextOk maxIdentifierLength artifactId ∧
      TextOk maxIdentifierLength key) : ArtifactWrite where
  tenantId := tenantId
  workspaceId := "workspace"
  sessionId := "session"
  taskId := "task"
  name := "report"
  content := [1, 2, 3]
  createdBy := "agent"
  idempotencyKey := key
  mediaType := "text/plain"
  metadata := .dict []
  artifactId := artifactId
  texts := by
    have hplain : ∀ t ∈ ["workspace", "session", "task", "report", "agent"],
        TextOk maxIdentifierLength t := by decide
    simp only [List.forall_mem_cons, List.not_mem_nil, false_implies, implies_true, and_true] at hplain ⊢
    tauto
  media := by decide
  sized := by decide

/-- A sample write, prepared. -/
def prepared (spec : ArtifactWrite) : Prepared :=
  ⟨"\x7b\x7d", contentDigest spec.content,
    requestDigest spec.tenantId spec.workspaceId spec.sessionId spec.taskId spec.name spec.mediaType
      (contentDigest spec.content) spec.content.length (.dict []) spec.createdBy⟩

variable {tenantId artifactId key : String} {h : TextOk maxIdentifierLength tenantId ∧
  TextOk maxIdentifierLength artifactId ∧ TextOk maxIdentifierLength key}

theorem prepare_report :
    prepare config (report tenantId artifactId key h) =
      .ok (prepared (report tenantId artifactId key h)) := by
  have hmetadata : canonicalMetadata (.dict []) = .ok ("\x7b\x7d", .dict []) := by
    rfl
  rw [prepare, if_neg (by show ¬64 < 3; decide)]
  show (canonicalMetadata (.dict []) >>= _) = _
  rw [hmetadata]
  rfl

theorem noon_stamp : normalizeTimestamp .py311 noon "clock" = .ok stamp := by
  decide +kernel


/-- A sample write that finds no version of its identity or key, and the head it
may expect, gets to its insertion. -/
theorem judge_report (hfresh : db.existingRows (report tenantId artifactId key h) = []) :
    judge config db (report tenantId artifactId key h) none noon =
      .ok (.inr (prepared (report tenantId artifactId key h), stamp)) := by
  rw [judge_fresh rfl prepare_report hfresh (by simp)]
  show (normalizeTimestamp .py311 noon "clock").bind _ = _
  rw [noon_stamp]
  rfl

/-- An insertion into a reachable database is reachable. -/
theorem reachable_inserted (hr : Reachable (storeSystem config) db)
    (hfresh : db.existingRows (report tenantId artifactId key h) = [])
    (hfree : obstacle db (report tenantId artifactId key h)
      (prepared (report tenantId artifactId key h)) = none) :
    Reachable (storeSystem config) (db.inserted (report tenantId artifactId key h)
      (prepared (report tenantId artifactId key h)) stamp) := by
  obtain ⟨item, hwrite⟩ := write_inserts (reachable_storeInv hr) (judge_report hfresh) hfree
  exact hr.step (l := (⟨report tenantId artifactId key h, none, noon⟩, .ok item)) hwrite

def ours : ArtifactWrite := report "ours" "a-1" "k-1" (by decide)

def theirs : ArtifactWrite := report "theirs" "a-1" "k-1" (by decide)

/-- The store after the other tenant's write. -/
def taken : ArtifactDb := ArtifactDb.empty.inserted theirs (prepared theirs) stamp

theorem taken_reachable : Reachable (storeSystem config) taken :=
  reachable_inserted (Reachable.start rfl) rfl rfl

theorem taken_agrees : Agree ours.scope .empty taken :=
  ⟨rfl, fun _ hr => absurd hr List.not_mem_nil⟩

end Sample

/-- The law at a call that another tenant's artifact id does not stop. -/
theorem noninterference_iff_other : (ScopeCall.write (Sample.report "ours" "a-2" "k-1" (by decide))
      none Sample.noon rfl).Indistinguishable Sample.config .empty Sample.taken ↔
    (ScopeCall.write (Sample.report "ours" "a-2" "k-1" (by decide)) none Sample.noon
      rfl).StoppedAlike Sample.config .empty Sample.taken :=
  noninterference_iff (s := ⟨"ours", "workspace"⟩) (Reachable.start rfl) Sample.taken_reachable
    Sample.taken_agrees _

/-- A tenant's write tells it that another tenant has its artifact id: it
inserts into the empty store, and raises in the other. -/
theorem foreign_identity : ∃ (db₁ db₂ : ArtifactDb) (s : Scope) (call : ScopeCall s),
    Reachable (storeSystem Sample.config) db₁ ∧ Reachable (storeSystem Sample.config) db₂ ∧
      Agree s db₁ db₂ ∧ ¬call.Indistinguishable Sample.config db₁ db₂ := by
  refine ⟨.empty, Sample.taken, Sample.ours.scope, .write Sample.ours none Sample.noon rfl,
    Reachable.start rfl, Sample.taken_reachable, Sample.taken_agrees, fun hsame => ?_⟩
  rw [write_indistinguishable Sample.taken_agrees rfl storeInv_empty
    (reachable_storeInv Sample.taken_reachable)] at hsame
  have hstopped : obstacle .empty Sample.ours (Sample.prepared Sample.ours) =
      obstacle Sample.taken Sample.ours (Sample.prepared Sample.ours) :=
    hsame _ _ (Sample.judge_report rfl)
  have hfree : obstacle .empty Sample.ours (Sample.prepared Sample.ours) = none := rfl
  have htaken : (obstacle Sample.taken Sample.ours (Sample.prepared Sample.ours)).isSome = true := by
    rw [obstacle]
    split
    · rfl
    · split
      · rfl
      · have hany : Sample.taken.versions.any
            (fun r => r.artifactId = Sample.ours.artifactId) = true := rfl
        rw [if_pos hany]
        rfl
  rw [← hstopped, hfree] at htaken
  exact absurd htaken (by simp)

end QuantumEntanglement.ArtifactStore
