import QuantumEntanglement.Lib.PercentEncoding
import QuantumEntanglement.Artifacts.Restore

/-
  Record keys — when two requests of a session are told apart

  A request is recorded under `artifact:<task>:<name>:<digest>`, and a task or
  a name may hold the separator. Two requests of one session that differ are
  both recorded exactly when their tasks and names joined by the separator
  differ, or their digests do; where they do not, the second meets the row of
  the first and is refused. The URIs do tell versions apart: what is quoted is
  read back, and a quoted session holds no slash.

  What is proved:
    1. `idempotencyKey_eq` — when two requests have one key.
    2. `artifactUri_inj` — a URI names one version of one artifact.
    3. `recorded_both_iff` — when two requests are both recorded.
    4. `joined_names` — two reports of which the second is refused.
-/

namespace QuantumEntanglement.Artifacts

open Transaction PyText Sha256 PercentEncoding

variable {cfg : LedgerConfig} {w : World cfg} {s : Machine}

/-! ## Keys -/

/-- Task and name as the key holds them. -/
def ArtifactRecordRequest.joined (r : ArtifactRecordRequest) : String := r.taskId ++ ":" ++ r.name

theorem digest_length (content : String) : (artifactDigest content).length = 71 := by
  have hhex := (hexDigest_canonical content).1
  have hprefix : "sha256:".length = 7 := by decide
  rw [artifactDigest, String.length_append, hhex, hprefix]

/-- **Two requests have one key exactly when they join alike and their contents
have one digest.** -/
theorem idempotencyKey_eq (r r' : ArtifactRecordRequest) : r.idempotencyKey = r'.idempotencyKey ↔
    r.joined = r'.joined ∧ artifactDigest r.content = artifactDigest r'.content := by
  have hshape : ∀ x : ArtifactRecordRequest, x.idempotencyKey.toList =
      "artifact:".toList ++ x.joined.toList ++ (':' :: (artifactDigest x.content).toList) := by
    intro x
    simp [ArtifactRecordRequest.idempotencyKey, ArtifactRecordRequest.joined]
  constructor
  · intro h
    have hlists := congrArg String.toList h
    rw [hshape, hshape] at hlists
    have hlength : ∀ x : ArtifactRecordRequest, (':' :: (artifactDigest x.content).toList).length = 72 := by
      intro x
      rw [List.length_cons, String.length_toList, digest_length]
    obtain ⟨hjoined, hdigest⟩ := List.append_inj' hlists ((hlength r).trans (hlength r').symm)
    exact ⟨String.toList_injective (List.append_cancel_left hjoined),
      String.toList_injective (List.cons.inj hdigest).2⟩
  · rintro ⟨hjoined, hdigest⟩
    apply String.toList_injective
    rw [hshape, hshape, hjoined, hdigest]

/-- Where no task holds the separator, what is joined is told apart. -/
theorem joined_eq {r r' : ArtifactRecordRequest} (h : ':' ∉ r.taskId.toList) (h' : ':' ∉ r'.taskId.toList)
    (heq : r.joined = r'.joined) : r.taskId = r'.taskId ∧ r.name = r'.name := by
  have hlists := congrArg String.toList heq
  simp only [ArtifactRecordRequest.joined, String.toList_append, List.append_assoc] at hlists
  obtain ⟨htask, hname⟩ := split_first h h' hlists
  exact ⟨String.toList_injective htask, String.toList_injective hname⟩

/-! ## URIs -/

/-- The characters `quote` keeps. -/
def kept (safe : List Char) (c : Char) : Bool :=
  c.isAlphanum || ['_', '.', '-', '~'].contains c || safe.contains c

theorem quote_eq (safe : List Char) (value : String) :
    (quote safe value).toList = escapeText (kept safe) value.toList := by
  rw [quote, String.toList_ofList]
  rfl

theorem alphanum_plain {c : Char} (h : c.isAlphanum = true) : c.toNat < 128 ∧ c ≠ '%' := by
  simp only [Char.isAlphanum, Char.isAlpha, Char.isUpper, Char.isLower, Char.isDigit, Bool.or_eq_true,
    Bool.and_eq_true, decide_eq_true_eq, ge_iff_le, UInt32.le_iff_toNat_le, Char.toNat_val] at h
  constructor
  · simp at h
    omega
  · rintro rfl
    simp at h

theorem plain_kept {safe : List Char} (h : ∀ c ∈ safe, c.toNat < 128 ∧ c ≠ '%') : Plain (kept safe) := by
  intro c hc
  simp only [kept, Bool.or_eq_true, List.contains_iff_mem] at hc
  rcases hc with (hc | hc) | hc
  · exact alphanum_plain hc
  · have hall : ∀ x ∈ ['_', '.', '-', '~'], x.toNat < 128 ∧ x ≠ '%' := by decide
    exact hall c hc
  · exact h c hc

theorem quote_inj {safe : List Char} (h : ∀ c ∈ safe, c.toNat < 128 ∧ c ≠ '%') {a b : String}
    (heq : quote safe a = quote safe b) : a = b := by
  have hlists := congrArg String.toList heq
  rw [quote_eq, quote_eq] at hlists
  exact String.toList_injective (escapeText_inj (plain_kept h) hlists)

/-- A quoted session holds no slash. -/
theorem slash_not_mem_quote (value : String) : '/' ∉ (quote [] value).toList := by
  intro hmem
  rw [quote_eq] at hmem
  rcases mem_escapeText hmem with h | h | h
  · exact absurd h (by decide)
  · exact absurd h (by decide)
  · exact absurd h (by decide)

theorem toString_inj {m n : Nat} (h : toString m = toString n) : m = n := by
  rw [Nat.toString_eq_ofList_toDigits, Nat.toString_eq_ofList_toDigits] at h
  have hvalues := congrArg (fun digits => Nat.ofDigitChars 10 digits 0) (String.ofList_injective h)
  simpa [Nat.ofDigitChars_toDigits] using hvalues

theorem slash_not_mem_number (n : Nat) : '/' ∉ 'v' :: (toString n).toList := by
  rw [Nat.toString_eq_ofList_toDigits, String.toList_ofList]
  intro hmem
  rcases List.mem_cons.mp hmem with h | h
  · exact absurd h (by decide)
  · exact absurd (Nat.isDigit_of_mem_toDigits (by decide) (by decide) h) (by decide)

/-- **A URI names one version of one artifact of one session.** -/
theorem artifactUri_inj {session session' name name' : String} {n n' : Nat}
    (h : artifactUri session name n = artifactUri session' name' n') :
    session = session' ∧ name = name' ∧ n = n' := by
  have hlists := congrArg String.toList h
  have hshape : ∀ (session name : String) (n : Nat), (artifactUri session name n).toList =
      "artifact://".toList ++ ((quote [] session).toList ++ '/' ::
        ((quote ['/'] name).toList ++ '/' :: ('v' :: (toString n).toList))) := by
    intro session name n
    show ("artifact://" ++ quote [] session ++ "/" ++ quote ['/'] name ++ "/v" ++ toString n).toList = _
    simp
  rw [hshape, hshape] at hlists
  obtain ⟨hsession, hrest⟩ := split_first (slash_not_mem_quote _) (slash_not_mem_quote _)
    (List.append_cancel_left hlists)
  obtain ⟨hname, hversion⟩ := split_last (slash_not_mem_number _) (slash_not_mem_number _) hrest
  refine ⟨quote_inj (by simp) (String.toList_injective hsession), ?_, ?_⟩
  · have hslash : ∀ c ∈ ['/'], c.toNat < 128 ∧ c ≠ '%' := by decide
    exact quote_inj hslash (String.toList_injective hname)
  · exact toString_inj (String.toList_injective (List.cons.inj hversion).2)

/-! ## Two recordings -/

/-- Two calls are both recorded, one after the other: each adds a version to
its history and a row to the log, and the two differ in identifier, URI and
event. -/
def RecordedBoth (w : World cfg) (s : Machine) (first second : RecordCall) : Prop :=
  ∃ v₁ s₁ v₂ s₂ row₁ row₂, record w first s = (.ok v₁, s₁) ∧ record w second s₁ = (.ok v₂, s₂) ∧
    s₁.ledger.history (first.sessionId, first.output.name) =
      s.ledger.history (first.sessionId, first.output.name) ++ [v₁] ∧
    s₂.ledger.history (second.sessionId, second.output.name) =
      s₁.ledger.history (second.sessionId, second.output.name) ++ [v₂] ∧
    s₂.db.events = s.db.events ++ [row₁, row₂] ∧
    v₁.ref.artifactId ≠ v₂.ref.artifactId ∧ v₁.ref.uri ≠ v₂.ref.uri ∧ row₁.eventId ≠ row₂.eventId

theorem mem_artifactIds {l : LedgerState} {key : ArtifactKey} {v : ArtifactVersion}
    (h : v ∈ l.history key) : v.ref.artifactId ∈ l.artifactIds := by
  have hall : ∀ versions : Histories, v ∈ historyOf key versions →
      v.ref.artifactId ∈ versions.flatMap (fun p => p.2.map (·.ref.artifactId)) := by
    intro versions
    induction versions with
    | nil => exact fun hmem => absurd hmem List.not_mem_nil
    | cons p rest ih =>
      intro hmem
      rw [List.flatMap_cons, List.mem_append]
      rw [historyOf] at hmem
      split at hmem
      · exact .inl (List.mem_map_of_mem hmem)
      · exact .inr (ih hmem)
  exact hall l.versions h

/-- A key is free where no row but one of another key was added. -/
theorem keyFree_added {r : ArtifactRecordRequest} {s' : Machine} {row : EventRow} (h : KeyFree s r)
    (hrows : s'.db.events = s.db.events ++ [row]) (hkey : row.idempotencyKey ≠ some r.idempotencyKey) :
    KeyFree s' r := by
  rw [KeyFree, findKey, hrows, List.find?_append]
  rw [KeyFree, findKey] at h
  rw [h]
  simp [hkey]

/-- Versions recorded one after the other have URIs of their own. -/
theorem uri_ne {r r' : ArtifactRecordRequest} {history history' : List ArtifactVersion} {d d' : Draw}
    (hlonger : r.name = r'.name → history'.length = history.length + 1) :
    (r.version history d).ref.uri ≠ (r'.version history' d').ref.uri := by
  intro heq
  obtain ⟨-, hname, hversion⟩ := artifactUri_inj heq
  have hlength := hlonger hname
  omega

/-- **Two requests of a session are both recorded exactly when their tasks and
names join to different texts or their contents have different digests.** In
every state the calls of an instance alone on its store can reach, of two
requests that were not recorded yet and are accepted when their turn comes.
Where no task holds the separator, different requests are told apart. -/
theorem recorded_both_iff (w : World cfg) (hw : Quiet w) (db : Db) (tick : Nat) (start : Machine)
    (hlog : LogInv db.events) (hstart : newLedger w db tick = (.ok (), start)) (calls : List LedgerCall)
    (first second : RecordCall) (r r' : ArtifactRecordRequest) (hcap : captureRequest first = .ok r)
    (hcap' : captureRequest second = .ok r') (hsession : first.sessionId = second.sessionId) :
    let s := runLedger w calls start
    let s₁ := (record w first s).2
    KeyFree s r → KeyFree s r' → Accepted cfg s r (w.draw (s.tick + 1) s.db) →
    Accepted cfg s₁ r' (w.draw (s₁.tick + 1) s₁.db) →
      (RecordedBoth w s first second ↔
          r.joined ≠ r'.joined ∨ artifactDigest r.content ≠ artifactDigest r'.content) ∧
        (':' ∉ r.taskId.toList → ':' ∉ r'.taskId.toList → (r.taskId, r.name) ≠ (r'.taskId, r'.name) →
          r.joined ≠ r'.joined) := by
  intro s s₁ hfree hfree' haccepted haccepted'
  have hs : Synced cfg s := runLedger_synced hw calls (newLedger_synced hlog hstart)
  obtain ⟨t, row, hrun, hsynced, hhistory, hrows, hstream, hrowkey⟩ :=
    record_inserts hw hs hcap hfree haccepted
  have hs₁ : s₁ = t := by
    show (record w first s).2 = t
    rw [hrun]
  clear_value s₁ s
  subst hs₁
  obtain ⟨-, hkey, -⟩ := captureRequest_ok hcap
  obtain ⟨-, hkey', -⟩ := captureRequest_ok hcap'
  refine ⟨?_, fun htask htask' hdiffer heq => ?_⟩
  · have hkeys : r.idempotencyKey ≠ r'.idempotencyKey ↔
        r.joined ≠ r'.joined ∨ artifactDigest r.content ≠ artifactDigest r'.content := by
      rw [ne_eq, idempotencyKey_eq, not_and_or]
    rw [← hkeys]
    constructor
    · rintro ⟨v₁, _, v₂, s₂, _, _, hfirst, hsecond, -, hgrown, -⟩ heq
      rw [hrun] at hfirst
      obtain ⟨-, rfl⟩ := Prod.mk.inj hfirst
      -- the second request finds the key held, and the ledger stays as it is
      have hnot : ¬Admissible w s₁ second := by
        rintro ⟨request, hcap₂, hfree₂, -⟩
        rw [hcap'] at hcap₂
        obtain rfl := Except.ok.inj hcap₂
        have hmem : row ∈ s₁.db.events := by
          rw [hrows]
          exact List.mem_append_right _ (List.mem_singleton.mpr rfl)
        have hfound := hsynced.sound.log.findKey_eq hmem hrowkey
        have hsame : row.streamId = r'.streamId := by
          rw [hstream, ArtifactRecordRequest.streamId, ArtifactRecordRequest.streamId]
          rw [ArtifactRecordRequest.key, Prod.mk.injEq] at hkey hkey'
          rw [hkey.1, hkey'.1, hsession]
        rw [KeyFree, ← heq, ← hsame, hfound] at hfree₂
        cases hfree₂
      obtain ⟨-, hledger⟩ := record_inadmissible hw hsynced hnot hsecond
      rw [hledger] at hgrown
      have hlength := congrArg List.length hgrown
      rw [List.length_append, List.length_singleton] at hlength
      omega
    · intro hne
      have hfree₁ : KeyFree s₁ r' := by
        apply keyFree_added hfree' hrows
        rw [hrowkey]
        exact fun heq => hne (Option.some.inj heq)
      obtain ⟨s₂, row', hrun', hsynced', hhistory', hrows', -, -⟩ :=
        record_inserts hw hsynced hcap' hfree₁ haccepted'
      have hevents : s₂.db.events = s.db.events ++ [row, row'] := by
        rw [hrows', hrows, List.append_assoc]
        rfl
      refine ⟨_, s₁, _, s₂, row, row', hrun, hrun', hkey ▸ hhistory, hkey' ▸ hhistory', hevents, ?_, ?_, ?_⟩
      · have hheld : r.version (s.ledger.history r.key) (w.draw (s.tick + 1) s.db) ∈
            s₁.ledger.history r.key := by
          rw [hhistory]
          exact List.mem_append_right _ (List.mem_singleton.mpr rfl)
        have hmem := mem_artifactIds hheld
        intro heq
        rw [heq] at hmem
        exact fresh_artifactId (hsynced.tick (s₁.tick + 1)).sound hmem
      · apply uri_ne
        intro hname
        have hkeys : r'.key = r.key := by
          rw [ArtifactRecordRequest.key, Prod.mk.injEq] at hkey hkey'
          rw [ArtifactRecordRequest.key, ArtifactRecordRequest.key, hname, hkey.1, hkey'.1, hsession]
        rw [hkeys, hhistory, List.length_append, List.length_singleton]
      · have hids := hsynced'.sound.log.eventIds
        rw [hevents] at hids
        have hpair := (List.pairwise_append.mp hids).2.1
        exact (List.pairwise_cons.mp hpair).1 row' (List.mem_singleton.mpr rfl)
  · obtain ⟨hsame, hname⟩ := joined_eq htask htask' heq
    exact hdiffer (by rw [hsame, hname])

/-! ## Names that join alike -/

/-- A report of a task, under a name. -/
def reportCall (taskId name : String) (h : isBlank name = false := by decide) : RecordCall :=
  ⟨"s1", taskId, "writer", ⟨name, "v1", "text/markdown", .dict [], h⟩, none, none, none⟩

def emptyMachine : Machine := ⟨Db.empty, .empty, 1⟩

/-- The store after the first of two reports. -/
def afterReport (taskId name : String) (h : isBlank name = false := by decide) : Machine :=
  (record (quietWorld sampleConfig sampleClock) (reportCall taskId name h) emptyMachine).2

/-- Whether a call raised this. -/
def refusedAs (e : StoreError) (reply : Except StoreError ArtifactVersion) : Bool :=
  match reply with
  | .ok _ => false
  | .error e' => e' = e

/-- The request a report is captured as. -/
def reportRequest (taskId name : String) : ArtifactRecordRequest :=
  ⟨"s1", taskId, "writer", name, "v1", "text/markdown", .dict [], none, none, none⟩

/-- The state a recorded call leaves, with the row it added. -/
theorem record_state {call : RecordCall} {r : ArtifactRecordRequest} (hw : Quiet w) (hs : Synced cfg s)
    (hcap : captureRequest call = .ok r) (hfree : KeyFree s r)
    (haccepted : Accepted cfg s r (w.draw (s.tick + 1) s.db)) :
    ∃ d event row stored,
      r.decoded cfg.py (s.ledger.history r.key) (w.draw (s.tick + 1) s.db) = .ok d ∧
      r.event (s.ledger.history r.key) (w.draw (s.tick + 1) s.db) = .ok event ∧
      RowOf cfg s.db.events event row stored ∧
      (record w call s).2 = ⟨{ s.db with events := s.db.events ++ [row] },
        s.ledger.extend d stored.globalPosition, s.tick + 2⟩ := by
  obtain ⟨hm, -⟩ := captureRequest_ok hcap
  obtain ⟨d, u, event, snap, hdec, husage, hev, hsnap, hmax⟩ := haccepted
  obtain ⟨row, stored, hrow, hrun⟩ := admitOnce_state false hw hs hm hfree hdec husage hev hsnap hmax
  refine ⟨d, event, row, stored, hdec, hev, hrow, ?_⟩
  have hlast : (decide (7 = 0)) = false := rfl
  simp only [record, Bind.bind, Txn.lift, hcap, maxRecordAdmissionAttempts, admitRounds, hlast, hrun]
  rfl

/-- A request whose key is held by the row of another artifact is refused. -/
theorem record_taken {call : RecordCall} {r : ArtifactRecordRequest} {row : EventRow} {stored : StoredEvent}
    {d : DecodedArtifactVersion} (hw : Quiet w) (hcap : captureRequest call = .ok r)
    (hfound : findKey s.db.events r.streamId r.idempotencyKey = some row)
    (hread : rowToEvent cfg row = .ok stored) (htype : stored.event.eventType = artifactEventType)
    (hdec : decodePersistedVersion cfg.py stored.event.payload = .ok d) (hkey : d.key ≠ r.key) :
    (record w call s).1 =
      .error ⟨.artifactReplay, "idempotent artifact event does not match the requested key"⟩ := by
  have hlook := lookup_quiet hw s r
  rw [hfound] at hlook
  simp only [Option.elim_some, hread, Except.map] at hlook
  simp only [record, Bind.bind, Txn.lift, hcap, maxRecordAdmissionAttempts, admitRounds, admitOnce, Txn.query,
    hlook, resolveIdempotentVersion, Txn.ensure, htype, hdec, hkey, if_true, if_false]
  rfl

/-- What is drawn over one row whose identifiers have four characters. -/
theorem draw_after {row : EventRow} {d : DecodedArtifactVersion} {db : Db} {t : Nat} (hrows : db.events = [row])
    (hevent : row.eventId.length = 4) (hart : rowArtifact sampleConfig row = some d)
    (hid : d.item.ref.artifactId.length = 4) :
    (quietWorld sampleConfig sampleClock).draw t db = ⟨"aaaa", "aaaa", sampleClock, sampleClock⟩ := by
  have hlongest : longestId sampleConfig db.events = 4 := by
    rw [hrows]
    simp [longestId, maxOf, hevent, hart, hid]
  show (⟨freshHex sampleConfig db.events, freshHex sampleConfig db.events, sampleClock, sampleClock⟩ : Draw) = _
  rw [freshHex, hlongest]
  rfl

/-- What a row of a recorded version holds. -/
theorem rowArtifact_of {r : ArtifactRecordRequest} {history : List ArtifactVersion} {draw : Draw}
    {d : DecodedArtifactVersion} {rows : List EventRow} {event : DomainEvent} {row : EventRow}
    {stored : StoredEvent} (hm : PyJson.Normal r.metadata) (hdec : r.decoded cfg.py history draw = .ok d)
    (hev : r.event history draw = .ok event) (hrow : RowOf cfg rows event row stored) :
    stored.event.eventType = artifactEventType ∧
      decodePersistedVersion cfg.py stored.event.payload = .ok d ∧ rowArtifact cfg row = some d := by
  obtain ⟨-, htype, hpayload, -⟩ := ArtifactRecordRequest.event_ok hev
  obtain ⟨hdecode, -, -⟩ := ArtifactRecordRequest.decoded_ok hm hdec
  have htype' : stored.event.eventType = artifactEventType := by rw [hrow.held, htype]
  have hdecode' : decodePersistedVersion cfg.py stored.event.payload = .ok d := by
    rw [hrow.held, hpayload, hdecode]
  refine ⟨htype', hdecode', ?_⟩
  simp [rowArtifact, hrow.reads, htype', hdecode', Except.toOption]

/-- Whether the second of two requests is accepted after the first, from what
each of them draws. -/
def acceptsAfter (cfg : LedgerConfig) (r r' : ArtifactRecordRequest) (draw draw' : Draw) : Bool :=
  match r.decoded cfg.py [] draw, r'.decoded cfg.py [] draw' with
  | .ok d, .ok d' =>
    (validateReplayUsage cfg.limits ((LedgerState.empty.usage.include d).include d')).isOk &&
      (r'.event [] draw').isOk &&
      storesShort cfg.maxJsonBytes (versionPayload r'.sessionId (r'.version [] draw'))
  | _, _ => false

theorem acceptsAfter_sound {r r' : ArtifactRecordRequest} {draw draw' : Draw} {d : DecodedArtifactVersion}
    (h : acceptsAfter cfg r r' draw draw' = true) (hdec : r.decoded cfg.py [] draw = .ok d) :
    ∃ d' u event snap, r'.decoded cfg.py [] draw' = .ok d' ∧
      validateReplayUsage cfg.limits ((LedgerState.empty.usage.include d).include d') = .ok u ∧
      r'.event [] draw' = .ok event ∧ snapshotEvent cfg event = .ok snap := by
  -- no equation of the definition: its proof would run the two decodings
  delta acceptsAfter at h
  rw [hdec] at h
  cases hdec' : r'.decoded cfg.py [] draw' with
  | error e =>
    rw [hdec'] at h
    cases h
  | ok d' =>
    rw [hdec'] at h
    simp only [Bool.and_eq_true, isOk_iff] at h
    obtain ⟨⟨⟨u, husage⟩, event, hev⟩, hstores⟩ := h
    obtain ⟨-, -, hpayload, -⟩ := ArtifactRecordRequest.event_ok hev
    obtain ⟨text, hencode⟩ := isOk_iff.mp (storesShort_sound hstores)
    have hsnapshot : ∃ snap, snapshotEvent cfg event = .ok snap :=
      snapshotEvent_of (by rw [hpayload]; exact hencode)
    obtain ⟨snap, hsnap⟩ := hsnapshot
    exact ⟨d', u, event, snap, rfl, husage, hev, hsnap⟩

/-- What the first of two reports of a task draws, and the second. -/
def drawn (hex : String) : Draw := ⟨hex, hex, sampleClock, sampleClock⟩

theorem second_accepted : acceptsAfter sampleConfig (reportRequest "a" "b") (reportRequest "a" "c") (drawn "")
    (drawn "aaaa") = true := by
  decide +kernel

/-- The sample machine after its first report, in any world that draws so. -/
theorem first_report {w : World sampleConfig} {call : RecordCall} {r : ArtifactRecordRequest} (hw : Quiet w)
    (hs : Synced sampleConfig emptyMachine) (hdraw : w.draw 2 Db.empty = drawn "")
    (hcap : captureRequest call = .ok r) (hadm : Admissible w emptyMachine call) :
    ∃ d event row stored, r.decoded sampleConfig.py [] (drawn "") = .ok d ∧ r.event [] (drawn "") = .ok event ∧
      RowOf sampleConfig [] event row stored ∧
      (record w call emptyMachine).2 =
        ⟨{ Db.empty with events := [row] }, LedgerState.empty.extend d stored.globalPosition, 3⟩ := by
  obtain ⟨r', hcap', hfree, haccepted⟩ := hadm
  rw [hcap] at hcap'
  obtain rfl := Except.ok.inj hcap'
  obtain ⟨d, event, row, stored, hdec, hev, hrow, hstate⟩ := record_state hw hs hcap hfree haccepted
  have hhistory : emptyMachine.ledger.history r.key = [] := rfl
  have hdraw' : w.draw (emptyMachine.tick + 1) emptyMachine.db = drawn "" := hdraw
  rw [hhistory, hdraw'] at hdec hev
  exact ⟨d, event, row, stored, hdec, hev, hrow, hstate⟩

/-- A second report of the task, under another name, is accepted. -/
theorem second_report {w : World sampleConfig} {t : Machine} {row : EventRow} {stored : StoredEvent}
    {d : DecodedArtifactVersion} {event : DomainEvent}
    (hw : w.draw = (quietWorld sampleConfig sampleClock).draw)
    (hdec : (reportRequest "a" "b").decoded sampleConfig.py [] (drawn "") = .ok d)
    (hev : (reportRequest "a" "b").event [] (drawn "") = .ok event)
    (hrow : RowOf sampleConfig [] event row stored)
    (ht : t = ⟨{ Db.empty with events := [row] }, LedgerState.empty.extend d stored.globalPosition, 3⟩) :
    Accepted sampleConfig t (reportRequest "a" "c") (w.draw (t.tick + 1) t.db) := by
  have hm : PyJson.Normal (reportRequest "a" "b").metadata := by
    simp [reportRequest, PyJson.Normal, PyJson.NormalPairs, PyJson.SortedKeys]
  obtain ⟨-, -, hart⟩ := rowArtifact_of hm hdec hev hrow
  obtain ⟨-, hkey, hitem⟩ := ArtifactRecordRequest.decoded_ok hm hdec
  obtain ⟨-, -, -, heventId, -, -⟩ := ArtifactRecordRequest.event_ok hev
  have hrowId : row.eventId.length = 4 := by
    rw [← rowToEvent_eventId hrow.reads, hrow.held, heventId]
    decide
  have hartId : d.item.ref.artifactId.length = 4 := by
    rw [hitem]
    show ("art_" ++ "").length = 4
    decide
  have hhistory : t.ledger.history (reportRequest "a" "c").key = [] := by
    rw [ht, LedgerState.history_extend, hkey, if_neg (by decide)]
    rfl
  have hdraw : w.draw (t.tick + 1) t.db = drawn "aaaa" := by
    rw [hw]
    exact draw_after (by rw [ht]) hrowId hart hartId
  have hposition : maxOf (·.globalPosition) t.db.events = 1 := by
    have hpos := hrow.position
    rw [ht]
    simpa [maxOf] using hpos
  obtain ⟨d', u, event', snap, hdec', husage, hev', hsnap⟩ := acceptsAfter_sound second_accepted hdec
  have husage' : validateReplayUsage sampleConfig.limits (t.ledger.usage.include d') = .ok u := by
    rw [ht]
    exact husage
  refine ⟨d', u, event', snap, ?_, husage', ?_, hsnap, ?_⟩
  · rw [hhistory, hdraw]
    exact hdec'
  · rw [hhistory, hdraw]
    exact hev'
  · rw [hposition]
    decide

theorem capture_report_b : captureRequest (reportCall "a" "b") = .ok (reportRequest "a" "b") := by
  rfl

theorem capture_report_c : captureRequest (reportCall "a" "c") = .ok (reportRequest "a" "c") := by
  rfl

/-- The first report alone is admissible. -/
theorem admits_first : admits (quietWorld sampleConfig sampleClock) emptyMachine (reportCall "a" "b") = true := by
  apply admits_of_short
  decide +kernel

/-- Two reports of one task are both recorded. -/
theorem recorded_both_iff_reports :
    RecordedBoth (quietWorld sampleConfig sampleClock)
      (runLedger (quietWorld sampleConfig sampleClock) [] emptyMachine) (reportCall "a" "b")
      (reportCall "a" "c") := by
  -- of any world that draws so, so that no state is computed on the way
  have hboth : ∀ (w : World sampleConfig), Quiet w → newLedger w Db.empty 0 = (.ok (), emptyMachine) →
      w.draw = (quietWorld sampleConfig sampleClock).draw → Admissible w emptyMachine (reportCall "a" "b") →
        RecordedBoth w (runLedger w [] emptyMachine) (reportCall "a" "b") (reportCall "a" "c") := by
    intro w hw hstart hdraws hfirst
    have hs : Synced sampleConfig emptyMachine := newLedger_synced logInv_nil hstart
    have hdraw : w.draw 2 Db.empty = drawn "" := by rw [hdraws]; rfl
    obtain ⟨d, event, row, stored, hdec, hev, hrow, hstate⟩ :=
      first_report hw hs hdraw capture_report_b hfirst
    have hsecond := second_report hdraws hdec hev hrow hstate
    obtain ⟨r, hcap, hfree, haccepted⟩ := hfirst
    rw [capture_report_b] at hcap
    obtain rfl := Except.ok.inj hcap
    apply (recorded_both_iff w hw Db.empty 0 emptyMachine logInv_nil hstart [] (reportCall "a" "b")
      (reportCall "a" "c") _ _ capture_report_b capture_report_c rfl hfree rfl haccepted hsecond).1.mpr
    exact .inl (by decide)
  exact hboth _ (quietWorld_quiet sampleConfig sampleClock) newLedger_quiet rfl (admits_sound admits_first)

theorem capture_joined : captureRequest (reportCall "a:b" "c") = .ok (reportRequest "a:b" "c") := by
  rfl

theorem capture_joined_other : captureRequest (reportCall "a" "b:c") = .ok (reportRequest "a" "b:c") := by
  rfl

theorem admits_joined :
    admits (quietWorld sampleConfig sampleClock) emptyMachine (reportCall "a:b" "c") = true := by
  apply admits_of_short
  decide +kernel

/-- The second report meets the row of the first. -/
theorem refused_after {w : World sampleConfig} (hw : Quiet w) (hs : Synced sampleConfig emptyMachine)
    (hdraw : w.draw 2 Db.empty = drawn "") (hadm : Admissible w emptyMachine (reportCall "a:b" "c")) :
    (record w (reportCall "a" "b:c") (record w (reportCall "a:b" "c") emptyMachine).2).1 =
      .error ⟨.artifactReplay, "idempotent artifact event does not match the requested key"⟩ := by
  have hm : PyJson.Normal (reportRequest "a:b" "c").metadata := by
    simp [reportRequest, PyJson.Normal, PyJson.NormalPairs, PyJson.SortedKeys]
  obtain ⟨d, event, row, stored, hdec, hev, hrow, hstate⟩ := first_report hw hs hdraw capture_joined hadm
  obtain ⟨htype, hdecode, -⟩ := rowArtifact_of hm hdec hev hrow
  obtain ⟨-, hkey, -⟩ := ArtifactRecordRequest.decoded_ok hm hdec
  obtain ⟨hstream, -, -, -, -, hrowKey⟩ := ArtifactRecordRequest.event_ok hev
  have hsame : (reportRequest "a:b" "c").idempotencyKey = (reportRequest "a" "b:c").idempotencyKey :=
    (idempotencyKey_eq _ _).mpr ⟨by decide, rfl⟩
  have hfound : findKey [row] (reportRequest "a" "b:c").streamId (reportRequest "a" "b:c").idempotencyKey =
      some row := by
    have hstream' : row.streamId = (reportRequest "a" "b:c").streamId := by
      rw [hrow.stream, hstream]
      rfl
    have hkey' : row.idempotencyKey = some (reportRequest "a" "b:c").idempotencyKey := by
      rw [hrow.key, hrowKey, hsame]
    simp [findKey, hstream', hkey']
  rw [hstate]
  exact record_taken hw capture_joined_other hfound hrow.reads htype hdecode (by rw [hkey]; decide)

/-- **Reports of different tasks under different names are taken for one
another**: either is recorded alone, and the second is refused. -/
theorem joined_names :
    newLedger (quietWorld sampleConfig sampleClock) Db.empty 0 = (.ok (), emptyMachine) ∧
      admits (quietWorld sampleConfig sampleClock) emptyMachine (reportCall "a:b" "c") = true ∧
      admits (quietWorld sampleConfig sampleClock) emptyMachine (reportCall "a" "b:c") = true ∧
      refusedAs ⟨.artifactReplay, "idempotent artifact event does not match the requested key"⟩
        (record (quietWorld sampleConfig sampleClock) (reportCall "a" "b:c") (afterReport "a:b" "c")).1 =
          true := by
  have hother : admits (quietWorld sampleConfig sampleClock) emptyMachine (reportCall "a" "b:c") = true := by
    apply admits_of_short
    decide +kernel
  have hdraw : (quietWorld sampleConfig sampleClock).draw 2 Db.empty = drawn "" := rfl
  have hrefused := refused_after (quietWorld_quiet sampleConfig sampleClock)
    (newLedger_synced logInv_nil newLedger_quiet) hdraw (admits_sound admits_joined)
  refine ⟨newLedger_quiet, admits_joined, hother, ?_⟩
  rw [afterReport, hrefused]
  simp [refusedAs]

end QuantumEntanglement.Artifacts
