import QuantumEntanglement.Lib.Rfc3339
import QuantumEntanglement.Lib.Sha256
import QuantumEntanglement.Store.Json
import QuantumEntanglement.Store.Timestamps

/-
  Invocation records — job requests, job and attempt rows, leases

  The attempt store writes a moment in one spelling, with six fraction digits,
  so its texts are compared as texts. `rowToJob` and `rowToAttempt` accept a
  row whole or reject it with one error; `JobOk` and `AttemptOk` are the
  conditions. An accepted row is the object the code builds from it, field by
  field, so it is returned as it is.

  What is proved:
    1. `persistedTimestamp_iff` — the stored timestamps are the texts of
       moments.
    2. `normalizeTimestamp_idem` — a normalized timestamp is its own normal
       form.
-/

namespace QuantumEntanglement.Attempts

open PyText IsoTime Sha256

def maxErrorLength : Nat := 4096
def maxIdentityBytes : Nat := 4096
def maxReferenceBytes : Nat := 16384
def maxErrorBytes : Nat := 16384

/-! ## Texts -/

/-- `ord(character) < 0x20 or ord(character) == 0x7F`. -/
def isControl (c : Char) : Bool := c.toNat < 0x20 || c.toNat == 0x7F

/-- What `_required` and `_persisted_text` ask of a text. -/
def TextOk (maximumBytes : Nat) (value : String) : Prop :=
  isBlank value = false ∧ value.utf8ByteSize ≤ maximumBytes ∧ value.toList.any isControl = false

instance (maximumBytes : Nat) (value : String) : Decidable (TextOk maximumBytes value) :=
  inferInstanceAs (Decidable (_ ∧ _ ∧ _))

/-- `_required`. -/
def required (value name : String) (maximumBytes : Nat) : Except StoreError String :=
  if isBlank value then .error ⟨.valueError, name ++ " is required"⟩
  else if maximumBytes < value.utf8ByteSize then
    .error ⟨.valueError, name ++ " exceeds its byte limit"⟩
  else if value.toList.any isControl then
    .error ⟨.valueError, name ++ " contains a control character"⟩
  else .ok value

theorem required_ok {value name v : String} {maximumBytes : Nat} :
    required value name maximumBytes = .ok v ↔ TextOk maximumBytes value ∧ v = value := by
  unfold required TextOk
  split
  next h => simp [h]
  next h =>
    split
    next hb => simp [Nat.not_le.mpr hb]
    next hb =>
      split
      next hc => simp [hc]
      next hc =>
        simp only [Bool.not_eq_true] at h hc
        simp [h, hc, Nat.not_lt.mp hb, eq_comm]

/-! ## Timestamps -/

/-- A UTC moment as the attempt store writes it. -/
def microText (m : Int) : String := String.ofList (isoformatMicros m)

/-- `_normalize_timestamp`. -/
def normalizeTimestamp (py : PyVersion) (value name : String) : Except StoreError String :=
  if !isRfc3339 value.toList || "-00:00".toList.isSuffixOf value.toList then
    .error ⟨.valueError, name ++ " must be a strict RFC 3339 timestamp"⟩
  else
    match readTimestamp py value with
    | none => .error ⟨.valueError, name ++ " must be an RFC 3339 timestamp"⟩
    | some r =>
      match r.offset with
      | none => .error ⟨.valueError, name ++ " must include a timezone"⟩
      | some o =>
        if InRange (r.moment o) then .ok (microText (r.moment o))
        else .error ⟨.valueError, name ++ " must be an RFC 3339 timestamp"⟩

theorem normalizeTimestamp_ok {py : PyVersion} {value name text : String}
    (h : normalizeTimestamp py value name = .ok text) :
    ∃ m, InRange m ∧ timestampMoment py value name = .ok m ∧ text = microText m := by
  unfold normalizeTimestamp at h
  split at h
  · simp at h
  · split at h
    · simp at h
    next r hr =>
      split at h
      · simp at h
      next o ho =>
        split at h
        next hin =>
          rw [Except.ok.injEq] at h
          exact ⟨_, hin, timestampMoment_ok.mpr ⟨r, o, hr, ho, hin, rfl⟩, h.symm⟩
        · simp at h

theorem readTimestamp_microText {py : PyVersion} {m : Int} (h : InRange m) :
    readTimestamp py (microText m) = some (microReading m) := by
  rw [readTimestamp, microText, String.toList_ofList, fromisoformat_isoformatMicros h]

theorem microText_noSuffix (m : Int) : "-00:00".toList.isSuffixOf (microText m).toList = false := by
  have hlast : (microText m).toList.getLast? = some 'Z' := by
    rw [microText, String.toList_ofList, isoformatMicros]
    exact List.getLast?_concat
  rw [← Bool.not_eq_true, List.isSuffixOf_iff_suffix]
  rintro ⟨pre, hpre⟩
  rw [← hpre] at hlast
  simp at hlast

/-- **The text of a moment is its own normal form.** -/
theorem normalizeTimestamp_microText {py : PyVersion} {m : Int} (h : InRange m) (name : String) :
    normalizeTimestamp py (microText m) name = .ok (microText m) := by
  have hmoment := microReading_moment h
  have hrfc : isRfc3339 (microText m).toList = true := by
    rw [microText, String.toList_ofList]
    exact isRfc3339_isoformatMicros m
  have hoffset : (microReading m).offset = some 0 := rfl
  simp only [normalizeTimestamp, hrfc, microText_noSuffix, readTimestamp_microText h, hoffset,
    hmoment, h, Bool.not_true, Bool.or_self, Bool.false_eq_true, if_false, if_true]

/-- **Normalizing twice changes nothing more.** -/
theorem normalizeTimestamp_idem {py : PyVersion} {value name text : String}
    (h : normalizeTimestamp py value name = .ok text) (name' : String) :
    normalizeTimestamp py text name' = .ok text := by
  obtain ⟨m, hm, -, rfl⟩ := normalizeTimestamp_ok h
  exact normalizeTimestamp_microText hm name'

/-- `_persisted_timestamp`. -/
def PersistedTimestamp (py : PyVersion) (value : String) : Prop :=
  TextOk maxIdentityBytes value ∧ normalizeTimestamp py value "persisted timestamp" = .ok value

instance (py : PyVersion) (value : String) : Decidable (PersistedTimestamp py value) :=
  inferInstanceAs (Decidable (_ ∧ _))

/-- `_persisted_digest`. -/
def PersistedDigest (value : String) : Prop :=
  TextOk maxIdentityBytes value ∧ IsHexDigest value

instance (value : String) : Decidable (PersistedDigest value) :=
  inferInstanceAs (Decidable (_ ∧ _))

/-- The characters the store's own texts are made of. -/
def isPlain (c : Char) : Bool := 0x21 ≤ c.toNat && c.toNat < 0x7F

theorem textOk_of_plain {value : String} {maximumBytes : Nat} (hne : value ≠ "")
    (hplain : ∀ c ∈ value.toList, isPlain c = true) (hlen : value.length ≤ maximumBytes) :
    TextOk maximumBytes value := by
  have hcode : ∀ c ∈ value.toList, 0x21 ≤ c.toNat ∧ c.toNat < 0x7F := by
    intro c hc
    simpa [isPlain] using hplain c hc
  refine ⟨?_, ?_, ?_⟩
  · cases hval : value.toList with
    | nil => exact absurd (String.toList_eq_nil_iff.mp hval) hne
    | cons c rest =>
      obtain ⟨hlo, hhi⟩ := hcode c (by simp [hval])
      have hspace : isSpace c = false := by
        simp [isSpace]
        omega
      simp [isBlank, hval, hspace]
  · have hsize : ∀ l : List Char, (∀ c ∈ l, 0x21 ≤ c.toNat ∧ c.toNat < 0x7F) →
        (String.ofList l).utf8ByteSize = l.length := by
      intro l hl
      induction l with
      | nil => rfl
      | cons c rest ih =>
        have hc := hl c (by simp)
        have hone : c.utf8Size = 1 := by
          rw [Char.utf8Size_eq_one_iff]
          rw [UInt32.le_iff_toNat_le]
          have : c.val.toNat = c.toNat := rfl
          simp only [this, UInt32.reduceToNat]
          omega
        rw [String.ofList_cons, String.utf8ByteSize_append, ih (fun d hd => hl d (by simp [hd])),
          String.utf8ByteSize_singleton, hone, List.length_cons, Nat.add_comm]
    have := hsize value.toList hcode
    rw [String.ofList_toList] at this
    rw [this, String.length_toList]
    exact hlen
  · rw [List.any_eq_false]
    intro c hc
    obtain ⟨hlo, hhi⟩ := hcode c hc
    simp [isControl]
    omega

/-- The characters of a moment's text: digits and punctuation. -/
theorem microText_plain {m : Int} {c : Char} (hc : c ∈ (microText m).toList) : isPlain c = true := by
  have hdigit : ∀ d : Char, d.isDigit = true → isPlain d = true := by
    intro d hd
    simp only [Char.isDigit, Bool.and_eq_true, decide_eq_true_eq, UInt32.le_iff_toNat_le] at hd
    have hlo : 48 ≤ d.toNat := hd.1
    have hhi : d.toNat ≤ 57 := hd.2
    simp [isPlain]
    omega
  have hpad2 : ∀ n, ∀ d ∈ pad2 n, isPlain d = true := by
    intro n d hd
    simp only [pad2, List.mem_cons, List.not_mem_nil, or_false] at hd
    rcases hd with rfl | rfl <;> exact hdigit _ (digitOf_isDigit _)
  have hpad6 : ∀ n, ∀ d ∈ pad6 n, isPlain d = true := fun n d hd => hdigit d (pad6_isDigit hd)
  simp only [microText, String.toList_ofList, isoformatMicros, pad4, List.mem_append, List.mem_cons,
    List.not_mem_nil, or_false] at hc
  rcases hc with (((((((h | h) | rfl | h) | rfl | h) | rfl | h) | rfl | h) | rfl | h) | rfl | h) | rfl
  all_goals first
    | exact hpad2 _ _ h
    | exact hpad6 _ _ h
    | decide

theorem microText_length (m : Int) : (microText m).length = 27 := by
  rw [microText, String.length_ofList]
  simp [isoformatMicros, pad4, pad2, pad6]

theorem microText_textOk (m : Int) {maximumBytes : Nat} (h : 27 ≤ maximumBytes) :
    TextOk maximumBytes (microText m) := by
  have hlen := microText_length m
  refine textOk_of_plain ?_ (fun c hc => microText_plain hc) (by omega)
  intro e
  rw [e] at hlen
  simp at hlen

/-- **The stored timestamps are the texts of moments.** -/
theorem persistedTimestamp_iff {py : PyVersion} {value : String} :
    PersistedTimestamp py value ↔ ∃ m, InRange m ∧ value = microText m := by
  constructor
  · rintro ⟨-, h⟩
    obtain ⟨m, hm, -, htext⟩ := normalizeTimestamp_ok h
    exact ⟨m, hm, htext⟩
  · rintro ⟨m, hm, rfl⟩
    exact ⟨microText_textOk m (by decide), normalizeTimestamp_microText hm _⟩

/-- What is normalized can be stored. -/
theorem persisted_of_normalized {py : PyVersion} {value name text : String}
    (h : normalizeTimestamp py value name = .ok text) : PersistedTimestamp py text := by
  obtain ⟨m, hm, -, rfl⟩ := normalizeTimestamp_ok h
  exact persistedTimestamp_iff.mpr ⟨m, hm, rfl⟩

/-- A digest is a plain text of 64 characters. -/
theorem textOk_of_hex {value : String} {maximumBytes : Nat} (h : IsHexDigest value)
    (hmax : 64 ≤ maximumBytes) : TextOk maximumBytes value := by
  refine textOk_of_plain ?_ ?_ ?_
  · intro e
    have hlen := h.1
    rw [e] at hlen
    simp at hlen
  · intro c hc
    have hhex := h.2 c hc
    simp only [isLowerHex, Char.isDigit, Bool.or_eq_true, Bool.and_eq_true, decide_eq_true_eq,
      UInt32.le_iff_toNat_le, Char.le_def] at hhex
    have hval : c.val.toNat = c.toNat := rfl
    simp only [hval] at hhex
    have ha : ('a' : Char).val.toNat = 97 := by decide
    have hf : ('f' : Char).val.toNat = 102 := by decide
    have h0 : ('0' : Char).val.toNat = 48 := by decide
    have h9 : ('9' : Char).val.toNat = 57 := by decide
    rw [ha, hf, h0, h9] at hhex
    simp [isPlain]
    omega
  · rw [h.1]
    exact hmax

/-- A digest the store computed can be stored. -/
theorem persistedDigest_hexDigest (text : String) : PersistedDigest (hexDigest text) :=
  ⟨textOk_of_hex (hexDigest_canonical text) (by decide), hexDigest_canonical text⟩

/-- `_lease_deadline` at a normalized time. -/
def leaseDeadline (py : PyVersion) (now : String) (leaseMicros : Nat) : Except StoreError String := do
  let m ← timestampMoment py now "now"
  if InRange (m + leaseMicros) then
    if now < microText (m + leaseMicros) then .ok (microText (m + leaseMicros))
    else .error ⟨.valueError, "lease_seconds is below the durable timestamp precision"⟩
  else .error ⟨.valueError, "lease_seconds exceeds the supported datetime range"⟩

theorem leaseDeadline_ok {py : PyVersion} {now text : String} {lease : Nat}
    (h : leaseDeadline py now lease = .ok text) : now < text ∧ PersistedTimestamp py text := by
  simp only [leaseDeadline, except_bind_ok] at h
  obtain ⟨m, -, h⟩ := h
  split at h
  next hin =>
    split at h
    next hlt =>
      rw [Except.ok.injEq] at h
      subst h
      exact ⟨hlt, persistedTimestamp_iff.mpr ⟨_, hin, rfl⟩⟩
    next => simp at h
  next => simp at h

/-! ## Job requests -/

/-- `InvocationJobSpec.__post_init__`. A negative number is none of the
numbers it accepts, so the two counts are natural. -/
def checkSpec (py : PyVersion) (sessionId planId taskId agentId idempotencyKey invocationId
    payloadDigest : String) (priority maxAttempts : Nat) (availableAt : Option String) :
    Except StoreError Unit := do
  let _ ← required sessionId "session_id" maxIdentityBytes
  let _ ← required planId "plan_id" maxIdentityBytes
  let _ ← required taskId "task_id" maxIdentityBytes
  let _ ← required agentId "agent_id" maxIdentityBytes
  let _ ← required idempotencyKey "idempotency_key" maxIdentityBytes
  let _ ← required invocationId "invocation_id" maxIdentityBytes
  if ¬IsHexDigest payloadDigest then
    .error ⟨.valueError, "payload_digest must be a lowercase SHA-256 hex digest"⟩
  else if 100 < priority then .error ⟨.valueError, "priority must be between 0 and 100"⟩
  else if ¬(1 ≤ maxAttempts ∧ maxAttempts ≤ maxSqliteInteger) then
    .error ⟨.valueError, "max_attempts must fit a positive SQLite integer"⟩
  else
    match availableAt with
    | none => .ok ()
    | some text => do
      let _ ← normalizeTimestamp py text "available_at"
      .ok ()

/-- An immutable request for one task invocation. -/
structure InvocationJobSpec (py : PyVersion) where
  sessionId : String
  planId : String
  taskId : String
  agentId : String
  idempotencyKey : String
  payloadDigest : String
  invocationId : String
  priority : Nat
  maxAttempts : Nat
  availableAt : Option String
  accepted : checkSpec py sessionId planId taskId agentId idempotencyKey invocationId payloadDigest
    priority maxAttempts availableAt = .ok ()
  deriving DecidableEq

/-- What an accepted request guarantees. -/
structure SpecOk {py : PyVersion} (spec : InvocationJobSpec py) : Prop where
  sessionId : TextOk maxIdentityBytes spec.sessionId
  planId : TextOk maxIdentityBytes spec.planId
  taskId : TextOk maxIdentityBytes spec.taskId
  agentId : TextOk maxIdentityBytes spec.agentId
  idempotencyKey : TextOk maxIdentityBytes spec.idempotencyKey
  invocationId : TextOk maxIdentityBytes spec.invocationId
  payloadDigest : IsHexDigest spec.payloadDigest
  priority : spec.priority ≤ 100
  maxAttempts : 1 ≤ spec.maxAttempts ∧ spec.maxAttempts ≤ maxSqliteInteger
  availableAt : ∀ text, spec.availableAt = some text →
    ∃ t, normalizeTimestamp py text "available_at" = .ok t

theorem InvocationJobSpec.ok {py : PyVersion} (spec : InvocationJobSpec py) : SpecOk spec := by
  have h := spec.accepted
  simp only [checkSpec, except_bind_ok, required_ok] at h
  obtain ⟨_, ⟨h₁, -⟩, _, ⟨h₂, -⟩, _, ⟨h₃, -⟩, _, ⟨h₄, -⟩, _, ⟨h₅, -⟩, _, ⟨h₆, -⟩, h⟩ := h
  split at h
  · simp at h
  next hdigest =>
    split at h
    · simp at h
    next hpriority =>
      split at h
      · simp at h
      next hmax =>
        refine ⟨h₁, h₂, h₃, h₄, h₅, h₆, not_not.mp hdigest, Nat.not_lt.mp hpriority, not_not.mp hmax,
          fun text htext => ?_⟩
        rw [htext] at h
        simp only [except_bind_ok] at h
        obtain ⟨t, ht, -⟩ := h
        exact ⟨t, ht⟩

/-- The normal form of the requested time; the constructor proved there is
one. -/
def InvocationJobSpec.requestedAvailableAt {py : PyVersion} (spec : InvocationJobSpec py) :
    Except StoreError (Option String) :=
  match spec.availableAt with
  | none => .ok none
  | some text => (normalizeTimestamp py text "available_at").map some

/-- A worker's proof that it owns an attempt. -/
structure InvocationLease where
  invocationId : String
  sessionId : String
  planId : String
  taskId : String
  agentId : String
  idempotencyKey : String
  payloadDigest : String
  attemptId : String
  attemptNumber : Nat
  maxAttempts : Nat
  leaseEpoch : Nat
  workerId : String
  leaseToken : String
  claimedAt : String
  leaseExpiresAt : String
  deriving DecidableEq

/-! ## Rows -/

/-- The counts of a job and what its status says about them. -/
def JobCountsOk (row : JobRow) : Prop :=
  (1 ≤ row.maxAttempts ∧ row.maxAttempts ≤ maxSqliteInteger) ∧
  row.attemptsStarted ≤ row.maxAttempts ∧
  row.leaseEpoch ≤ maxSqliteInteger ∧
  row.attemptsStarted ≤ row.leaseEpoch ∧
  (row.attemptsStarted = 0 → row.leaseEpoch = 0) ∧
  (row.status = .failed → row.attemptsStarted = row.maxAttempts) ∧
  (row.status = .queued → row.attemptsStarted = 0 ∨ row.attemptsStarted < row.maxAttempts) ∧
  (row.status = .running → row.attemptsStarted ≠ 0) ∧
  (row.status = .succeeded ∨ row.status = .failed → row.attemptsStarted ≠ 0) ∧
  row.priority ≤ 100

instance (row : JobRow) : Decidable (JobCountsOk row) :=
  inferInstanceAs (Decidable (_ ∧ _ ∧ _ ∧ _ ∧ _ ∧ _ ∧ _ ∧ _ ∧ _ ∧ _))

/-- The lease columns: all set while the job runs, none otherwise. -/
def JobLeaseOk (py : PyVersion) (row : JobRow) : Prop :=
  (∀ v ∈ row.leaseOwner, TextOk maxIdentityBytes v) ∧
  (∀ v ∈ row.leaseTokenDigest, PersistedDigest v) ∧
  (∀ v ∈ row.leaseExpiresAt, PersistedTimestamp py v) ∧
  (∀ v ∈ row.heartbeatAt, PersistedTimestamp py v) ∧
  (row.status = .running → row.leaseOwner.isSome ∧ row.leaseTokenDigest.isSome ∧
    row.leaseExpiresAt.isSome ∧ row.heartbeatAt.isSome) ∧
  (row.status ≠ .running → row.leaseOwner = none ∧ row.leaseTokenDigest = none ∧
    row.leaseExpiresAt = none ∧ row.heartbeatAt = none)

instance (py : PyVersion) (row : JobRow) : Decidable (JobLeaseOk py row) :=
  inferInstanceAs (Decidable (_ ∧ _ ∧ _ ∧ _ ∧ _ ∧ _))

/-- The end of a job: its finish, its error and its result. -/
def JobOutcomeOk (py : PyVersion) (row : JobRow) : Prop :=
  (∀ v ∈ row.finishedAt, PersistedTimestamp py v) ∧
  ((row.status = .succeeded ∨ row.status = .failed ∨ row.status = .canceled) ↔
    row.finishedAt.isSome) ∧
  (∀ v ∈ row.lastError, TextOk maxErrorBytes v ∧ v.length ≤ maxErrorLength) ∧
  (row.attemptsStarted = 0 → row.lastError = none) ∧
  (row.status = .failed ∨ (row.status = .queued ∧ 0 < row.attemptsStarted) →
    row.lastError.isSome) ∧
  (∀ v ∈ row.resultRef, TextOk maxReferenceBytes v) ∧
  (row.resultRef.isSome → row.status = .succeeded)

instance (py : PyVersion) (row : JobRow) : Decidable (JobOutcomeOk py row) :=
  inferInstanceAs (Decidable (_ ∧ _ ∧ _ ∧ _ ∧ _ ∧ _ ∧ _))

/-- The times of a job and their order. -/
def JobTimesOk (py : PyVersion) (row : JobRow) : Prop :=
  (∀ v ∈ row.requestedAvailableAt, PersistedTimestamp py v) ∧
  PersistedTimestamp py row.availableAt ∧
  PersistedTimestamp py row.createdAt ∧
  PersistedTimestamp py row.updatedAt ∧
  ¬row.updatedAt < row.createdAt ∧
  (∀ v ∈ row.finishedAt, ¬v < row.createdAt ∧ ¬row.updatedAt < v) ∧
  (row.status = .running →
    (∀ v ∈ row.heartbeatAt, ¬v < row.createdAt ∧ ¬row.updatedAt < v ∧
      ∀ e ∈ row.leaseExpiresAt, v < e) ∧
    ∀ e ∈ row.leaseExpiresAt, row.updatedAt < e)

instance (py : PyVersion) (row : JobRow) : Decidable (JobTimesOk py row) :=
  inferInstanceAs (Decidable (_ ∧ _ ∧ _ ∧ _ ∧ _ ∧ _ ∧ _))

/-- The identities of a job. -/
def JobTextsOk (row : JobRow) : Prop :=
  TextOk maxIdentityBytes row.invocationId ∧ TextOk maxIdentityBytes row.sessionId ∧
  TextOk maxIdentityBytes row.planId ∧ TextOk maxIdentityBytes row.taskId ∧
  TextOk maxIdentityBytes row.agentId ∧ TextOk maxIdentityBytes row.idempotencyKey ∧
  PersistedDigest row.payloadDigest

instance (row : JobRow) : Decidable (JobTextsOk row) :=
  inferInstanceAs (Decidable (_ ∧ _ ∧ _ ∧ _ ∧ _ ∧ _ ∧ _))

/-- The rows `_row_to_job` accepts. -/
structure JobOk (py : PyVersion) (row : JobRow) : Prop where
  counts : JobCountsOk row
  lease : JobLeaseOk py row
  outcome : JobOutcomeOk py row
  times : JobTimesOk py row
  texts : JobTextsOk row

instance (py : PyVersion) (row : JobRow) : Decidable (JobOk py row) :=
  decidable_of_iff (JobCountsOk row ∧ JobLeaseOk py row ∧ JobOutcomeOk py row ∧ JobTimesOk py row ∧
      JobTextsOk row)
    ⟨fun ⟨h₁, h₂, h₃, h₄, h₅⟩ => ⟨h₁, h₂, h₃, h₄, h₅⟩, fun h => ⟨h.1, h.2, h.3, h.4, h.5⟩⟩

/-- `_row_to_job`. -/
def rowToJob (py : PyVersion) (row : JobRow) : Except StoreError JobRow :=
  if JobOk py row then .ok row
  else .error ⟨.invocationIntegrity, "persisted invocation job is malformed"⟩

theorem rowToJob_ok {py : PyVersion} {row job : JobRow} :
    rowToJob py row = .ok job ↔ JobOk py row ∧ job = row := by
  unfold rowToJob
  split
  next h => simp [h, eq_comm]
  next h => simp [h]

/-- The rows `_row_to_attempt` accepts. -/
def AttemptOk (py : PyVersion) (row : AttemptRow) : Prop :=
  (1 ≤ row.attemptNumber ∧ row.attemptNumber ≤ maxSqliteInteger) ∧
  (1 ≤ row.leaseEpoch ∧ row.leaseEpoch ≤ maxSqliteInteger) ∧
  row.attemptNumber ≤ row.leaseEpoch ∧
  (∀ v ∈ row.finishedAt, PersistedTimestamp py v) ∧
  (row.status = .running ↔ row.finishedAt = none) ∧
  (∀ v ∈ row.error, TextOk maxErrorBytes v ∧ v.length ≤ maxErrorLength) ∧
  (row.status = .running ∨ row.status = .succeeded → row.error = none) ∧
  (row.status = .failed ∨ row.status = .expired → row.error.isSome) ∧
  PersistedTimestamp py row.startedAt ∧
  PersistedTimestamp py row.heartbeatAt ∧
  PersistedTimestamp py row.leaseExpiresAt ∧
  ¬row.heartbeatAt < row.startedAt ∧
  row.heartbeatAt < row.leaseExpiresAt ∧
  (∀ v ∈ row.finishedAt, ¬v < row.startedAt ∧ ¬v < row.heartbeatAt ∧
    (row.status = .succeeded ∨ row.status = .failed → v < row.leaseExpiresAt) ∧
    (row.status = .expired → ¬v < row.leaseExpiresAt)) ∧
  (∀ v ∈ row.resultRef, TextOk maxReferenceBytes v) ∧
  (row.resultRef.isSome → row.status = .succeeded) ∧
  TextOk maxIdentityBytes row.attemptId ∧ TextOk maxIdentityBytes row.invocationId ∧
  TextOk maxIdentityBytes row.workerId ∧ PersistedDigest row.leaseTokenDigest

instance (py : PyVersion) (row : AttemptRow) : Decidable (AttemptOk py row) := by
  unfold AttemptOk
  infer_instance

/-- `_row_to_attempt`. -/
def rowToAttempt (py : PyVersion) (row : AttemptRow) : Except StoreError AttemptRow :=
  if AttemptOk py row then .ok row
  else .error ⟨.invocationIntegrity, "persisted invocation attempt is malformed"⟩

theorem rowToAttempt_ok {py : PyVersion} {row attempt : AttemptRow} :
    rowToAttempt py row = .ok attempt ↔ AttemptOk py row ∧ attempt = row := by
  unfold rowToAttempt
  split
  next h => simp [h, eq_comm]
  next h => simp [h]

end QuantumEntanglement.Attempts
