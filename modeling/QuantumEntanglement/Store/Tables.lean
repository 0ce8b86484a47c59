import QuantumEntanglement.Lib.Transaction
import QuantumEntanglement.Lib.IsoTime
import QuantumEntanglement.Store.Errors

/-
  The database — one record per table, one structure per row

  A row is a structure whose fields are the columns of its table; a column
  under a CHECK of fixed values is the type of these values. A table is the
  list of its rows in the order of their row numbers, which no operation here
  changes: rows are appended and updated, never deleted. The next
  AUTOINCREMENT number is one more than the largest there is.

  Correspondence (SQL ↔ Lean):
    `inbox_receipts`         ↔ `InboxRow`, `Db.inbox`
    `invocation_jobs`        ↔ `JobRow`, `Db.jobs`
    `invocation_attempts`    ↔ `AttemptRow`, `Db.attempts`
    `invocation_admissions`  ↔ `AdmissionRow`, `Db.admissions`
  The tables `snapshots`, `artifact_*` and the migration ledger are read by no
  function modelled here.
-/

namespace QuantumEntanglement

open Transaction IsoTime

structure EventRow where
  globalPosition : Nat
  streamId : String
  sequence : Nat
  eventId : String
  eventType : String
  actorId : String
  timestamp : String
  payloadJson : String
  correlationId : Option String
  causationId : Option String
  idempotencyKey : Option String
  deriving DecidableEq

/-- `delivery.OutboxStatus`. -/
inductive OutboxStatus where
  | pending
  | inFlight
  | published
  | deadLetter
  deriving DecidableEq

structure OutboxRow where
  outboxPosition : Nat
  messageId : String
  destination : String
  payloadJson : String
  headersJson : String
  idempotencyKey : String
  triggeringEventId : String
  triggeringGlobalPosition : Nat
  status : OutboxStatus
  attemptCount : Nat
  availableAt : String
  createdAt : String
  leaseToken : Option String
  leaseExpiresAt : Option String
  lastError : Option String
  publishedAt : Option String
  deriving DecidableEq

structure InboxRow where
  consumerId : String
  messageId : String
  receivedAt : String
  eventId : String
  eventGlobalPosition : Nat
  resultJson : String
  deriving DecidableEq

/-- The resolutions `outbox_ambiguities.resolution` can hold. -/
inductive AmbiguityResolution where
  | published
  | retry
  | deadLetter
  deriving DecidableEq

/-- The values `outbox_ambiguities.reason_code` can hold. -/
inductive AmbiguityReason where
  | callbackTimeout
  | callerCancelled
  | ackFailed
  | leaseExpiredAfterAccept
  deriving DecidableEq

structure AmbiguityRow where
  messageId : String
  leaseTokenDigest : String
  reasonCode : AmbiguityReason
  attemptCount : Nat
  markedAt : String
  resolution : Option AmbiguityResolution
  resolvedAt : Option String
  deriving DecidableEq

/-- `attempts.InvocationStatus`. -/
inductive InvocationStatus where
  | queued
  | running
  | succeeded
  | failed
  | canceled
  deriving DecidableEq

structure JobRow where
  invocationId : String
  sessionId : String
  planId : String
  taskId : String
  agentId : String
  idempotencyKey : String
  payloadDigest : String
  priority : Nat
  status : InvocationStatus
  maxAttempts : Nat
  attemptsStarted : Nat
  leaseEpoch : Nat
  requestedAvailableAt : Option String
  availableAt : String
  createdAt : String
  updatedAt : String
  leaseOwner : Option String
  leaseTokenDigest : Option String
  leaseExpiresAt : Option String
  heartbeatAt : Option String
  resultRef : Option String
  lastError : Option String
  finishedAt : Option String
  deriving DecidableEq

/-- `attempts.AttemptStatus`. -/
inductive AttemptStatus where
  | running
  | succeeded
  | failed
  | expired
  | canceled
  deriving DecidableEq

structure AttemptRow where
  attemptId : String
  invocationId : String
  attemptNumber : Nat
  leaseEpoch : Nat
  workerId : String
  leaseTokenDigest : String
  status : AttemptStatus
  startedAt : String
  heartbeatAt : String
  leaseExpiresAt : String
  finishedAt : Option String
  error : Option String
  resultRef : Option String
  deriving DecidableEq

structure AdmissionRow where
  invocationId : String
  receiptFormat : String
  sessionId : String
  taskId : String
  streamId : String
  jobIdempotencyKey : String
  originalVersion : Nat
  eventCount : Nat
  eventIdsJson : String
  firstSequence : Nat
  lastSequence : Nat
  firstGlobalPosition : Nat
  lastGlobalPosition : Nat
  eventManifestSha256 : String
  jobBindingSha256 : String
  admittedAt : String
  deriving DecidableEq

structure Db where
  events : List EventRow
  outbox : List OutboxRow
  inbox : List InboxRow
  ambiguities : List AmbiguityRow
  jobs : List JobRow
  attempts : List AttemptRow
  admissions : List AdmissionRow
  deriving DecidableEq

/-- A database with every table empty. -/
def Db.empty : Db := ⟨[], [], [], [], [], [], []⟩

/-- A program over the database. -/
abbrev DbTxn (α : Type) : Type := Txn Db StoreError α

/-- What an `SQLiteEventStore` is opened with, and the Python it runs on. -/
structure StoreConfig where
  maxJsonBytes : Nat
  py : PyVersion
  deriving DecidableEq

/-- `COALESCE(MAX(column), 0)`. -/
def maxOf {α : Type} (column : α → Nat) (rows : List α) : Nat :=
  rows.foldr (fun r m => max (column r) m) 0

/-- Apply `f` to the rows that satisfy `p`: SQL's UPDATE. -/
def updateWhere {α : Type} (p : α → Bool) (f : α → α) (rows : List α) : List α :=
  rows.map (fun r => if p r then f r else r)

theorem le_maxOf {α : Type} {column : α → Nat} {rows : List α} {r : α} (h : r ∈ rows) :
    column r ≤ maxOf column rows := by
  induction rows with
  | nil => simp at h
  | cons q rest ih =>
    simp only [maxOf, List.foldr_cons]
    rcases List.mem_cons.mp h with rfl | h
    · exact Nat.le_max_left _ _
    · exact Nat.le_trans (ih h) (Nat.le_max_right _ _)

theorem maxOf_append {α : Type} (column : α → Nat) (rows more : List α) :
    maxOf column (rows ++ more) = max (maxOf column rows) (maxOf column more) := by
  induction rows with
  | nil => simp [maxOf]
  | cons q rest ih =>
    simp only [maxOf, List.foldr_cons, List.cons_append] at ih ⊢
    rw [ih, Nat.max_assoc]

theorem maxOf_singleton {α : Type} (column : α → Nat) (r : α) : maxOf column [r] = column r := by
  simp [maxOf]

/-- The maximum of a column is the value of some row, unless it is zero. -/
theorem exists_maxOf {α : Type} {column : α → Nat} {rows : List α} (h : maxOf column rows ≠ 0) :
    ∃ r ∈ rows, column r = maxOf column rows := by
  induction rows with
  | nil => simp [maxOf] at h
  | cons q rest ih =>
    simp only [maxOf, List.foldr_cons] at h ih ⊢
    rcases Nat.le_total (List.foldr (fun r m => max (column r) m) 0 rest) (column q) with hle | hle
    · exact ⟨q, List.mem_cons_self, (Nat.max_eq_left hle).symm⟩
    · rw [Nat.max_eq_right hle] at h ⊢
      obtain ⟨r, hr, heq⟩ := ih h
      exact ⟨r, List.mem_cons_of_mem _ hr, heq⟩

/-- An UPDATE by two conditions that select the same rows. -/
theorem updateWhere_congr {α : Type} {p q : α → Bool} {f : α → α} {rows : List α}
    (h : ∀ r ∈ rows, p r = q r) : updateWhere p f rows = updateWhere q f rows := by
  refine List.map_congr_left fun r hr => ?_
  rw [h r hr]

/-- A condition no two rows meet is met by the one row that meets it. -/
theorem countP_unique {α : Type} {p : α → Bool} {rows : List α} {r : α}
    (hpair : rows.Pairwise (fun a b => ¬(p a = true ∧ p b = true))) (hmem : r ∈ rows)
    (hp : p r = true) : rows.countP p = 1 := by
  induction rows with
  | nil => simp at hmem
  | cons q rest ih =>
    obtain ⟨hq, hrest⟩ := List.pairwise_cons.mp hpair
    rcases List.mem_cons.mp hmem with rfl | hmem
    · have hzero : rest.countP p = 0 := by
        rw [List.countP_eq_zero]
        exact fun x hx hpx => hq x hx ⟨hp, hpx⟩
      rw [List.countP_cons, hzero, hp]
      rfl
    · have hnot : p q = false := by
        rw [← Bool.not_eq_true]
        exact fun hpq => hq r hmem ⟨hpq, hp⟩
      rw [List.countP_cons, ih hrest hmem, hnot]
      rfl

theorem mem_updateWhere {α : Type} {p : α → Bool} {f : α → α} {rows : List α} {r : α} :
    r ∈ updateWhere p f rows ↔ ∃ q ∈ rows, r = if p q then f q else q := by
  simp only [updateWhere, List.mem_map, eq_comm]

end QuantumEntanglement
