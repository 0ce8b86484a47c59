import QuantumEntanglement.Events
import QuantumEntanglement.Store.Json
import QuantumEntanglement.Store.Timestamps

/-
  Delivery records — outbox messages and inbox receipts

  An `OutboxMessage` is what the constructor built: its checks are a field.
  The constructor only asks a timestamp to name a zone. It says nothing about
  the form of the text, nor about the years the UTC moment may fall into.

  A message identifier, and the timestamps a caller leaves out, are filled in
  by `new_id("msg")` and `utc_now()` before the object exists.
-/

namespace QuantumEntanglement

open PyText PyJson IsoTime

/-- `OutboxMessage.__post_init__`, once the key is filled in. -/
def checkMessage (py : PyVersion) (destination messageId idempotencyKey availableAt createdAt : String) :
    Except StoreError Unit := do
  if isBlank destination || isBlank messageId then
    .error ⟨.valueError, "destination and message_id are required"⟩
  else if isBlank idempotencyKey then .error ⟨.valueError, "idempotency_key cannot be blank"⟩
  else
    requireRfc3339 py availableAt "available_at"
    requireRfc3339 py createdAt "created_at"

/-- A message to be sent by the transaction that appends its event. -/
structure OutboxMessage (py : PyVersion) where
  destination : String
  payload : Value
  headers : Value
  messageId : String
  idempotencyKey : String
  availableAt : String
  createdAt : String
  accepted : checkMessage py destination messageId idempotencyKey availableAt createdAt = .ok ()
  deriving DecidableEq

/-- The constructor: a key that is left out is the message identifier. -/
def OutboxMessage.make (py : PyVersion) (destination : String) (payload headers : Value)
    (messageId : String) (idempotencyKey : Option String) (availableAt createdAt : String) :
    Except StoreError (OutboxMessage py) :=
  let key := idempotencyKey.getD messageId
  match h : checkMessage py destination messageId key availableAt createdAt with
  | .ok () => .ok ⟨destination, payload, headers, messageId, key, availableAt, createdAt, h⟩
  | .error e => .error e

/-- A persisted outbox row with its delivery state. -/
structure StoredOutboxMessage (py : PyVersion) where
  message : OutboxMessage py
  triggeringEventId : String
  triggeringGlobalPosition : Nat
  status : OutboxStatus
  attemptCount : Nat
  leaseToken : Option String
  leaseExpiresAt : Option String
  lastError : Option String
  publishedAt : Option String
  deriving DecidableEq

/-- Durable proof that a consumer admitted an external message. -/
structure InboxReceipt where
  consumerId : String
  messageId : String
  receivedAt : String
  eventId : String
  eventGlobalPosition : Nat
  result : Value
  deriving DecidableEq

structure InboxAppendResult where
  event : StoredEvent
  receipt : InboxReceipt
  duplicate : Bool
  deriving DecidableEq

theorem checkMessage_ok {py : PyVersion}
    {destination messageId idempotencyKey availableAt createdAt : String} {u : Unit} :
    checkMessage py destination messageId idempotencyKey availableAt createdAt = .ok u ↔
      (isBlank destination = false ∧ isBlank messageId = false ∧ isBlank idempotencyKey = false) ∧
        HasZone py availableAt ∧ HasZone py createdAt := by
  unfold checkMessage
  cases isBlank destination <;> cases isBlank messageId <;> cases isBlank idempotencyKey <;>
    simp [except_bind_ok, requireRfc3339_ok]

theorem OutboxMessage.make_ok {py : PyVersion} {destination messageId availableAt createdAt : String}
    {payload headers : Value} {key : String} {m : OutboxMessage py} :
    OutboxMessage.make py destination payload headers messageId (some key) availableAt createdAt =
        .ok m ↔
      ∃ h : checkMessage py destination messageId key availableAt createdAt = .ok (),
        m = ⟨destination, payload, headers, messageId, key, availableAt, createdAt, h⟩ := by
  unfold OutboxMessage.make
  simp only [Option.getD_some]
  split
  next h => simp [h, eq_comm]
  next e h => simp [h]

theorem OutboxMessage.make_eq {py : PyVersion} (m : OutboxMessage py) (payload headers : Value) :
    OutboxMessage.make py m.destination payload headers m.messageId (some m.idempotencyKey)
      m.availableAt m.createdAt = .ok { m with payload := payload, headers := headers } :=
  OutboxMessage.make_ok.mpr ⟨m.accepted, rfl⟩

end QuantumEntanglement
