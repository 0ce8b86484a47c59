import QuantumEntanglement.Lib.PyJson
import QuantumEntanglement.Store.Errors

/-
  Domain events — the records the collaboration log is made of

  The identifier and timestamp a caller leaves out are filled in by
  `new_id("evt")` and `utc_now()` before the object exists, so an event here
  always carries both.
-/

namespace QuantumEntanglement

open PyText PyJson

/-- An immutable event. Its stream, type and actor are not blank. -/
structure DomainEvent where
  streamId : String
  eventType : String
  payload : Value
  actorId : String
  eventId : String
  timestamp : String
  correlationId : Option String
  causationId : Option String
  idempotencyKey : Option String
  required : (isBlank streamId || isBlank eventType || isBlank actorId) = false
  deriving DecidableEq

/-- The constructor, with the check of `__post_init__`. -/
def DomainEvent.make (streamId eventType : String) (payload : Value) (actorId eventId timestamp : String)
    (correlationId causationId idempotencyKey : Option String) : Except StoreError DomainEvent :=
  if h : (isBlank streamId || isBlank eventType || isBlank actorId) = false then
    .ok ⟨streamId, eventType, payload, actorId, eventId, timestamp, correlationId, causationId,
      idempotencyKey, h⟩
  else .error ⟨.valueError, "stream_id, event_type, and actor_id are required"⟩

/-- An event with its place in its stream and in the whole log. -/
structure StoredEvent where
  event : DomainEvent
  sequence : Nat
  globalPosition : Nat
  deriving DecidableEq

theorem DomainEvent.nonBlank (e : DomainEvent) :
    isBlank e.streamId = false ∧ isBlank e.eventType = false ∧ isBlank e.actorId = false := by
  have h := e.required
  simp only [Bool.or_eq_false_iff] at h
  exact ⟨h.1.1, h.1.2, h.2⟩

theorem DomainEvent.make_eq (e : DomainEvent) (payload : Value) :
    DomainEvent.make e.streamId e.eventType payload e.actorId e.eventId e.timestamp e.correlationId
      e.causationId e.idempotencyKey = .ok { e with payload := payload } := by
  simp [DomainEvent.make, e.required]

end QuantumEntanglement
