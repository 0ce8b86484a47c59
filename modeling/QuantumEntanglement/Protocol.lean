import Mathlib

/-
  Protocol vocabulary shared by the kernel and its recovery
-/

namespace QuantumEntanglement

/-- `protocol.TaskStatus`. -/
inductive TaskStatus where
  | pending
  | ready
  | running
  | waitingInput
  | waitingApproval
  | completed
  | failed
  | blocked
  | canceled
  | superseded
  deriving DecidableEq

end QuantumEntanglement
