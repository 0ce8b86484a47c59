import QuantumEntanglement.Lib.PyValues

/-
  Task contracts — what a task is to do, and its document

  A contract is written as a dict and read back with conversions: texts with
  `str`, numbers with `int` and `float`, sequences by iterating. The fields an
  encoder writes are already what the conversions make, but for numbers: a
  field for a `float` may hold an `int`, and one for an `int` a `bool`, and
  those are read back as another number with another text.

  A number is kept as the value it is. What the built-in conversions make of
  the values no encoder writes is a parameter (`Builtins`).
-/

namespace QuantumEntanglement.Scheduler

open PyText PyJson

/-! ## Reading values -/

/-- What reading a document raises. -/
inductive DecodeError where
  | keyError (key : String)
  | valueError (message : String)
  | typeError
  deriving DecidableEq

/-- The built-in conversions, where no encoded value needs one. A float is
none where it is `nan` or an infinity. -/
structure Builtins where
  str : Value → String
  int : Value → Except DecodeError Int
  float : Value → Except DecodeError (Option PyFloat)
  dict : Value → Except DecodeError (List (String × Value))
  truth : Value → Bool

/-- `value[key]`. -/
def item (key : String) : Value → Except DecodeError Value
  | .dict pairs =>
    match lookup key pairs with
    | some v => .ok v
    | none => .error (.keyError key)
  | _ => .error .typeError

/-- `value.get(key, default)`. -/
def get (key : String) (default : Value) : Value → Except DecodeError Value
  | .dict pairs => .ok ((lookup key pairs).getD default)
  | _ => .error .typeError

/-- The items `for item in value` goes over. -/
def iterate : Value → Except DecodeError (List Value)
  | .list items => .ok items
  | .tuple items => .ok items
  | .dict pairs => .ok (pairs.map (fun p => .str p.1))
  | .str s => .ok (s.toList.map (fun c => .str (String.ofList [c])))
  | _ => .error .typeError

section
variable (b : Builtins)

/-- `str(value)`. -/
def strOf : Value → String
  | .str s => s
  | v => b.str v

/-- `int(value)`. -/
def intOf : Value → Except DecodeError Value
  | .int n => .ok (.int n)
  | v => (b.int v).map .int

/-- `float(value)`. -/
def floatOf : Value → Except DecodeError Value
  | .float x => .ok (.float x)
  | v => (b.float v).map (fun x => match x with
    | some x => .float x
    | none => .nonFinite)

/-- `dict(value)`. -/
def dictOf : Value → Except DecodeError (List (String × Value))
  | .dict pairs => .ok pairs
  | v => b.dict v

/-- `bool(value)`. -/
def boolOf : Value → Bool
  | .null => false
  | .bool x => x
  | .int n => n ≠ 0
  | .float x => x.digits ≠ 0
  | .nonFinite => true
  | .str s => s ≠ ""
  | .list items => !items.isEmpty
  | .tuple items => !items.isEmpty
  | .dict pairs => !pairs.isEmpty
  | v => b.truth v

/-- `tuple(str(item) for item in value)`. -/
def textsOf (v : Value) : Except DecodeError (List String) :=
  (iterate v).map (fun items => items.map (strOf b))

end

def texts (l : List String) : Value := .list (l.map .str)

def optionalText : Option String → Value
  | some s => .str s
  | none => .null

/-- A float, or `nan` or an infinity. -/
def IsFloat (v : Value) : Prop := v = .nonFinite ∨ ∃ x, v = .float x

def IsInt (v : Value) : Prop := ∃ n, v = .int n

/-! ## The parts of a contract -/

inductive RiskLevel where
  | none
  | low
  | medium
  | high
  | critical
  deriving DecidableEq

def RiskLevel.value : RiskLevel → String
  | .none => "none"
  | .low => "low"
  | .medium => "medium"
  | .high => "high"
  | .critical => "critical"

/-- `RiskLevel(text)`. -/
def RiskLevel.ofText (text : String) : Except DecodeError RiskLevel :=
  match text with
  | "none" => .ok .none
  | "low" => .ok .low
  | "medium" => .ok .medium
  | "high" => .ok .high
  | "critical" => .ok .critical
  | _ => .error (.valueError (text ++ " is not a valid RiskLevel"))

structure Authority where
  allowedActions : List String
  dataScopes : List String
  maxRisk : RiskLevel
  externalSideEffects : Bool
  deriving DecidableEq

def Authority.toDict (a : Authority) : Value :=
  .dict
    [("allowedActions", texts a.allowedActions), ("dataScopes", texts a.dataScopes),
      ("maxRisk", .str a.maxRisk.value), ("externalSideEffects", .bool a.externalSideEffects)]

def Authority.fromDict (b : Builtins) (v : Value) : Except DecodeError Authority := do
  let allowedActions ← textsOf b (← get "allowedActions" (.list []) v)
  let dataScopes ← textsOf b (← get "dataScopes" (.list []) v)
  let maxRisk ← RiskLevel.ofText (strOf b (← get "maxRisk" (.str "low") v))
  let externalSideEffects ← get "externalSideEffects" (.bool false) v
  .ok ⟨allowedActions, dataScopes, maxRisk, boolOf b externalSideEffects⟩

structure ActionIntent where
  action : String
  target : String
  risk : RiskLevel
  externalSideEffect : Bool
  irreversible : Bool
  dataClasses : List String
  deriving DecidableEq

def ActionIntent.toDict (a : ActionIntent) : Value :=
  .dict
    [("action", .str a.action), ("target", .str a.target), ("risk", .str a.risk.value),
      ("externalSideEffect", .bool a.externalSideEffect), ("irreversible", .bool a.irreversible),
      ("dataClasses", texts a.dataClasses)]

def ActionIntent.fromDict (b : Builtins) (v : Value) : Except DecodeError ActionIntent := do
  let action ← item "action" v
  let target ← item "target" v
  let risk ← RiskLevel.ofText (strOf b (← get "risk" (.str "low") v))
  let externalSideEffect ← get "externalSideEffect" (.bool false) v
  let irreversible ← get "irreversible" (.bool false) v
  let dataClasses ← textsOf b (← get "dataClasses" (.tuple []) v)
  .ok ⟨strOf b action, strOf b target, risk, boolOf b externalSideEffect, boolOf b irreversible,
    dataClasses⟩

structure ArtifactRef where
  artifactId : String
  name : String
  version : Value
  mediaType : String
  uri : String
  digest : String
  createdBy : String
  taskId : String
  parentVersion : Value
  deriving DecidableEq

def ArtifactRef.toDict (a : ArtifactRef) : Value :=
  .dict
    [("artifactId", .str a.artifactId), ("name", .str a.name), ("version", a.version),
      ("mediaType", .str a.mediaType), ("uri", .str a.uri), ("digest", .str a.digest),
      ("createdBy", .str a.createdBy), ("taskId", .str a.taskId), ("parentVersion", a.parentVersion)]

/-- `int(value) if value is not None else None`. -/
def intOrNone (b : Builtins) : Value → Except DecodeError Value
  | .null => .ok .null
  | v => intOf b v

/-- `float(value) if value is not None else None`. -/
def floatOrNone (b : Builtins) : Value → Except DecodeError Value
  | .null => .ok .null
  | v => floatOf b v

def ArtifactRef.fromDict (b : Builtins) (v : Value) : Except DecodeError ArtifactRef := do
  let artifactId ← item "artifactId" v
  let name ← item "name" v
  let version ← intOf b (← item "version" v)
  let mediaType ← item "mediaType" v
  let uri ← item "uri" v
  let digest ← item "digest" v
  let createdBy ← item "createdBy" v
  let taskId ← item "taskId" v
  let parentVersion ← intOrNone b (← get "parentVersion" .null v)
  .ok ⟨strOf b artifactId, strOf b name, version, strOf b mediaType, strOf b uri, strOf b digest,
    strOf b createdBy, strOf b taskId, parentVersion⟩

@[ext]
structure ContextRef where
  refId : String
  category : String
  version : String
  digest : String
  required : Bool
  relevance : Value
  provenance : Value
  relevant : inUnit relevance = true

instance : DecidableEq ContextRef := fun _ _ => decidable_of_iff' _ ContextRef.ext_iff

def ContextRef.toDict (r : ContextRef) : Value :=
  .dict
    [("refId", .str r.refId), ("category", .str r.category), ("version", .str r.version),
      ("digest", .str r.digest), ("required", .bool r.required), ("relevance", r.relevance),
      ("provenance", r.provenance)]

/-- The constructor, with the check of `__post_init__`. -/
def ContextRef.make (refId category version digest : String) (required : Bool)
    (relevance provenance : Value) : Except DecodeError ContextRef :=
  if h : inUnit relevance = true then
    .ok ⟨refId, category, version, digest, required, relevance, provenance, h⟩
  else .error (.valueError "relevance must be between 0 and 1")

/-- The default relevance, 0.5. -/
def half : Value := .float ⟨false, 5, -1, .inl (by decide)⟩

def ContextRef.fromDict (b : Builtins) (v : Value) : Except DecodeError ContextRef := do
  let refId ← item "refId" v
  let category ← item "category" v
  let version ← item "version" v
  let digest ← item "digest" v
  let required ← get "required" (.bool false) v
  let relevance ← floatOf b (← get "relevance" half v)
  let provenance ← get "provenance" .null v
  ContextRef.make (strOf b refId) (strOf b category) (strOf b version) (strOf b digest)
    (boolOf b required) relevance provenance

/-! ## The contract -/

structure HandoffFields where
  goal : String
  acceptanceCriteria : List String
  deliverables : List String
  inputs : List ArtifactRef
  contextRefs : List ContextRef
  constraints : List String
  authority : Authority
  parentTaskId : Value
  tokenBudget : Value
  costBudget : Value
  deadline : Value
  deriving DecidableEq

/-- `value is not None and value <= 0`, `none` where they do not compare. `nan`
and the infinity that gets by compare as not less. -/
def notPositive : Value → Option Bool
  | .null => some false
  | .nonFinite => some false
  | v => (numberOf v).map (fun q => decide (q ≤ 0))

/-- `value is not None and value < 0`. -/
def isNegative : Value → Option Bool
  | .null => some false
  | .nonFinite => some false
  | v => (numberOf v).map (fun q => decide (q < 0))

/-- `raise ValueError(message)` where the comparison says so. -/
def refuse (c : Option Bool) (message : String) : Except DecodeError Unit :=
  match c with
  | none => .error .typeError
  | some true => .error (.valueError message)
  | some false => .ok ()

/-- `HandoffContract.__post_init__`. -/
def HandoffFields.check (h : HandoffFields) : Except DecodeError Unit := do
  refuse (some (isBlank h.goal)) "handoff goal is required"
  refuse (some h.acceptanceCriteria.isEmpty) "at least one acceptance criterion is required"
  refuse (some h.deliverables.isEmpty) "at least one deliverable is required"
  refuse (notPositive h.tokenBudget) "token_budget must be positive"
  refuse (isNegative h.costBudget) "cost_budget cannot be negative"

structure HandoffContract extends HandoffFields where
  checked : toHandoffFields.check = .ok ()
  deriving DecidableEq

def HandoffContract.make (h : HandoffFields) : Except DecodeError HandoffContract :=
  match hcheck : h.check with
  | .ok () => .ok ⟨h, hcheck⟩
  | .error e => .error e

def HandoffContract.toDict (h : HandoffContract) : Value :=
  .dict
    [("goal", .str h.goal), ("acceptanceCriteria", texts h.acceptanceCriteria),
      ("deliverables", texts h.deliverables), ("inputs", .list (h.inputs.map ArtifactRef.toDict)),
      ("contextRefs", .list (h.contextRefs.map ContextRef.toDict)),
      ("constraints", texts h.constraints), ("authority", h.authority.toDict),
      ("parentTaskId", h.parentTaskId), ("tokenBudget", h.tokenBudget),
      ("costBudget", h.costBudget), ("deadline", h.deadline)]

/-- `int(value) if value else None`. -/
def intIfTrue (b : Builtins) (v : Value) : Except DecodeError Value :=
  if boolOf b v = true then intOf b v else .ok .null

def HandoffContract.fromDict (b : Builtins) (v : Value) : Except DecodeError HandoffContract := do
  let goal ← item "goal" v
  let acceptanceCriteria ← textsOf b (← item "acceptanceCriteria" v)
  let deliverables ← textsOf b (← item "deliverables" v)
  let inputs ← (← iterate (← get "inputs" (.list []) v)).mapM (ArtifactRef.fromDict b)
  let contextRefs ← (← iterate (← get "contextRefs" (.list []) v)).mapM (ContextRef.fromDict b)
  let constraints ← textsOf b (← get "constraints" (.list []) v)
  let authority ← Authority.fromDict b (← get "authority" (.dict []) v)
  let parentTaskId ← get "parentTaskId" .null v
  let tokenBudget ← intIfTrue b (← get "tokenBudget" .null v)
  let costBudget ← floatOrNone b (← get "costBudget" .null v)
  let deadline ← get "deadline" .null v
  HandoffContract.make ⟨strOf b goal, acceptanceCriteria, deliverables, inputs, contextRefs, constraints,
    authority, parentTaskId, tokenBudget, costBudget, deadline⟩

end QuantumEntanglement.Scheduler
