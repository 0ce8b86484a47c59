import QuantumEntanglement.Scheduler.TaskGraph

/-
  Workflow plans — written to the log and read back on recovery

  Recovery reads the plan's document, writes what it read and compares the two
  texts. What is read is canonical: its correlation id is none or not empty,
  and its numbers are of the types the fields are for. A plan that was not, is
  read as another one.

  What is proved:
    1. `fromDict_toDict` — a canonical plan is read as it was written.
    2. `fromDict_canonical` — what is read is canonical.
    3. `decodeRecoveredPlan_persisted` — recovery accepts the payload of a
       canonical plan, as `json.loads` gives it.
    4. `reads_back_iff` — a plan is read back with the same text exactly if it
       is canonical, or cannot be written.
-/

namespace QuantumEntanglement.Scheduler

open PyText PyJson

def TaskSpec.toDict (t : TaskSpec) : Value :=
  .dict
    [("taskId", .str t.taskId), ("title", .str t.title), ("agentId", .str t.agentId),
      ("handoff", t.handoff.toDict), ("dependsOn", texts t.dependsOn),
      ("inputArtifacts", texts t.inputArtifacts), ("action", t.action.toDict),
      ("priority", t.priority), ("metadata", .dict t.metadata)]

/-- The default action. -/
def analyze : Value := .dict [("action", .str "analyze"), ("target", .str "workspace")]

def TaskSpec.fromDict (b : Builtins) (v : Value) : Except DecodeError TaskSpec := do
  let title ← item "title" v
  let agentId ← item "agentId" v
  let handoff ← HandoffContract.fromDict b (← item "handoff" v)
  let taskId ← item "taskId" v
  let dependsOn ← textsOf b (← get "dependsOn" (.tuple []) v)
  let inputArtifacts ← textsOf b (← get "inputArtifacts" (.tuple []) v)
  let action ← ActionIntent.fromDict b (← get "action" analyze v)
  let priority ← intOf b (← get "priority" (.int 50) v)
  let metadata ← dictOf b (← get "metadata" (.dict []) v)
  TaskSpec.make ⟨strOf b title, strOf b agentId, handoff, strOf b taskId, dependsOn, inputArtifacts, action,
    priority, metadata⟩

structure PlanFields where
  sessionId : String
  goal : String
  initiatedBy : String
  tasks : List TaskSpec
  planId : String
  correlationId : Option String
  deriving DecidableEq

/-- `WorkflowPlan.__post_init__`. -/
def PlanFields.check (p : PlanFields) : Except DecodeError Unit := do
  refuse (some (isBlank p.sessionId || isBlank p.goal || isBlank p.initiatedBy))
    "session_id, goal, and initiated_by are required"
  refuse (some p.tasks.isEmpty) "workflow plan needs tasks"

structure WorkflowPlan extends PlanFields where
  checked : toPlanFields.check = .ok ()
  deriving DecidableEq

def WorkflowPlan.make (p : PlanFields) : Except DecodeError WorkflowPlan :=
  match hcheck : p.check with
  | .ok () => .ok ⟨p, hcheck⟩
  | .error e => .error e

def WorkflowPlan.toDict (p : WorkflowPlan) : Value :=
  .dict
    [("planId", .str p.planId), ("sessionId", .str p.sessionId), ("goal", .str p.goal),
      ("initiatedBy", .str p.initiatedBy), ("correlationId", optionalText p.correlationId),
      ("tasks", .list (p.tasks.map TaskSpec.toDict))]

/-- `str(value) if value else None`. -/
def textIfTrue (b : Builtins) (v : Value) : Option String :=
  if boolOf b v = true then some (strOf b v) else none

def WorkflowPlan.fromDict (b : Builtins) (v : Value) : Except DecodeError WorkflowPlan := do
  let sessionId ← item "sessionId" v
  let goal ← item "goal" v
  let initiatedBy ← item "initiatedBy" v
  let tasks ← (← iterate (← item "tasks" v)).mapM (TaskSpec.fromDict b)
  let planId ← item "planId" v
  let correlationId ← get "correlationId" .null v
  WorkflowPlan.make ⟨strOf b sessionId, strOf b goal, strOf b initiatedBy, tasks, strOf b planId,
    textIfTrue b correlationId⟩

/-! ## Canonical contracts -/

def ArtifactRef.Canonical (a : ArtifactRef) : Prop :=
  IsInt a.version ∧ (a.parentVersion = .null ∨ IsInt a.parentVersion)

def ContextRef.Canonical (r : ContextRef) : Prop := IsFloat r.relevance

structure HandoffContract.Canonical (h : HandoffContract) : Prop where
  inputs : ∀ a ∈ h.inputs, a.Canonical
  contextRefs : ∀ r ∈ h.contextRefs, r.Canonical
  tokenBudget : h.tokenBudget = .null ∨ IsInt h.tokenBudget
  costBudget : h.costBudget = .null ∨ IsFloat h.costBudget

structure TaskSpec.Canonical (t : TaskSpec) : Prop where
  handoff : t.handoff.Canonical
  priority : IsInt t.priority

/-- No empty correlation id, every `int` an `int` and every `float` a `float`. -/
structure WorkflowPlan.Canonical (p : WorkflowPlan) : Prop where
  correlationId : p.correlationId ≠ some ""
  tasks : ∀ t ∈ p.tasks, t.Canonical

/-! ## What is read is canonical -/

theorem decode_bind_ok {α β : Type} {m : Except DecodeError α} {f : α → Except DecodeError β} {b : β} :
    (m >>= f) = .ok b ↔ ∃ a, m = .ok a ∧ f a = .ok b := by
  cases m <;> simp [bind, Except.bind]

theorem decode_ok_bind {α β : Type} (a : α) (f : α → Except DecodeError β) : (.ok a >>= f) = f a := rfl

/-- What was read from a list was read item by item. -/
theorem mapM_mem {α β : Type} {f : α → Except DecodeError β} : ∀ {l : List α} {l' : List β},
    l.mapM f = .ok l' → ∀ y ∈ l', ∃ x ∈ l, f x = .ok y := by
  intro l
  induction l with
  | nil =>
    intro l' h y hy
    obtain rfl : [] = l' := Except.ok.inj h
    simp at hy
  | cons a rest ih =>
    intro l' h y hy
    rw [List.mapM_cons] at h
    obtain ⟨b, hb, h⟩ := decode_bind_ok.mp h
    obtain ⟨bs, hbs, h⟩ := decode_bind_ok.mp h
    obtain rfl : b :: bs = l' := Except.ok.inj h
    rcases List.mem_cons.mp hy with rfl | hy
    · exact ⟨a, List.mem_cons_self, hb⟩
    · obtain ⟨x, hx, hxy⟩ := ih hbs y hy
      exact ⟨x, List.mem_cons_of_mem _ hx, hxy⟩

/-- A list is read item by item. -/
theorem mapM_map_eq {α β γ : Type} {f : β → Except DecodeError γ} {g : α → β} {g' : α → γ} :
    ∀ {l : List α}, (∀ x ∈ l, f (g x) = .ok (g' x)) → (l.map g).mapM f = .ok (l.map g') := by
  intro l
  induction l with
  | nil => exact fun _ => rfl
  | cons a rest ih =>
    intro h
    obtain ⟨ha, hrest⟩ := List.forall_mem_cons.mp h
    rw [List.map_cons, List.mapM_cons, ha, ih hrest]
    rfl

/-- A list that reads back item by item reads back. -/
theorem mapM_map {α β : Type} {f : β → Except DecodeError α} {g : α → β} {l : List α}
    (h : ∀ x ∈ l, f (g x) = .ok x) : (l.map g).mapM f = .ok l := by
  have hread := @mapM_map_eq _ _ _ f g id l h
  rwa [List.map_id] at hread

variable {b : Builtins}

theorem intOf_ok {v w : Value} (h : intOf b v = .ok w) : IsInt w := by
  unfold intOf at h
  split at h
  · exact ⟨_, (Except.ok.inj h).symm⟩
  next =>
    cases hv : b.int v with
    | error e => simp [hv, Except.map] at h
    | ok n =>
      rw [hv] at h
      exact ⟨n, (Except.ok.inj h).symm⟩

theorem floatOf_ok {v w : Value} (h : floatOf b v = .ok w) : IsFloat w := by
  unfold floatOf at h
  split at h
  · exact .inr ⟨_, (Except.ok.inj h).symm⟩
  next =>
    cases hv : b.float v with
    | error e => simp [hv, Except.map] at h
    | ok x =>
      rw [hv] at h
      cases x with
      | none => exact .inl (Except.ok.inj h).symm
      | some x => exact .inr ⟨x, (Except.ok.inj h).symm⟩

theorem intOrNone_ok {v w : Value} (h : intOrNone b v = .ok w) : w = .null ∨ IsInt w := by
  unfold intOrNone at h
  split at h
  · exact .inl (Except.ok.inj h).symm
  · exact .inr (intOf_ok h)

theorem floatOrNone_ok {v w : Value} (h : floatOrNone b v = .ok w) : w = .null ∨ IsFloat w := by
  unfold floatOrNone at h
  split at h
  · exact .inl (Except.ok.inj h).symm
  · exact .inr (floatOf_ok h)

theorem intIfTrue_ok {v w : Value} (h : intIfTrue b v = .ok w) : w = .null ∨ IsInt w := by
  unfold intIfTrue at h
  split at h
  · exact .inr (intOf_ok h)
  · exact .inl (Except.ok.inj h).symm

theorem ArtifactRef.fromDict_canonical {v : Value} {a : ArtifactRef}
    (h : ArtifactRef.fromDict b v = .ok a) : a.Canonical := by
  simp only [ArtifactRef.fromDict, decode_bind_ok, Except.ok.injEq] at h
  obtain ⟨_, -, _, -, _, -, version, hversion, _, -, _, -, _, -, _, -, _, -, _, -, parent, hparent,
    rfl⟩ := h
  exact ⟨intOf_ok hversion, intOrNone_ok hparent⟩

theorem ContextRef.fromDict_canonical {v : Value} {r : ContextRef}
    (h : ContextRef.fromDict b v = .ok r) : r.Canonical := by
  simp only [ContextRef.fromDict, decode_bind_ok] at h
  obtain ⟨_, -, _, -, _, -, _, -, _, -, _, -, relevance, hrelevance, _, -, h⟩ := h
  unfold ContextRef.make at h
  split at h
  · rw [← Except.ok.inj h]
    exact floatOf_ok hrelevance
  · cases h

theorem HandoffContract.make_ok {f : HandoffFields} {h : HandoffContract}
    (hmake : HandoffContract.make f = .ok h) : h.toHandoffFields = f := by
  unfold HandoffContract.make at hmake
  split at hmake
  · rw [← Except.ok.inj hmake]
  · cases hmake

theorem HandoffContract.fromDict_canonical {v : Value} {c : HandoffContract}
    (h : HandoffContract.fromDict b v = .ok c) : c.Canonical := by
  simp only [HandoffContract.fromDict, decode_bind_ok] at h
  obtain ⟨_, -, _, -, _, -, _, -, _, -, _, -, _, -, inputs, hinputs, _, -, _, -, contextRefs,
    hcontextRefs, _, -, _, -, _, -, _, -, _, -, _, -, tokenBudget, htokenBudget, _, -, costBudget,
    hcostBudget, _, -, hmake⟩ := h
  have hfields := HandoffContract.make_ok hmake
  refine ⟨?_, ?_, ?_, ?_⟩ <;> rw [hfields]
  · intro a ha
    obtain ⟨w, -, hw⟩ := mapM_mem hinputs a ha
    exact ArtifactRef.fromDict_canonical hw
  · intro r hr
    obtain ⟨w, -, hw⟩ := mapM_mem hcontextRefs r hr
    exact ContextRef.fromDict_canonical hw
  · exact intIfTrue_ok htokenBudget
  · exact floatOrNone_ok hcostBudget

theorem TaskSpec.make_ok {f : TaskFields} {t : TaskSpec} (hmake : TaskSpec.make f = .ok t) :
    t.toTaskFields = f := by
  unfold TaskSpec.make at hmake
  split at hmake
  · rw [← Except.ok.inj hmake]
  · cases hmake

theorem TaskSpec.fromDict_canonical {v : Value} {t : TaskSpec} (h : TaskSpec.fromDict b v = .ok t) :
    t.Canonical := by
  simp only [TaskSpec.fromDict, decode_bind_ok] at h
  obtain ⟨_, -, _, -, _, -, handoff, hhandoff, _, -, _, -, _, -, _, -, _, -, _, -, _, -, _, -,
    priority, hpriority, _, -, _, -, hmake⟩ := h
  have hfields := TaskSpec.make_ok hmake
  refine ⟨?_, ?_⟩ <;> rw [hfields]
  · exact HandoffContract.fromDict_canonical hhandoff
  · exact intOf_ok hpriority

theorem WorkflowPlan.make_ok {f : PlanFields} {p : WorkflowPlan} (hmake : WorkflowPlan.make f = .ok p) :
    p.toPlanFields = f := by
  unfold WorkflowPlan.make at hmake
  split at hmake
  · rw [← Except.ok.inj hmake]
  · cases hmake

/-! ## A canonical contract reads back -/

theorem textsOf_texts (l : List String) : textsOf b (texts l) = .ok l := by
  simp [textsOf, texts, iterate, Except.map, strOf, Function.comp_def]

theorem RiskLevel.ofText_value (r : RiskLevel) : RiskLevel.ofText r.value = .ok r := by
  cases r <;> rfl

theorem Authority.fromDict_toDict (a : Authority) : Authority.fromDict b a.toDict = .ok a := by
  have hread : Authority.fromDict b a.toDict = (do
      let allowedActions ← textsOf b (texts a.allowedActions)
      let dataScopes ← textsOf b (texts a.dataScopes)
      let maxRisk ← RiskLevel.ofText a.maxRisk.value
      .ok ⟨allowedActions, dataScopes, maxRisk, a.externalSideEffects⟩) := rfl
  rw [hread, textsOf_texts, textsOf_texts, RiskLevel.ofText_value]
  rfl

theorem ActionIntent.fromDict_toDict (a : ActionIntent) : ActionIntent.fromDict b a.toDict = .ok a := by
  have hread : ActionIntent.fromDict b a.toDict = (do
      let risk ← RiskLevel.ofText a.risk.value
      let dataClasses ← textsOf b (texts a.dataClasses)
      .ok ⟨a.action, a.target, risk, a.externalSideEffect, a.irreversible, dataClasses⟩) := rfl
  rw [hread, textsOf_texts, RiskLevel.ofText_value]
  rfl

theorem intOf_int {v : Value} (h : IsInt v) : intOf b v = .ok v := by
  obtain ⟨n, rfl⟩ := h
  rfl

theorem intOrNone_int {v : Value} (h : v = .null ∨ IsInt v) : intOrNone b v = .ok v := by
  rcases h with rfl | ⟨n, rfl⟩
  · rfl
  · rfl

theorem ArtifactRef.fromDict_toDict {a : ArtifactRef} (h : a.Canonical) :
    ArtifactRef.fromDict b a.toDict = .ok a := by
  have hread : ArtifactRef.fromDict b a.toDict = (do
      let version ← intOf b a.version
      let parentVersion ← intOrNone b a.parentVersion
      .ok ⟨a.artifactId, a.name, version, a.mediaType, a.uri, a.digest, a.createdBy, a.taskId,
        parentVersion⟩) := rfl
  rw [hread, intOf_int h.1, intOrNone_int h.2]
  rfl

/-- A relevance is a number, so it is no `nan`. -/
theorem ContextRef.relevance_float {r : ContextRef} (h : r.Canonical) : ∃ x, r.relevance = .float x := by
  rcases h with hnan | hfloat
  · have hrelevant := r.relevant
    rw [hnan] at hrelevant
    exact absurd hrelevant (by decide)
  · exact hfloat

theorem ContextRef.fromDict_toDict {r : ContextRef} (h : r.Canonical) :
    ContextRef.fromDict b r.toDict = .ok r := by
  have hread : ContextRef.fromDict b r.toDict = (do
      let relevance ← floatOf b r.relevance
      ContextRef.make r.refId r.category r.version r.digest r.required relevance r.provenance) := rfl
  obtain ⟨x, hx⟩ := r.relevance_float h
  have hfloat : floatOf b r.relevance = .ok r.relevance := by rw [hx, floatOf]
  rw [hread, hfloat]
  show ContextRef.make _ _ _ _ _ r.relevance _ = _
  rw [ContextRef.make, dif_pos r.relevant]

theorem HandoffContract.make_eq (h : HandoffContract) :
    HandoffContract.make h.toHandoffFields = .ok h := by
  unfold HandoffContract.make
  split
  · rfl
  next e he =>
    rw [h.checked] at he
    cases he

theorem TaskSpec.make_eq (t : TaskSpec) : TaskSpec.make t.toTaskFields = .ok t := by
  unfold TaskSpec.make
  split
  · rfl
  next e he =>
    rw [t.checked] at he
    cases he

theorem WorkflowPlan.make_eq (p : WorkflowPlan) : WorkflowPlan.make p.toPlanFields = .ok p := by
  unfold WorkflowPlan.make
  split
  · rfl
  next e he =>
    rw [p.checked] at he
    cases he

/-- What `__post_init__` let by as a token budget, `if` takes for true. -/
theorem intIfTrue_int {v : Value} (h : v = .null ∨ IsInt v) (hpositive : notPositive v = some false) :
    intIfTrue b v = .ok v := by
  rcases h with rfl | ⟨n, rfl⟩
  · rfl
  · have hn : n ≠ 0 := by
      rintro rfl
      exact absurd hpositive (by decide)
    simp [intIfTrue, boolOf, intOf, hn]

/-- A cost an encoder writes is none or a finite float, and `float` keeps it. -/
theorem floatOrNone_float {v : Value} (h : v = .null ∨ IsFloat v) (hplain : Plain v) :
    floatOrNone b v = .ok v := by
  rcases h with rfl | rfl | ⟨x, rfl⟩
  · rfl
  · exact hplain.elim
  · rfl

theorem refuse_ok {c : Option Bool} {message : String} {u : Unit} (h : refuse c message = .ok u) :
    c = some false := by
  unfold refuse at h
  split at h
  · cases h
  · cases h
  · rfl

theorem HandoffContract.tokenBudget_positive (h : HandoffContract) :
    notPositive h.tokenBudget = some false := by
  have hchecked := h.checked
  simp only [HandoffFields.check, decode_bind_ok] at hchecked
  obtain ⟨_, -, _, -, _, -, _, hbudget, -⟩ := hchecked
  exact refuse_ok hbudget

theorem HandoffContract.fromDict_toDict {h : HandoffContract} (hcanonical : h.Canonical)
    (hplain : Plain h.costBudget) : HandoffContract.fromDict b h.toDict = .ok h := by
  have hread : HandoffContract.fromDict b h.toDict = (do
      let acceptanceCriteria ← textsOf b (texts h.acceptanceCriteria)
      let deliverables ← textsOf b (texts h.deliverables)
      let inputs ← (h.inputs.map ArtifactRef.toDict).mapM (ArtifactRef.fromDict b)
      let contextRefs ← (h.contextRefs.map ContextRef.toDict).mapM (ContextRef.fromDict b)
      let constraints ← textsOf b (texts h.constraints)
      let authority ← Authority.fromDict b h.authority.toDict
      let tokenBudget ← intIfTrue b h.tokenBudget
      let costBudget ← floatOrNone b h.costBudget
      HandoffContract.make ⟨h.goal, acceptanceCriteria, deliverables, inputs, contextRefs, constraints,
        authority, h.parentTaskId, tokenBudget, costBudget, h.deadline⟩) := rfl
  rw [hread, textsOf_texts, textsOf_texts, textsOf_texts,
    mapM_map (fun a ha => ArtifactRef.fromDict_toDict (hcanonical.inputs a ha)),
    mapM_map (fun r hr => ContextRef.fromDict_toDict (hcanonical.contextRefs r hr)),
    Authority.fromDict_toDict, intIfTrue_int hcanonical.tokenBudget h.tokenBudget_positive,
    floatOrNone_float hcanonical.costBudget hplain]
  exact h.make_eq

theorem TaskSpec.fromDict_toDict {t : TaskSpec} (hcanonical : t.Canonical)
    (hplain : Plain t.handoff.costBudget) : TaskSpec.fromDict b t.toDict = .ok t := by
  have hread : TaskSpec.fromDict b t.toDict = (do
      let handoff ← HandoffContract.fromDict b t.handoff.toDict
      let dependsOn ← textsOf b (texts t.dependsOn)
      let inputArtifacts ← textsOf b (texts t.inputArtifacts)
      let action ← ActionIntent.fromDict b t.action.toDict
      let priority ← intOf b t.priority
      TaskSpec.make ⟨t.title, t.agentId, handoff, t.taskId, dependsOn, inputArtifacts, action, priority,
        t.metadata⟩) := rfl
  rw [hread, HandoffContract.fromDict_toDict hcanonical.handoff hplain, textsOf_texts, textsOf_texts,
    ActionIntent.fromDict_toDict, intOf_int hcanonical.priority]
  exact t.make_eq

/-- A correlation id that is not empty, `if` takes for true. -/
theorem textIfTrue_text {c : Option String} (h : c ≠ some "") : textIfTrue b (optionalText c) = c := by
  cases c with
  | none => rfl
  | some text =>
    have htext : text ≠ "" := fun heq => h (congrArg some heq)
    simp [textIfTrue, optionalText, boolOf, strOf, htext]

/-- An empty correlation id is read as none. -/
theorem textIfTrue_ne_empty {c : Option String} : textIfTrue b (optionalText c) ≠ some "" := by
  cases c with
  | none => simp [textIfTrue, optionalText, boolOf]
  | some text =>
    by_cases htext : text = "" <;> simp [textIfTrue, optionalText, boolOf, strOf, htext]

/-! ### What an encoder writes of a plan -/

theorem plain_of_mem : ∀ {items : List Value} {v : Value}, PlainItems items → v ∈ items → Plain v
  | _ :: _, _, h, hmem => by
    rcases List.mem_cons.mp hmem with rfl | hmem
    · exact h.1
    · exact plain_of_mem h.2 hmem

/-- The costs of a plan that can be written are finite. -/
theorem WorkflowPlan.costBudget_plain {p : WorkflowPlan} (hplain : Plain p.toDict) {t : TaskSpec}
    (ht : t ∈ p.tasks) : Plain t.handoff.costBudget := by
  have htasks : PlainItems (p.tasks.map TaskSpec.toDict) := hplain.2.2.2.2.2.1
  have htask : Plain t.toDict := plain_of_mem htasks (List.mem_map_of_mem ht)
  have hhandoff : Plain t.handoff.toDict := htask.2.2.2.1
  exact hhandoff.2.2.2.2.2.2.2.2.2.1

theorem WorkflowPlan.fromDict_eq (p : WorkflowPlan) :
    WorkflowPlan.fromDict b p.toDict = (do
      let tasks ← (p.tasks.map TaskSpec.toDict).mapM (TaskSpec.fromDict b)
      WorkflowPlan.make ⟨p.sessionId, p.goal, p.initiatedBy, tasks, p.planId,
        textIfTrue b (optionalText p.correlationId)⟩) := rfl

/-- **A canonical plan is read as it was written.** -/
theorem WorkflowPlan.fromDict_toDict {p : WorkflowPlan} (hcanonical : p.Canonical)
    (hplain : Plain p.toDict) : WorkflowPlan.fromDict b p.toDict = .ok p := by
  have htasks : ∀ t ∈ p.tasks, TaskSpec.fromDict b t.toDict = .ok t := fun t ht =>
    TaskSpec.fromDict_toDict (hcanonical.tasks t ht) (costBudget_plain hplain ht)
  rw [p.fromDict_eq, mapM_map htasks, textIfTrue_text hcanonical.correlationId]
  exact p.make_eq

/-- **What is read is canonical.** -/
theorem WorkflowPlan.fromDict_canonical {p p' : WorkflowPlan}
    (h : WorkflowPlan.fromDict b p.toDict = .ok p') : p'.Canonical := by
  rw [p.fromDict_eq] at h
  obtain ⟨tasks, htasks, hmake⟩ := decode_bind_ok.mp h
  have hfields := WorkflowPlan.make_ok hmake
  refine ⟨?_, ?_⟩ <;> rw [hfields]
  · exact textIfTrue_ne_empty
  · intro t ht
    obtain ⟨w, -, hw⟩ := mapM_mem htasks t ht
    exact TaskSpec.fromDict_canonical hw

/-! ## Contracts with one text -/

theorem normalize_int {v : Value} {n : Int} (h : PyJson.normalize v = .int n) : v = .int n := by
  cases v <;> simp_all [PyJson.normalize]

theorem normalize_float {v : Value} {x : PyFloat} (h : PyJson.normalize v = .float x) : v = .float x := by
  cases v <;> simp_all [PyJson.normalize]

theorem normalize_nonFinite {v : Value} (h : PyJson.normalize v = .nonFinite) : v = .nonFinite := by
  cases v <;> simp_all [PyJson.normalize]

theorem normalize_null {v : Value} (h : PyJson.normalize v = .null) : v = .null := by
  cases v <;> simp_all [PyJson.normalize]

theorem isInt_of_alike {v w : Value} (h : PyJson.normalize v = PyJson.normalize w) (hw : IsInt w) :
    IsInt v := by
  obtain ⟨n, rfl⟩ := hw
  exact ⟨n, normalize_int h⟩

theorem isFloat_of_alike {v w : Value} (h : PyJson.normalize v = PyJson.normalize w)
    (hw : IsFloat w) : IsFloat v := by
  rcases hw with rfl | ⟨x, rfl⟩
  · exact .inl (normalize_nonFinite h)
  · exact .inr ⟨x, normalize_float h⟩

theorem null_of_alike {v w : Value} (h : PyJson.normalize v = PyJson.normalize w) (hw : w = .null) :
    v = .null := by
  rw [hw] at h
  exact normalize_null h

/-- What holds of one list's items holds of the other's, the two written alike. -/
theorem forall_of_alike {α : Type} {f : α → Value} {C : α → Prop} {l l' : List α}
    (h : PyJson.normalize (.list (l.map f)) = PyJson.normalize (.list (l'.map f)))
    (hC : ∀ x x', PyJson.normalize (f x) = PyJson.normalize (f x') → C x' → C x) (hl' : ∀ x' ∈ l', C x') :
    ∀ x ∈ l, C x := by
  intro x hx
  have hitems : (l.map f).map PyJson.normalize = (l'.map f).map PyJson.normalize := by
    rw [← normalizeItems_eq, ← normalizeItems_eq]
    exact Value.list.inj h
  have hmem : PyJson.normalize (f x) ∈ (l'.map f).map PyJson.normalize := by
    rw [← hitems]
    exact List.mem_map_of_mem (List.mem_map_of_mem hx)
  obtain ⟨v, hv, hvx⟩ := List.mem_map.mp hmem
  obtain ⟨x', hx', rfl⟩ := List.mem_map.mp hv
  exact hC x x' hvx.symm (hl' x' hx')

theorem ArtifactRef.canonical_of_alike {a a' : ArtifactRef}
    (h : PyJson.normalize a.toDict = PyJson.normalize a'.toDict) (ha' : a'.Canonical) : a.Canonical := by
  have hvalues := record_inj ["artifactId", "name", "version", "mediaType", "uri", "digest", "createdBy",
    "taskId", "parentVersion"] [_, _, _, _, _, _, _, _, _] [_, _, _, _, _, _, _, _, _] (by decide) rfl rfl h
  simp only [List.map_cons, List.cons.injEq] at hvalues
  obtain ⟨-, -, hversion, -, -, -, -, -, hparent, -⟩ := hvalues
  exact ⟨isInt_of_alike hversion ha'.1, ha'.2.imp (null_of_alike hparent) (isInt_of_alike hparent)⟩

theorem ContextRef.canonical_of_alike {r r' : ContextRef}
    (h : PyJson.normalize r.toDict = PyJson.normalize r'.toDict)
    (hr' : r'.Canonical) : r.Canonical := by
  have hvalues := record_inj ["refId", "category", "version", "digest", "required", "relevance",
    "provenance"] [_, _, _, _, _, _, _] [_, _, _, _, _, _, _] (by decide) rfl rfl h
  simp only [List.map_cons, List.cons.injEq] at hvalues
  obtain ⟨-, -, -, -, -, hrelevance, -⟩ := hvalues
  exact isFloat_of_alike hrelevance hr'

theorem HandoffContract.canonical_of_alike {c c' : HandoffContract}
    (h : PyJson.normalize c.toDict = PyJson.normalize c'.toDict) (hc' : c'.Canonical) : c.Canonical := by
  have hvalues := record_inj ["goal", "acceptanceCriteria", "deliverables", "inputs", "contextRefs",
    "constraints", "authority", "parentTaskId", "tokenBudget", "costBudget", "deadline"]
    [_, _, _, _, _, _, _, _, _, _, _] [_, _, _, _, _, _, _, _, _, _, _] (by decide) rfl rfl h
  simp only [List.map_cons, List.cons.injEq] at hvalues
  obtain ⟨-, -, -, hinputs, hcontextRefs, -, -, -, htokenBudget, hcostBudget, -⟩ := hvalues
  exact
    { inputs := forall_of_alike hinputs (fun _ _ => ArtifactRef.canonical_of_alike) hc'.inputs
      contextRefs := forall_of_alike hcontextRefs (fun _ _ => ContextRef.canonical_of_alike) hc'.contextRefs
      tokenBudget := hc'.tokenBudget.imp (null_of_alike htokenBudget) (isInt_of_alike htokenBudget)
      costBudget := hc'.costBudget.imp (null_of_alike hcostBudget) (isFloat_of_alike hcostBudget) }

theorem TaskSpec.canonical_of_alike {t t' : TaskSpec}
    (h : PyJson.normalize t.toDict = PyJson.normalize t'.toDict)
    (ht' : t'.Canonical) : t.Canonical := by
  have hvalues := record_inj ["taskId", "title", "agentId", "handoff", "dependsOn", "inputArtifacts",
    "action", "priority", "metadata"] [_, _, _, _, _, _, _, _, _] [_, _, _, _, _, _, _, _, _] (by decide)
    rfl rfl h
  simp only [List.map_cons, List.cons.injEq] at hvalues
  obtain ⟨-, -, -, hhandoff, -, -, -, hpriority, -⟩ := hvalues
  exact ⟨HandoffContract.canonical_of_alike hhandoff ht'.handoff, isInt_of_alike hpriority ht'.priority⟩

theorem optionalText_alike {c c' : Option String}
    (h : PyJson.normalize (optionalText c) = PyJson.normalize (optionalText c')) : c = c' := by
  cases c <;> cases c' <;> simp_all [optionalText, PyJson.normalize]

theorem WorkflowPlan.canonical_of_alike {p p' : WorkflowPlan}
    (h : PyJson.normalize p.toDict = PyJson.normalize p'.toDict) (hp' : p'.Canonical) : p.Canonical := by
  have hvalues := record_inj ["planId", "sessionId", "goal", "initiatedBy", "correlationId", "tasks"]
    [_, _, _, _, _, _] [_, _, _, _, _, _] (by decide) rfl rfl h
  simp only [List.map_cons, List.cons.injEq] at hvalues
  obtain ⟨-, -, -, -, hcorrelation, htasks, -⟩ := hvalues
  refine ⟨?_, forall_of_alike htasks (fun _ _ => TaskSpec.canonical_of_alike) hp'.tasks⟩
  rw [optionalText_alike hcorrelation]
  exact hp'.correlationId

/-! ## The recovery of a plan

What recovery reads is the text's payload, not the plan's own document: its
dicts are in key order, and its tuples are lists. -/

/-- `_decode_recovered_plan`, up to the event's envelope: the plan read, if it
has the payload's text. -/
def decodeRecoveredPlan (b : Builtins) (payload : Value) : Option WorkflowPlan :=
  match WorkflowPlan.fromDict b payload, canonicalJson payload with
  | .ok plan, some text => if canonicalJson plan.toDict = some text then some plan else none
  | _, _ => none

def ContextRef.persisted (r : ContextRef) : ContextRef :=
  { r with provenance := PyJson.normalize r.provenance }

def HandoffContract.persisted (h : HandoffContract) : HandoffContract :=
  { h with
    contextRefs := h.contextRefs.map ContextRef.persisted
    parentTaskId := PyJson.normalize h.parentTaskId
    deadline := PyJson.normalize h.deadline
    checked := h.checked }

def TaskSpec.persisted (t : TaskSpec) : TaskSpec :=
  { t with
    handoff := t.handoff.persisted
    metadata := normalizePairs [] t.metadata
    checked := t.checked }

theorem WorkflowPlan.persisted_checked (p : WorkflowPlan) :
    { p.toPlanFields with tasks := p.tasks.map TaskSpec.persisted }.check = .ok () := by
  have hchecked := p.checked
  simp only [PlanFields.check, List.isEmpty_map] at hchecked ⊢
  exact hchecked

/-- The plan as its persisted payload has it. -/
def WorkflowPlan.persisted (p : WorkflowPlan) : WorkflowPlan :=
  { p with
    tasks := p.tasks.map TaskSpec.persisted
    checked := p.persisted_checked }

theorem normalize_texts (l : List String) : PyJson.normalize (texts l) = texts l := by
  rw [texts, PyJson.normalize, normalizeItems_eq, List.map_map]
  rfl

theorem normalize_list (f : α → Value) (l : List α) :
    PyJson.normalize (.list (l.map f)) = .list (l.map (fun x => PyJson.normalize (f x))) := by
  rw [PyJson.normalize, normalizeItems_eq, List.map_map]
  rfl

theorem Authority.fromDict_normalize (a : Authority) :
    Authority.fromDict b (PyJson.normalize a.toDict) = .ok a := by
  have hread : Authority.fromDict b (PyJson.normalize a.toDict) = (do
      let allowedActions ← textsOf b (PyJson.normalize (texts a.allowedActions))
      let dataScopes ← textsOf b (PyJson.normalize (texts a.dataScopes))
      let maxRisk ← RiskLevel.ofText a.maxRisk.value
      .ok ⟨allowedActions, dataScopes, maxRisk, a.externalSideEffects⟩) := rfl
  rw [hread, normalize_texts, normalize_texts, textsOf_texts, textsOf_texts, RiskLevel.ofText_value]
  rfl

theorem ActionIntent.fromDict_normalize (a : ActionIntent) :
    ActionIntent.fromDict b (PyJson.normalize a.toDict) = .ok a := by
  have hread : ActionIntent.fromDict b (PyJson.normalize a.toDict) = (do
      let risk ← RiskLevel.ofText a.risk.value
      let dataClasses ← textsOf b (PyJson.normalize (texts a.dataClasses))
      .ok ⟨a.action, a.target, risk, a.externalSideEffect, a.irreversible, dataClasses⟩) := rfl
  rw [hread, normalize_texts, textsOf_texts, RiskLevel.ofText_value]
  rfl

theorem normalize_isInt {v : Value} (h : IsInt v) : PyJson.normalize v = v := by
  obtain ⟨n, rfl⟩ := h
  rfl

theorem normalize_isFloat {v : Value} (h : IsFloat v) : PyJson.normalize v = v := by
  rcases h with rfl | ⟨x, rfl⟩
  · rfl
  · rfl

theorem normalize_orNull {C : Value → Prop} (hC : ∀ {v : Value}, C v → PyJson.normalize v = v) {v : Value}
    (h : v = .null ∨ C v) : PyJson.normalize v = v := by
  rcases h with rfl | h
  · rfl
  · exact hC h

theorem ArtifactRef.fromDict_normalize {a : ArtifactRef} (h : a.Canonical) :
    ArtifactRef.fromDict b (PyJson.normalize a.toDict) = .ok a := by
  have hread : ArtifactRef.fromDict b (PyJson.normalize a.toDict) = (do
      let version ← intOf b (PyJson.normalize a.version)
      let parentVersion ← intOrNone b (PyJson.normalize a.parentVersion)
      .ok ⟨a.artifactId, a.name, version, a.mediaType, a.uri, a.digest, a.createdBy, a.taskId,
        parentVersion⟩) := rfl
  rw [hread, normalize_isInt h.1, normalize_orNull normalize_isInt h.2, intOf_int h.1, intOrNone_int h.2]
  rfl

theorem ContextRef.fromDict_normalize {r : ContextRef} (h : r.Canonical) :
    ContextRef.fromDict b (PyJson.normalize r.toDict) = .ok r.persisted := by
  have hread : ContextRef.fromDict b (PyJson.normalize r.toDict) = (do
      let relevance ← floatOf b (PyJson.normalize r.relevance)
      ContextRef.make r.refId r.category r.version r.digest r.required relevance
        (PyJson.normalize r.provenance)) := rfl
  obtain ⟨x, hx⟩ := r.relevance_float h
  have hfloat : floatOf b r.relevance = .ok r.relevance := by rw [hx, floatOf]
  rw [hread, normalize_isFloat h, hfloat]
  show ContextRef.make _ _ _ _ _ r.relevance _ = _
  rw [ContextRef.make, dif_pos r.relevant]
  rfl

theorem HandoffContract.fromDict_normalize {h : HandoffContract} (hcanonical : h.Canonical)
    (hplain : Plain h.costBudget) :
    HandoffContract.fromDict b (PyJson.normalize h.toDict) = .ok h.persisted := by
  have hread : HandoffContract.fromDict b (PyJson.normalize h.toDict) = (do
      let acceptanceCriteria ← textsOf b (PyJson.normalize (texts h.acceptanceCriteria))
      let deliverables ← textsOf b (PyJson.normalize (texts h.deliverables))
      let inputs ← (← iterate (PyJson.normalize (.list (h.inputs.map ArtifactRef.toDict)))).mapM
        (ArtifactRef.fromDict b)
      let contextRefs ← (← iterate (PyJson.normalize (.list (h.contextRefs.map ContextRef.toDict)))).mapM
        (ContextRef.fromDict b)
      let constraints ← textsOf b (PyJson.normalize (texts h.constraints))
      let authority ← Authority.fromDict b (PyJson.normalize h.authority.toDict)
      let tokenBudget ← intIfTrue b (PyJson.normalize h.tokenBudget)
      let costBudget ← floatOrNone b (PyJson.normalize h.costBudget)
      HandoffContract.make ⟨h.goal, acceptanceCriteria, deliverables, inputs, contextRefs, constraints,
        authority, PyJson.normalize h.parentTaskId, tokenBudget, costBudget,
          PyJson.normalize h.deadline⟩) := rfl
  have hinputs : (h.inputs.map (fun a => PyJson.normalize a.toDict)).mapM (ArtifactRef.fromDict b) =
      .ok h.inputs :=
    mapM_map (fun a ha => ArtifactRef.fromDict_normalize (hcanonical.inputs a ha))
  have hcontextRefs : (h.contextRefs.map (fun r => PyJson.normalize r.toDict)).mapM
      (ContextRef.fromDict b) =
      .ok (h.contextRefs.map ContextRef.persisted) :=
    mapM_map_eq (fun r hr => ContextRef.fromDict_normalize (hcanonical.contextRefs r hr))
  rw [hread, normalize_texts, normalize_texts, normalize_texts, textsOf_texts, textsOf_texts,
    textsOf_texts, normalize_list, normalize_list, Authority.fromDict_normalize,
    normalize_orNull normalize_isInt hcanonical.tokenBudget,
    normalize_orNull normalize_isFloat hcanonical.costBudget,
    intIfTrue_int hcanonical.tokenBudget h.tokenBudget_positive,
    floatOrNone_float hcanonical.costBudget hplain]
  simp only [iterate, decode_ok_bind, hinputs, hcontextRefs]
  exact h.persisted.make_eq

theorem TaskSpec.fromDict_normalize {t : TaskSpec} (hcanonical : t.Canonical)
    (hplain : Plain t.handoff.costBudget) :
    TaskSpec.fromDict b (PyJson.normalize t.toDict) = .ok t.persisted := by
  have hhandoff : item "handoff" (PyJson.normalize t.toDict) = .ok
      (PyJson.normalize t.handoff.toDict) := rfl
  have hdependsOn : get "dependsOn" (.tuple []) (PyJson.normalize t.toDict) =
      .ok (PyJson.normalize (texts t.dependsOn)) := rfl
  have hinputArtifacts : get "inputArtifacts" (.tuple []) (PyJson.normalize t.toDict) =
      .ok (PyJson.normalize (texts t.inputArtifacts)) := rfl
  have haction : get "action" analyze (PyJson.normalize t.toDict) = .ok
      (PyJson.normalize t.action.toDict) := rfl
  have hpriority : get "priority" (.int 50) (PyJson.normalize t.toDict) = .ok
      (PyJson.normalize t.priority) := rfl
  have hmetadata : get "metadata" (.dict []) (PyJson.normalize t.toDict) =
      .ok (.dict (normalizePairs [] t.metadata)) := rfl
  have htitle : item "title" (PyJson.normalize t.toDict) = .ok (.str t.title) := rfl
  have hagentId : item "agentId" (PyJson.normalize t.toDict) = .ok (.str t.agentId) := rfl
  have htaskId : item "taskId" (PyJson.normalize t.toDict) = .ok (.str t.taskId) := rfl
  simp only [TaskSpec.fromDict, htitle, hagentId, htaskId, hhandoff, hdependsOn, hinputArtifacts, haction,
    hpriority, hmetadata, decode_ok_bind, HandoffContract.fromDict_normalize hcanonical.handoff hplain,
    normalize_texts, textsOf_texts, ActionIntent.fromDict_normalize, normalize_isInt hcanonical.priority,
    intOf_int hcanonical.priority, dictOf, strOf]
  exact t.persisted.make_eq

theorem WorkflowPlan.fromDict_normalize {p : WorkflowPlan} (hcanonical : p.Canonical)
    (hplain : Plain p.toDict) : WorkflowPlan.fromDict b (PyJson.normalize p.toDict) = .ok p.persisted := by
  have hread : WorkflowPlan.fromDict b (PyJson.normalize p.toDict) = (do
      let tasks ← (← iterate (PyJson.normalize (.list (p.tasks.map TaskSpec.toDict)))).mapM
          (TaskSpec.fromDict b)
      WorkflowPlan.make ⟨p.sessionId, p.goal, p.initiatedBy, tasks, p.planId,
        textIfTrue b (PyJson.normalize (optionalText p.correlationId))⟩) := rfl
  have htasks : (p.tasks.map (fun t => PyJson.normalize t.toDict)).mapM (TaskSpec.fromDict b) =
      .ok (p.tasks.map TaskSpec.persisted) :=
    mapM_map_eq (fun t ht =>
      TaskSpec.fromDict_normalize (hcanonical.tasks t ht) (costBudget_plain hplain ht))
  have hcorrelation : PyJson.normalize (optionalText p.correlationId) = optionalText p.correlationId := by
    cases p.correlationId <;> rfl
  rw [hread, normalize_list, hcorrelation, textIfTrue_text hcanonical.correlationId]
  simp only [iterate, decode_ok_bind, htasks]
  exact p.persisted.make_eq

/-! ### The persisted plan has the text -/

theorem normalizePairs_zip : ∀ {keys : List String} {vs ws : List Value} (acc : List (String × Value)),
    vs.map PyJson.normalize = ws.map PyJson.normalize →
    normalizePairs acc (keys.zip vs) = normalizePairs acc (keys.zip ws)
  | [], _, _, _, _ => rfl
  | _ :: _, [], [], _, _ => rfl
  | k :: keys, v :: vs, w :: ws, acc, h => by
    obtain ⟨hhead, htail⟩ := List.cons.inj h
    rw [List.zip_cons_cons, List.zip_cons_cons, normalizePairs, normalizePairs, hhead]
    exact normalizePairs_zip _ htail

/-- Two records that hold the same, field by field, are alike. -/
theorem record_alike (keys : List String) (vs ws : List Value)
    (h : vs.map PyJson.normalize = ws.map PyJson.normalize) :
    PyJson.normalize (.dict (keys.zip vs)) = PyJson.normalize (.dict (keys.zip ws)) := by
  rw [PyJson.normalize, PyJson.normalize, normalizePairs_zip [] h]

theorem normalize_twice {v : Value} (h : Plain v) :
    PyJson.normalize (PyJson.normalize v) = PyJson.normalize v :=
  normalize_of_normal _ (normal_normalize v h)

theorem list_alike {f : α → Value} {g : α → α} {l : List α}
    (h : ∀ x ∈ l, PyJson.normalize (f (g x)) = PyJson.normalize (f x)) :
    PyJson.normalize (.list ((l.map g).map f)) = PyJson.normalize (.list (l.map f)) := by
  rw [List.map_map, normalize_list, normalize_list]
  exact congrArg Value.list (List.map_congr_left h)

theorem ContextRef.persisted_alike {r : ContextRef} (hplain : Plain r.toDict) :
    PyJson.normalize r.persisted.toDict = PyJson.normalize r.toDict := by
  have hprovenance : Plain r.provenance := hplain.2.2.2.2.2.2.1
  exact record_alike ["refId", "category", "version", "digest", "required", "relevance", "provenance"]
    [_, _, _, _, _, _, PyJson.normalize r.provenance] [_, _, _, _, _, _, r.provenance]
    (by
      simp only [List.map_cons, normalize_twice hprovenance]
      rfl)

theorem HandoffContract.persisted_alike {h : HandoffContract} (hplain : Plain h.toDict) :
    PyJson.normalize h.persisted.toDict = PyJson.normalize h.toDict := by
  have hparent : Plain h.parentTaskId := hplain.2.2.2.2.2.2.2.1
  have hdeadline : Plain h.deadline := hplain.2.2.2.2.2.2.2.2.2.2.1
  have hrefs : PlainItems (h.contextRefs.map ContextRef.toDict) := hplain.2.2.2.2.1
  have hcontextRefs : PyJson.normalize (.list
      ((h.contextRefs.map ContextRef.persisted).map ContextRef.toDict)) =
      PyJson.normalize (.list (h.contextRefs.map ContextRef.toDict)) :=
    list_alike (fun r hr => ContextRef.persisted_alike (plain_of_mem hrefs (List.mem_map_of_mem hr)))
  exact record_alike ["goal", "acceptanceCriteria", "deliverables", "inputs", "contextRefs",
    "constraints", "authority", "parentTaskId", "tokenBudget", "costBudget", "deadline"]
    [_, _, _, _, .list ((h.contextRefs.map ContextRef.persisted).map ContextRef.toDict), _, _,
      PyJson.normalize h.parentTaskId, _, _, PyJson.normalize h.deadline]
    [_, _, _, _, .list (h.contextRefs.map ContextRef.toDict), _, _, h.parentTaskId, _, _, h.deadline]
    (by
      simp only [List.map_cons, normalize_twice hparent, normalize_twice hdeadline, hcontextRefs]
      rfl)

theorem TaskSpec.persisted_alike {t : TaskSpec} (hplain : Plain t.toDict) :
    PyJson.normalize t.persisted.toDict = PyJson.normalize t.toDict := by
  have hhandoff : Plain t.handoff.toDict := hplain.2.2.2.1
  have hmetadata : Plain (.dict t.metadata) := hplain.2.2.2.2.2.2.2.2.1
  exact record_alike ["taskId", "title", "agentId", "handoff", "dependsOn", "inputArtifacts",
    "action", "priority", "metadata"]
    [_, _, _, t.handoff.persisted.toDict, _, _, _, _, PyJson.normalize (.dict t.metadata)]
    [_, _, _, t.handoff.toDict, _, _, _, _, .dict t.metadata]
    (by
      simp only [List.map_cons, normalize_twice hmetadata, HandoffContract.persisted_alike hhandoff]
      rfl)

theorem WorkflowPlan.persisted_alike {p : WorkflowPlan} (hplain : Plain p.toDict) :
    PyJson.normalize p.persisted.toDict = PyJson.normalize p.toDict := by
  have hitems : PlainItems (p.tasks.map TaskSpec.toDict) := hplain.2.2.2.2.2.1
  have htasks : PyJson.normalize (.list ((p.tasks.map TaskSpec.persisted).map TaskSpec.toDict)) =
      PyJson.normalize (.list (p.tasks.map TaskSpec.toDict)) :=
    list_alike (fun t ht => TaskSpec.persisted_alike (plain_of_mem hitems (List.mem_map_of_mem ht)))
  exact record_alike ["planId", "sessionId", "goal", "initiatedBy", "correlationId", "tasks"]
    [_, _, _, _, _, .list ((p.tasks.map TaskSpec.persisted).map TaskSpec.toDict)]
    [_, _, _, _, _, .list (p.tasks.map TaskSpec.toDict)]
    (by
      simp only [List.map_cons, htasks]
      rfl)

/-- What `json.loads` reads of the text. -/
theorem loads_dumps_normalize {v : Value} (hplain : Plain v) :
    loads (dumps v) = some (PyJson.normalize v) := by
  have hnormal := normal_normalize v hplain
  have htext : dumps (PyJson.normalize v) = dumps v := by rw [dumps, normalize_of_normal _ hnormal, dumps]
  rw [← htext]
  exact loads_dumps hnormal

mutual

theorem plain_of_normal : ∀ v : Value, Normal v → Plain v
  | .list items, h => plainItems_of_normal items h
  | .dict pairs, h => plainPairs_of_normal pairs h.2
  | .null, _ => trivial
  | .bool _, _ => trivial
  | .int _, _ => trivial
  | .float _, _ => trivial
  | .str _, _ => trivial

theorem plainItems_of_normal : ∀ items : List Value, NormalItems items → PlainItems items
  | [], _ => trivial
  | v :: rest, h => ⟨plain_of_normal v h.1, plainItems_of_normal rest h.2⟩

theorem plainPairs_of_normal : ∀ pairs : List (String × Value), NormalPairs pairs → PlainPairs pairs
  | [], _ => trivial
  | (_, v) :: rest, h => ⟨plain_of_normal v h.1, plainPairs_of_normal rest h.2⟩

end

theorem plain_normalize {v : Value} (h : Plain v) : Plain (PyJson.normalize v) :=
  plain_of_normal _ (normal_normalize v h)

theorem plainItems_map {α : Type} {f : α → Value} : ∀ {l : List α}, (∀ x ∈ l, Plain (f x)) →
    PlainItems (l.map f)
  | [], _ => trivial
  | x :: _, h => ⟨h x List.mem_cons_self, plainItems_map (fun y hy => h y (List.mem_cons_of_mem _ hy))⟩

/-- What stays plain item by item, the items exchanged. -/
theorem plainItems_exchange {α : Type} {f : α → Value} {g : α → α} {l : List α}
    (h : PlainItems (l.map f)) (hg : ∀ x, Plain (f x) → Plain (f (g x))) :
    PlainItems ((l.map g).map f) := by
  rw [List.map_map]
  exact plainItems_map (fun x hx => hg x (plain_of_mem h (List.mem_map_of_mem hx)))

theorem ContextRef.persisted_plain (r : ContextRef) (h : Plain r.toDict) : Plain r.persisted.toDict := by
  obtain ⟨hrefId, hcategory, hversion, hdigest, hrequired, hrelevance, hprovenance, hend⟩ := h
  exact ⟨hrefId, hcategory, hversion, hdigest, hrequired, hrelevance, plain_normalize hprovenance, hend⟩

theorem HandoffContract.persisted_plain {c : HandoffContract} (h : Plain c.toDict) :
    Plain c.persisted.toDict := by
  obtain ⟨hgoal, hacceptance, hdeliverables, hinputs, hcontextRefs, hconstraints, hauthority, hparent,
    htokenBudget, hcostBudget, hdeadline, hend⟩ := h
  exact ⟨hgoal, hacceptance, hdeliverables, hinputs,
    plainItems_exchange hcontextRefs ContextRef.persisted_plain, hconstraints, hauthority,
    plain_normalize hparent, htokenBudget, hcostBudget, plain_normalize hdeadline, hend⟩

theorem TaskSpec.persisted_plain (t : TaskSpec) (h : Plain t.toDict) : Plain t.persisted.toDict := by
  obtain ⟨htaskId, htitle, hagentId, hhandoff, hdependsOn, hinputArtifacts, haction, hpriority, hmetadata,
    hend⟩ := h
  have hmetadata' : Plain (.dict t.metadata) := hmetadata
  exact ⟨htaskId, htitle, hagentId, HandoffContract.persisted_plain hhandoff, hdependsOn, hinputArtifacts,
    haction, hpriority, plain_normalize hmetadata', hend⟩

theorem WorkflowPlan.persisted_plain {p : WorkflowPlan} (h : Plain p.toDict) :
    Plain p.persisted.toDict := by
  obtain ⟨hplanId, hsessionId, hgoal, hinitiatedBy, hcorrelationId, htasks, hend⟩ := h
  exact ⟨hplanId, hsessionId, hgoal, hinitiatedBy, hcorrelationId,
    plainItems_exchange htasks TaskSpec.persisted_plain, hend⟩

theorem canonicalJson_of_alike {v w : Value} (hv : Plain v) (hw : Plain w)
    (h : PyJson.normalize v = PyJson.normalize w) : canonicalJson v = canonicalJson w := by
  rw [canonicalJson_some.mpr ⟨hv, rfl⟩, canonicalJson_some.mpr ⟨hw, rfl⟩, dumps, dumps, h]

theorem WorkflowPlan.persisted_text {p : WorkflowPlan} (hplain : Plain p.toDict) :
    canonicalJson p.persisted.toDict = canonicalJson p.toDict :=
  canonicalJson_of_alike (persisted_plain hplain) hplain (persisted_alike hplain)

/-- Recovery accepts the persisted payload of a canonical plan. -/
theorem WorkflowPlan.decodeRecoveredPlan_persisted {p : WorkflowPlan} (hcanonical : p.Canonical)
    (hplain : Plain p.toDict) : decodeRecoveredPlan b (PyJson.normalize p.toDict) = some p.persisted := by
  have htext : canonicalJson (PyJson.normalize p.toDict) = canonicalJson p.toDict :=
    canonicalJson_of_alike (plain_normalize hplain) hplain (normalize_twice hplain)
  have hsome : canonicalJson p.toDict = some (dumps p.toDict) := canonicalJson_some.mpr ⟨hplain, rfl⟩
  simp only [decodeRecoveredPlan, fromDict_normalize hcanonical hplain, htext, persisted_text hplain, hsome,
    if_true]

/-- **A plan reads back with the text it was written with**, and recovery
accepts its payload, exactly if it is canonical, or cannot be written. -/
theorem WorkflowPlan.reads_back_iff (b : Builtins) (p : WorkflowPlan) :
    (∀ text, canonicalJson p.toDict = some text →
      (∃ p', WorkflowPlan.fromDict b p.toDict = .ok p' ∧ canonicalJson p'.toDict = some text) ∧
      ∃ payload p', loads text = some payload ∧ decodeRecoveredPlan b payload = some p' ∧
        canonicalJson p'.toDict = some text) ↔
      canonicalJson p.toDict = none ∨ p.Canonical := by
  constructor
  · intro hreads
    cases htext : canonicalJson p.toDict with
    | none => exact .inl rfl
    | some text =>
      obtain ⟨⟨p', hread, htext'⟩, -⟩ := hreads text htext
      exact .inr (canonical_of_alike (canonicalJson_eq htext htext') (fromDict_canonical hread))
  · rintro (hnone | hcanonical) text htext
    · rw [hnone] at htext
      cases htext
    · obtain ⟨hplain, htext'⟩ := canonicalJson_some.mp htext
      have hpayload : loads text = some (PyJson.normalize p.toDict) := by
        rw [← htext']
        exact loads_dumps_normalize hplain
      refine ⟨⟨p, fromDict_toDict hcanonical hplain, htext⟩, PyJson.normalize p.toDict, p.persisted,
          hpayload,
        decodeRecoveredPlan_persisted hcanonical hplain, ?_⟩
      rw [persisted_text hplain, htext]

namespace Sample

/-- A plan whose correlation id is empty. -/
def emptyCorrelation : WorkflowPlan where
  sessionId := "s"
  goal := "ship"
  initiatedBy := "owner"
  tasks := [first]
  planId := "p"
  correlationId := some ""
  checked := by rfl

end Sample

open Sample in
/-- Its constructor accepts it and its text can be written, but what is read
back has another text. -/
theorem empty_correlation :
    (canonicalJson emptyCorrelation.toDict).isSome = true ∧
    ∀ b : Builtins, ∀ p', WorkflowPlan.fromDict b emptyCorrelation.toDict = .ok p' →
      canonicalJson p'.toDict ≠ canonicalJson emptyCorrelation.toDict := by
  have hplain : Plain emptyCorrelation.toDict := (isPlain_iff _).mp (by decide)
  have hwritten := canonicalJson_some.mpr ⟨hplain, rfl⟩
  rw [hwritten]
  refine ⟨rfl, fun b p' hread htext => ?_⟩
  have halike := canonicalJson_eq hwritten htext
  have hcanonical := WorkflowPlan.canonical_of_alike halike (WorkflowPlan.fromDict_canonical hread)
  exact hcanonical.correlationId rfl

end QuantumEntanglement.Scheduler
