import QuantumEntanglement.Operations.Composer

/-
  One-shot protected operations — what a consumed handle says

  A handle is consumed in the registry's last critical section of a call; what
  that call checked before it, it checked in earlier sections. `Stage.Knows`
  is what a call has found out by then, and stays true of what it carries,
  whatever the others do meanwhile. What is true at the last section itself is
  what that section looks at: the registry. The context is not: it was live
  when the basis was refreshed, and may be retired before the handle is taken
  out (`late_consume`).

  What is proved:
    1. `step_inv` — what one step keeps.
    2. `consumed_once` — what holds of every handle consumed in any run.
-/

namespace QuantumEntanglement.Operations

open Tenancy RequestContext Transaction Transaction.Txn TransitionSystem HandleRegistry

variable (issuerPolicy : IssuerPolicy) (policy : ComposerPolicy)

/-! ## What a call has found out -/

/-- The state was current and the authorizer asked during the call. -/
structure Evaluated (startedAt : Nat) (request : AccessRequest) (basis : ReauthorizationBasis)
    (e : Evaluation) : Prop where
  state : Current basis e.state
  request : e.decision.request = request
  during : startedAt < e.decidedAt

/-- The authorizer allowed it, on a state that was young enough then. -/
structure Allowed (e : Evaluation) (afterDecision : UtcMoment) : Prop where
  outcome : e.decision.outcome = .allow
  age : afterDecision.micros - e.state.observedAt.micros < policy.maxStateAge

/-- The context was live, and the basis said the same of it as before. -/
def Refreshed (context : Nat) (request : AccessRequest) (basis refreshed : ReauthorizationBasis)
    (contexts : World) : Prop :=
  SameContextBasis basis refreshed ∧
    ∃ i now, LiveContext contexts context request i now ∧ refreshed.Repeats i.snapshot now

/-- What call `c` knows at its stage, before step `n`. -/
def Call.Knows (c : Call) (n : Nat) : Prop :=
  c.startedAt < n ∧
    match c.stage with
    | .opened => True
    | .prepared basis | .checked basis | .loading basis _ => BasisMatchesRequest basis c.request
    | .loaded basis state => BasisMatchesRequest basis c.request ∧ Current basis state
    | .decided basis e =>
      BasisMatchesRequest basis c.request ∧ Evaluated c.startedAt c.request basis e ∧ e.decidedAt < n
    | .evaluated basis e afterDecision =>
      BasisMatchesRequest basis c.request ∧ Evaluated c.startedAt c.request basis e ∧
        e.decidedAt < n ∧ Allowed policy e afterDecision
    | .refreshed basis e afterDecision refreshed contexts refreshedAt =>
      BasisMatchesRequest basis c.request ∧ Evaluated c.startedAt c.request basis e ∧
        Allowed policy e afterDecision ∧ Refreshed c.context c.request basis refreshed contexts ∧
        e.decidedAt < refreshedAt ∧ refreshedAt < n

variable {issuerPolicy policy}

/-- What a call knows stays true. -/
theorem Call.Knows.later {call : Call} {n : Nat} (h : call.Knows policy n) :
    call.Knows policy (n + 1) := by
  obtain ⟨hstarted, h⟩ := h
  refine ⟨Nat.lt_succ_of_lt hstarted, ?_⟩
  cases hstage : call.stage with
  | opened => trivial
  | prepared basis | checked basis | loading basis _ => simpa only [hstage] using h
  | loaded basis state => simpa only [hstage] using h
  | decided basis e =>
    simp only [hstage] at h
    exact ⟨h.1, h.2.1, Nat.lt_succ_of_lt h.2.2⟩
  | evaluated basis e afterDecision =>
    simp only [hstage] at h
    exact ⟨h.1, h.2.1, Nat.lt_succ_of_lt h.2.2.1, h.2.2.2⟩
  | refreshed basis e afterDecision refreshed contexts refreshedAt =>
    simp only [hstage] at h
    obtain ⟨hmatches, hevaluated, hallowed, hrefreshed, hdecided, hbefore⟩ := h
    exact ⟨hmatches, hevaluated, hallowed, hrefreshed, hdecided, Nat.lt_succ_of_lt hbefore⟩

/-- Every call knows what its stage says. -/
def AllKnow (policy : ComposerPolicy) (calls : Nat → Option Call) (n : Nat) : Prop :=
  ∀ c call, calls c = some call → call.Knows policy n

theorem AllKnow.later {calls : Nat → Option Call} {n : Nat} (h : AllKnow policy calls n) :
    AllKnow policy calls (n + 1) := fun c call hcall => (h c call hcall).later

/-- One call gets on, or is over. -/
theorem AllKnow.update {calls : Nat → Option Call} {n c : Nat} {next : Option Call}
    (h : AllKnow policy calls n) (hnext : ∀ call, next = some call → call.Knows policy (n + 1)) :
    AllKnow policy (Function.update calls c next) (n + 1) := by
  intro d call hcall
  by_cases hd : d = c
  · rw [hd, Function.update_self] at hcall
    exact hnext call hcall
  · rw [Function.update_of_ne hd] at hcall
    exact (h d call hcall).later

theorem AllKnow.finish {calls : Nat → Option Call} {n c : Nat} (h : AllKnow policy calls n) :
    AllKnow policy (Function.update calls c none) (n + 1) :=
  h.update (fun _ hnone => by cases hnone)

/-! ## What is true of a consumption -/

/-- The handle was issued for this request, on the same context and actor and
on the revisions the state was found to have. -/
structure Serves (o : IssuedOperation) (c : Consumption) : Prop where
  operation : o.operation = c.operation
  request : o.request = c.request
  decision : o.snapshot.decisionId = o.decision.decisionId
  context : o.snapshot.contextId = c.basis.contextId ∧ o.basis.contextId = c.basis.contextId
  authenticator : o.snapshot.authenticatorId = c.basis.authenticatorId ∧
    o.snapshot.audience = c.basis.audience
  actor : o.snapshot.principalId = c.basis.principalId ∧ o.snapshot.subjectId = c.request.subjectId
  action : o.snapshot.action = c.request.action
  resource : o.snapshot.resourceType = c.request.resource.resourceType ∧
    o.snapshot.resourceId = c.request.resource.resourceId
  identityRevision : o.snapshot.identityRevision = c.evaluation.state.identityRevision
  scopeRevision : o.snapshot.scopeRevision = c.evaluation.state.scopeRevision

/-- The handle as it was when it was taken out. -/
structure TakenOut (o : IssuedOperation) (c : Consumption) (now : UtcMoment) : Prop where
  registry : c.scene.registry.closed = false
  composer : c.scene.closed = false ∨ c.scene.closing = true
  unretired : c.operation ∉ c.scene.retired
  unaltered : ∃ a, c.scene.heap.objects c.operation = some a ∧ a.alive = true ∧
    a.attributes = some o.snapshot
  unexpired : now.micros < o.snapshot.expiresAt.micros

/-- The request was authorized again during the call, before it was taken out. -/
structure Reauthorized (policy : ComposerPolicy) (c : Consumption) : Prop where
  request : c.evaluation.decision.request = c.request
  outcome : c.evaluation.decision.outcome = .allow
  state : Current c.basis c.evaluation.state
  age : c.afterDecision.micros - c.evaluation.state.observedAt.micros < policy.maxStateAge
  during : c.startedAt < c.evaluation.decidedAt ∧ c.evaluation.decidedAt < c.refreshedAt ∧
    c.refreshedAt < c.consumedAt

structure OneShot (policy : ComposerPolicy) (issued : List IssuedOperation) (c : Consumption) :
    Prop where
  handle : ∃ o ∈ issued, ∃ now, Serves o c ∧ TakenOut o c now
  live : ∃ i now, LiveContext c.contexts c.context c.request i now ∧
    i.snapshot.contextId = c.basis.contextId
  reauthorized : Reauthorized policy c

theorem OneShot.issue {issued : List IssuedOperation} {c : Consumption} (o : IssuedOperation)
    (h : OneShot policy issued c) : OneShot policy (issued ++ [o]) c where
  handle := by
    obtain ⟨o', ho, hserves⟩ := h.handle
    exact ⟨o', List.mem_append_left _ ho, hserves⟩
  live := h.live
  reauthorized := h.reauthorized

/-! ## The invariant -/

/-- An issued handle is bound to the request it was issued for. -/
structure Bound (o : IssuedOperation) : Prop where
  binds : Binds o.snapshot.toOperationBinding o.basis o.request o.decision
  basis : BasisMatchesRequest o.basis o.request

/-- The handles that are over. -/
def Composer.over (w : Composer) : List Nat := w.retired ++ w.consumed.map Consumption.operation

structure ComposerInv (issuerPolicy : IssuerPolicy) (policy : ComposerPolicy) (w : Composer) :
    Prop where
  contexts : WorldInv issuerPolicy w.contexts
  calls : AllKnow policy w.calls w.steps
  sound : Sound w.heap w.registry.active
  known : ∀ r ∈ w.registry.active, ∃ o ∈ w.issued, o.operation = r.target ∧ o.snapshot = r.snapshot
  live : ∀ r ∈ w.registry.active, r.target ∉ w.over
  made : ∀ i ∈ w.over, w.heap.objects i ≠ none
  bound : ∀ o ∈ w.issued, Bound o
  room : w.registry.active.length ≤ policy.maxActiveOperations
  once : (w.consumed.map Consumption.operation).Nodup
  closing : w.closed = true → w.closing = true ∨ w.registry.closed = true
  found : ∀ c ∈ w.consumed, OneShot policy w.issued c

variable {w : Composer}

/-- A step that adds no handle and takes none out. -/
theorem ComposerInv.goOn (h : ComposerInv issuerPolicy policy w) {contexts : World}
    {registry : Registry} {calls : Nat → Option Call} (hcontexts : WorldInv issuerPolicy contexts)
    (hm : Moved w.registry registry) (hcalls : AllKnow policy calls (w.steps + 1)) :
    ComposerInv issuerPolicy policy { w with
      contexts := contexts
      registry := registry
      calls := calls
      steps := w.steps + 1 } where
  contexts := hcontexts
  calls := hcalls
  sound := h.sound.sublist hm.active
  known := fun r hr => h.known r (hm.active.subset hr)
  live := fun r hr => h.live r (hm.active.subset hr)
  made := h.made
  bound := h.bound
  room := hm.active.length_le.trans h.room
  once := h.once
  closing := fun hclosed => (h.closing hclosed).imp id hm.closed
  found := h.found

/-- A section of the issuer's. -/
theorem ComposerInv.issuer (h : ComposerInv issuerPolicy policy w) {issuer : Issuer}
    (hm : RequestContext.Moved w.contexts.issuer issuer) :
    WorldInv issuerPolicy (w.withIssuer issuer) := h.contexts.section hm

/-- Objects come, change and go. -/
theorem ComposerInv.heap (h : ComposerInv issuerPolicy policy w) {heap : Heap OperationSnapshot}
    (he : w.heap.Extends heap) :
    ComposerInv issuerPolicy policy { w with heap := heap, steps := w.steps + 1 } where
  contexts := h.contexts
  calls := h.calls.later
  sound := h.sound.heap he
  known := h.known
  live := h.live
  made := fun i hi => by
    intro hnone
    cases ha : w.heap.objects i with
    | none => exact h.made i hi ha
    | some a =>
      obtain ⟨a', ha', -⟩ := he i a ha
      have hnone : heap.objects i = none := hnone
      rw [hnone] at ha'
      cases ha'
  bound := h.bound
  room := h.room
  once := h.once
  closing := h.closing
  found := h.found

/-! ## Handles come and go -/

/-- **A handle is issued**, at a new object. -/
theorem ComposerInv.issue (h : ComposerInv issuerPolicy policy w) {calls : Nat → Option Call}
    {basis : ReauthorizationBasis} {request : AccessRequest} {decision : AuthorizationDecision}
    {binding : OperationBinding} {expiry : UtcMoment} {reading : Option UtcMoment}
    {drawn : List (Option String)} {object address context : Nat} {snapshot : OperationSnapshot}
    {registry : Registry} (hmatches : BasisMatchesRequest basis request)
    (hbinding : operationBinding basis request decision = .ok binding)
    (hrun : Operations.issue policy w.heap binding expiry reading drawn object address w.registry =
      (.ok snapshot, registry))
    (hnew : w.heap.objects object = none)
    (hfree : ∀ j b, w.heap.objects j = some b → b.alive = true → b.address ≠ address)
    (hcalls : AllKnow policy calls (w.steps + 1)) :
    ComposerInv issuerPolicy policy { w with
      registry := registry
      heap := w.heap.allocate object address snapshot hfree
      calls := calls
      issued := w.issued ++ [⟨object, snapshot, context, request, basis, decision⟩]
      steps := w.steps + 1 } := by
  obtain ⟨s₁, hmoved, hissued⟩ := issue_ok hrun
  have hextends : w.heap.Extends (w.heap.allocate object address snapshot hfree) :=
    w.heap.allocate_extends hfree hnew
  have hkept := h.heap hextends
  have hmem : ∀ r ∈ registry.active, r ∈ w.registry.active ∨ r = ⟨address, object, snapshot⟩ := by
    intro r hr
    rw [hissued.active] at hr
    exact (mem_assign hr).imp (fun hold => hmoved.active.subset hold) id
  refine ⟨h.contexts, hcalls, ?_, ?_, ?_, hkept.made, ?_, ?_, h.once, ?_, ?_⟩
  · show Sound _ registry.active
    rw [hissued.active]
    refine (hkept.sound.sublist hmoved.active).assign ?_
    exact ⟨⟨address, some snapshot, true⟩, by simp [Heap.allocate], rfl⟩
  · intro r hr
    rcases hmem r hr with hold | rfl
    · obtain ⟨o, ho, hobject, hsnapshot⟩ := h.known r hold
      exact ⟨o, List.mem_append_left _ ho, hobject, hsnapshot⟩
    · exact ⟨_, List.mem_append_right _ (List.mem_singleton.mpr rfl), rfl, rfl⟩
  · intro r hr
    rcases hmem r hr with hold | rfl
    · exact h.live r hold
    · exact fun hover => h.made object hover hnew
  · intro o ho
    rcases List.mem_append.mp ho with hold | hlast
    · exact h.bound o hold
    · rw [List.mem_singleton.mp hlast]
      have hbinds := operationBinding_ok hbinding
      rw [← hissued.binding] at hbinds
      exact ⟨hbinds, hmatches⟩
  · show registry.active.length ≤ _
    rw [hissued.active]
    exact (length_assign _ _).trans hissued.fits
  · intro hclosed
    show w.closing = true ∨ registry.closed = true
    rw [hissued.closed]
    exact (h.closing hclosed).imp id hmoved.closed
  · exact fun c hc => (h.found c hc).issue _

/-- A handle that is taken out has no record any more, and had an object. -/
theorem ComposerInv.takeOut (h : ComposerInv issuerPolicy policy w) {operation : Nat}
    {snapshot : OperationSnapshot} {active : List (Record OperationSnapshot)}
    (htrust : trust w.heap w.registry.active operation = .trusted snapshot)
    (hsub : active.Sublist (popObject w.heap operation w.registry.active)) :
    active.Sublist w.registry.active ∧ (∀ r ∈ active, r.target ∉ operation :: w.over) ∧
      (∀ i ∈ operation :: w.over, w.heap.objects i ≠ none) ∧ operation ∉ w.over := by
  have hbefore := hsub.trans (popObject_sublist _ _ _)
  obtain ⟨r, hr, htarget, -, a, ha, -⟩ := trusted_record htrust
  refine ⟨hbefore, ?_, ?_, ?_⟩
  · intro r' hr' hover
    rcases List.mem_cons.mp hover with hthis | hover
    · exact popObject_target h.sound r' (hsub.subset hr') hthis
    · exact h.live r' (hbefore.subset hr') hover
  · intro i hi
    rcases List.mem_cons.mp hi with rfl | hi
    · simp [ha]
    · exact h.made i hi
  · rw [← htarget]
    exact h.live r hr

/-- **A handle is retired.** -/
theorem ComposerInv.retire (h : ComposerInv issuerPolicy policy w) {operation : Nat}
    {registry : Registry} (hrun : Operations.retire w.heap operation w.registry = (.ok (), registry)) :
    ComposerInv issuerPolicy policy { w with
      registry := registry
      retired := w.retired ++ [operation]
      steps := w.steps + 1 } := by
  obtain ⟨⟨snapshot, htrust⟩, hactive⟩ := retire_ok hrun
  have hmoved := moved_run (moved_retire operation) hrun
  have hpopped : registry.active.Sublist (popObject w.heap operation w.registry.active) := by
    rw [hactive]
  obtain ⟨hsub, hlive, hmade, -⟩ := h.takeOut htrust hpopped
  have hover : ∀ i, i ∈ (w.retired ++ [operation]) ++ w.consumed.map Consumption.operation ↔
      i ∈ operation :: w.over := by
    intro i
    simp only [Composer.over, List.mem_append, List.mem_cons, List.not_mem_nil, or_false]
    tauto
  exact ⟨h.contexts, h.calls.later, h.sound.sublist hsub, fun r hr => h.known r (hsub.subset hr),
    fun r hr hmem => hlive r hr ((hover _).mp hmem), fun i hi => hmade i ((hover i).mp hi), h.bound,
    hsub.length_le.trans h.room, h.once, fun hclosed => (h.closing hclosed).imp id hmoved.closed,
    h.found⟩

/-- The handle's request is the one it is used for. -/
theorem Bound.same_request {o : IssuedOperation} (h : Bound o) {basis : ReauthorizationBasis}
    {request : AccessRequest} (hmatches : SnapshotMatchesRequest o.snapshot basis request) :
    o.request = request := by
  obtain ⟨hbinds, hbasis⟩ := h
  have htenant : o.request.tenantId = request.tenantId := hbinds.scope.1.symm.trans hmatches.scope.1
  have hresource : o.request.resource.tenantId = request.resource.tenantId :=
    (hbasis.resource.trans htenant).trans hmatches.basis.resource.symm
  have hworkspace : o.request.resource.workspaceId = request.resource.workspaceId :=
    hbinds.scope.2.symm.trans hmatches.scope.2
  have htype : o.request.resource.resourceType = request.resource.resourceType :=
    hbinds.resource.1.symm.trans hmatches.resource.1
  have hid : o.request.resource.resourceId = request.resource.resourceId :=
    hbinds.resource.2.symm.trans hmatches.resource.2
  have hasked : o.request.requestId = request.requestId := hbinds.asked.symm.trans hmatches.asked
  have hsubject : o.request.subjectId = request.subjectId :=
    hbinds.actor.2.symm.trans hmatches.actor.2
  have haction : o.request.action = request.action := hbinds.action.symm.trans hmatches.action
  rcases o with ⟨_, _, _, ⟨_, _, _, _, ⟨⟨_, _, _, _⟩, _, _, _⟩, _, _⟩, _, _⟩
  rcases request with ⟨_, _, _, _, ⟨⟨_, _, _, _⟩, _, _, _⟩, _, _⟩
  simp_all

/-- **A handle is consumed.** -/
theorem ComposerInv.consume (h : ComposerInv issuerPolicy policy w) {calls : Nat → Option Call}
    {c : Nat} {call : Call} {operation refreshedAt : Nat} {basis refreshed : ReauthorizationBasis}
    {e : Evaluation} {afterDecision : UtcMoment} {contexts : World} {reading : Option UtcMoment}
    {registry : Registry} (hcall : w.calls c = some call)
    (hstage : call.stage = .refreshed basis e afterDecision refreshed contexts refreshedAt)
    (hrun : consumeRequest policy w.heap operation refreshed call.request reading w.registry =
      (.ok (), registry))
    (hcalls : AllKnow policy calls (w.steps + 1)) :
    ComposerInv issuerPolicy policy { w with
      registry := registry
      calls := calls
      consumed := w.consumed ++ [⟨operation, call.context, call.request, basis, e, afterDecision,
        contexts, call.startedAt, refreshedAt, w.steps, w.toScene⟩]
      steps := w.steps + 1 } := by
  obtain ⟨⟨snapshot, now, husable⟩, hpopped⟩ := consumeRequest_ok hrun
  have hmoved := moved_run (moved_consumeRequest _ _ _ _) hrun
  obtain ⟨hsub, hlive, hmade, hfresh⟩ := h.takeOut husable.trusted hpopped
  have hover : ∀ i, i ∈ w.retired ++ (w.consumed.map Consumption.operation ++ [operation]) ↔
      i ∈ operation :: w.over := by
    intro i
    simp only [Composer.over, List.mem_append, List.mem_cons, List.not_mem_nil, or_false]
    tauto
  obtain ⟨-, hknows⟩ := h.calls c call hcall
  simp only [hstage] at hknows
  obtain ⟨-, hevaluated, hallowed, ⟨hsame, i, seen, hcontext, hrepeats⟩, hdecided, hbefore⟩ := hknows
  obtain ⟨r, hr, rfl, rfl, a, ha, -, halive, hattributes⟩ := trusted_record husable.trusted
  obtain ⟨o, ho, hoperation, hsnapshot⟩ := h.known r hr
  rw [← hsnapshot] at hattributes husable
  have hmatches := husable.scope
  have hbinds := (h.bound o ho).binds
  have hidentity := hmatches.revisions.1.trans (hsame.2.2.2.2.2.2.2.2.1.symm.trans
    hevaluated.state.identityRevision.symm)
  have hscope := hmatches.revisions.2.trans (hsame.2.2.2.2.2.2.2.2.2.1.symm.trans
    hevaluated.state.scopeRevision.symm)
  have hserves : Serves o ⟨r.target, call.context, call.request, basis, e, afterDecision, contexts,
      call.startedAt, refreshedAt, w.steps, w.toScene⟩ :=
    { operation := hoperation
      request := (h.bound o ho).same_request hmatches
      decision := hbinds.decision
      context := ⟨hmatches.context.1.trans hsame.1.symm,
        hbinds.context.1.symm.trans (hmatches.context.1.trans hsame.1.symm)⟩
      authenticator := ⟨hmatches.context.2.1.trans hsame.2.1.symm,
        hmatches.context.2.2.trans hsame.2.2.1.symm⟩
      actor := ⟨hmatches.actor.1.trans hsame.2.2.2.2.1.symm, hmatches.actor.2⟩
      action := hmatches.action
      resource := hmatches.resource
      identityRevision := hidentity
      scopeRevision := hscope }
  have hclosed : w.closed = false ∨ w.closing = true := by
    cases hstate : w.closed with
    | false => exact .inl rfl
    | true =>
      rcases h.closing hstate with hclosing | hregistry
      · exact .inr hclosing
      · rw [husable.open'] at hregistry
        cases hregistry
  have hnot : r.target ∉ w.retired ∧ r.target ∉ w.consumed.map Consumption.operation := by
    simpa only [Composer.over, List.mem_append, not_or] using hfresh
  refine ⟨h.contexts, hcalls, h.sound.sublist hsub, fun r hr => h.known r (hsub.subset hr), ?_, ?_,
    h.bound, hsub.length_le.trans h.room, ?_, fun hc => (h.closing hc).imp id hmoved.closed, ?_⟩
  · intro r' hr' hmem
    refine hlive r' hr' ((hover _).mp ?_)
    simpa [Composer.over] using hmem
  · intro j hj
    refine hmade j ((hover j).mp ?_)
    simpa [Composer.over] using hj
  · show ((w.consumed ++ _).map Consumption.operation).Nodup
    rw [List.map_append]
    refine List.Nodup.append h.once (List.nodup_singleton _) ?_
    intro j hj hlast
    obtain rfl := List.mem_singleton.mp hlast
    exact hnot.2 hj
  · intro c' hc'
    rcases List.mem_append.mp hc' with hold | hlast
    · exact h.found c' hold
    · rw [List.mem_singleton.mp hlast]
      exact {
        handle := ⟨o, ho, now, hserves,
          ⟨husable.open', hclosed, hnot.1, ⟨a, ha, halive, hattributes⟩, husable.unexpired⟩⟩
        live := ⟨i, seen, hcontext, hrepeats.contextId.symm.trans hsame.1.symm⟩
        reauthorized := ⟨hevaluated.request, hallowed.outcome, hevaluated.state, hallowed.age,
          ⟨hevaluated.during, hdecided, hbefore⟩⟩ }

/-! ## Steps and runs -/

/-- What a failing call leaves was moved there. -/
theorem Failing.moved {call : Call} {issuer : Issuer} {registry : Registry}
    (h : Failing issuerPolicy policy w call issuer registry) :
    RequestContext.Moved w.contexts.issuer issuer ∧ Moved w.registry registry := by
  cases h with
  | dependency => exact ⟨.refl _, .refl _⟩
  | context reading => exact ⟨moved_prepareReauthorization _ _ _ _, .refl _⟩
  | observe reading => exact ⟨.refl _, moved_observeNow _ _⟩
  | check reading hkind hstage => exact ⟨.refl _, moved_checkRequest _ _ _ _ _⟩
  | issue hkind hrun => exact ⟨.refl _, issue_error hrun⟩
  | consume hkind hrun => exact ⟨.refl _, moved_run (moved_consumeRequest _ _ _ _) hrun⟩

/-- **What one step keeps.** -/
theorem step_inv {w' : Composer} {label : ComposerLabel} (h : ComposerInv issuerPolicy policy w)
    (hstep : ComposerStep issuerPolicy policy w label w') : ComposerInv issuerPolicy policy w' := by
  cases hstep with
  | @start c kind context request hcall hopen hfree =>
    refine h.goOn h.contexts (.refl _) (h.calls.update ?_)
    rintro call ⟨⟩
    exact ⟨Nat.lt_succ_self _, trivial⟩
  | @prepare c call reading basis issuer hcall hstage hrun hmatches =>
    refine h.goOn (h.issuer (RequestContext.moved_run (moved_prepareReauthorization _ _ _) hrun))
      (.refl _) (h.calls.update ?_)
    rintro _ ⟨⟩
    exact ⟨Nat.lt_succ_of_lt (h.calls c call hcall).1, hmatches⟩
  | @check c call operation basis reading registry hcall hkind hstage hrun =>
    obtain ⟨hstarted, hknows⟩ := h.calls c call hcall
    simp only [hstage] at hknows
    refine h.goOn h.contexts (moved_run (moved_checkRequest _ _ _ _) hrun) (h.calls.update ?_)
    rintro _ ⟨⟩
    exact ⟨Nat.lt_succ_of_lt hstarted, hknows⟩
  | @before c call basis reading beforeLoad registry hcall hstage hrun hcheck =>
    obtain ⟨hstarted, hknows⟩ := h.calls c call hcall
    refine h.goOn h.contexts (moved_run (moved_observeNow _) hrun) (h.calls.update ?_)
    rintro _ ⟨⟩
    refine ⟨Nat.lt_succ_of_lt hstarted, ?_⟩
    rcases hstage with ⟨-, hstage⟩ | hstage
    · simpa only [hstage] using hknows
    · simpa only [hstage] using hknows
  | @load c call basis beforeLoad state answer hcall hstage hcheck =>
    obtain ⟨hstarted, hknows⟩ := h.calls c call hcall
    simp only [hstage] at hknows
    refine h.goOn h.contexts (.refl _) (h.calls.update ?_)
    rintro _ ⟨⟩
    exact ⟨Nat.lt_succ_of_lt hstarted, hknows, checkState_ok hcheck⟩
  | @decide c call basis state decision hcall hstage hrequest =>
    obtain ⟨hstarted, hknows⟩ := h.calls c call hcall
    simp only [hstage] at hknows
    refine h.goOn h.contexts (.refl _) (h.calls.update ?_)
    rintro _ ⟨⟩
    exact ⟨Nat.lt_succ_of_lt hstarted, hknows.1, ⟨hknows.2, hrequest, hstarted⟩, Nat.lt_succ_self _⟩
  | @after c call basis evaluation reading afterDecision registry hcall hstage hrun hcheck =>
    obtain ⟨hstarted, hknows⟩ := h.calls c call hcall
    simp only [hstage] at hknows
    obtain ⟨houtcome, hage⟩ := checkAfter_ok hcheck
    refine h.goOn h.contexts (moved_run (moved_observeNow _) hrun) (h.calls.update ?_)
    rintro _ ⟨⟩
    exact ⟨Nat.lt_succ_of_lt hstarted, hknows.1, hknows.2.1, Nat.lt_succ_of_lt hknows.2.2,
      ⟨houtcome, hage⟩⟩
  | @issue c call basis evaluation afterDecision expiry binding reading drawn object address snapshot
      registry hcall hkind hstage hbinding hexpiry hrun hnew hfree =>
    obtain ⟨-, hknows⟩ := h.calls c call hcall
    simp only [hstage] at hknows
    exact h.issue hknows.1 hbinding hrun hnew hfree h.calls.finish
  | @refresh c call operation basis refreshed evaluation afterDecision reading issuer hcall hkind
      hstage hrun hsame =>
    obtain ⟨hstarted, hknows⟩ := h.calls c call hcall
    simp only [hstage] at hknows
    obtain ⟨hmatches, hevaluated, hdecided, hallowed⟩ := hknows
    obtain ⟨i, now, hlive, -, hrepeats⟩ := h.contexts.1.prepared hrun
    refine h.goOn (h.issuer (RequestContext.moved_run (moved_prepareReauthorization _ _ _) hrun))
      (.refl _) (h.calls.update ?_)
    rintro _ ⟨⟩
    exact ⟨Nat.lt_succ_of_lt hstarted, hmatches, hevaluated, hallowed,
      ⟨hsame, i, now, hlive, hrepeats⟩, hdecided, Nat.lt_succ_self _⟩
  | @consume c call operation basis refreshed evaluation afterDecision contexts refreshedAt reading
      registry hcall hkind hstage hrun =>
    exact h.consume hcall hstage hrun h.calls.finish
  | @fail c call issuer registry hcall hfails =>
    exact h.goOn (h.issuer hfails.moved.1) hfails.moved.2 h.calls.finish
  | @retire operation registry hrun => exact h.retire hrun
  | @unretired operation e registry hrun =>
    exact h.goOn h.contexts (moved_run (moved_retire _) hrun) h.calls.later
  | closing hfree =>
    exact ⟨h.contexts, h.calls.later, h.sound, h.known, h.live, h.made, h.bound, h.room, h.once,
      fun _ => .inl rfl, h.found⟩
  | closed hheld =>
    have hkept := h.goOn h.contexts (moved_close w.registry) h.calls.later
    exact ⟨hkept.contexts, hkept.calls, hkept.sound, hkept.known, hkept.live, hkept.made, hkept.bound,
      hkept.room, hkept.once, fun _ => .inr rfl, hkept.found⟩
  | @contexts label contexts hcontexts =>
    exact h.goOn (RequestContext.step_inv h.contexts hcontexts) (.refl _) h.calls.later
  | @foreign i address attributes hnew hfree => exact h.heap (w.heap.allocate_extends hfree hnew)
  | @touch i a attributes alive ha halive => exact h.heap (w.heap.replace_extends ha halive)

theorem start_inv (h : (composerSystem issuerPolicy policy).start w) :
    ComposerInv issuerPolicy policy w := by
  obtain ⟨hcontexts, hregistry, hclosed, -, hretired, hcalls, hissued, hconsumed⟩ := h
  have hover : w.over = [] := by simp [Composer.over, hretired, hconsumed]
  refine ⟨?_, ?_, ?_, ?_, ?_, ?_, ?_, ?_, ?_, ?_, ?_⟩
  · exact invariant_of_reachable (I := WorldInv issuerPolicy) (fun _ => RequestContext.start_inv)
      (fun _ _ _ hinv hstep => RequestContext.step_inv hinv hstep) hcontexts
  · intro c call hcall
    rw [hcalls c] at hcall
    cases hcall
  · rw [hregistry]
    exact .nil _
  · simp [hregistry]
  · simp [hregistry]
  · simp [hover]
  · simp [hissued]
  · simp [hregistry]
  · simp [hconsumed]
  · simp [hclosed]
  · simp [hconsumed]

theorem reachable_inv (hw : Reachable (composerSystem issuerPolicy policy) w) :
    ComposerInv issuerPolicy policy w :=
  invariant_of_reachable (I := ComposerInv issuerPolicy policy) (fun _ => start_inv)
    (fun _ _ _ h hstep => step_inv h hstep) hw

/-- The service's clock as two moments find it. -/
def Observes (w w' : Composer) : Prop :=
  ObservedClock.NoEarlier UtcMoment.micros w.registry.lastObservedAt w'.registry.lastObservedAt

/-- **No step takes the observed time back.** -/
theorem step_observes {w' : Composer} {label : ComposerLabel}
    (hstep : ComposerStep issuerPolicy policy w label w') : Observes w w' := by
  cases hstep with
  | check h hkind hstage hrun => exact (moved_run (moved_checkRequest _ _ _ _) hrun).observed
  | before h hstage hrun hcheck => exact (moved_run (moved_observeNow _) hrun).observed
  | after h hstage hrun hcheck => exact (moved_run (moved_observeNow _) hrun).observed
  | issue h hkind hstage hbinding hexpiry hrun hnew hfree =>
    obtain ⟨s₁, hmoved, hissued⟩ := issue_ok hrun
    have hobserved := hmoved.observed
    rw [← hissued.observed] at hobserved
    exact hobserved
  | consume h hkind hstage hrun => exact (moved_run (moved_consumeRequest _ _ _ _) hrun).observed
  | fail h hfails => exact hfails.moved.2.observed
  | retire hrun => exact (moved_run (moved_retire _) hrun).observed
  | unretired hrun => exact (moved_run (moved_retire _) hrun).observed
  | _ => exact .refl _

/-- **One-shot operations**, in every run: no handle is consumed twice; each
consumption is of a handle this composer issued for that request, in the same
context and to the same actor, which was open, unexpired, unaltered and not
retired when it was taken out, after the authorizer had allowed it anew on
current state; there are no more handles than the maximum, and the observed
time does not go back. -/
theorem consumed_once (issuerPolicy : IssuerPolicy) (policy : ComposerPolicy) (w : Composer)
    (hw : Reachable (composerSystem issuerPolicy policy) w) :
    (w.consumed.map Consumption.operation).Nodup ∧ (∀ c ∈ w.consumed, OneShot policy w.issued c) ∧
      w.registry.active.length ≤ policy.maxActiveOperations ∧
      ∀ labels w', Run (composerSystem issuerPolicy policy) w labels w' → Observes w w' := by
  have h := reachable_inv hw
  refine ⟨h.once, h.found, h.room, fun labels w' hrun => ?_⟩
  exact hrun.relates (fun _ => .refl _) (fun _ _ _ => ObservedClock.NoEarlier.trans)
    (fun _ _ _ => step_observes)

/-! ## A context retired too late -/

namespace Sample

open Tenancy.Sample RequestContext.Sample

def workspace : WorkspaceId := ⟨"w1", by decide⟩

def request : AccessRequest :=
  ⟨"r1", "bob", acme, ⟨"resource.read", .refl true⟩,
    ⟨⟨acme, some workspace, "document", "d1"⟩, .refl true, .refl true, d1_concrete⟩, .refl true, .refl true⟩

def caller : CallerRequestContext := ⟨"r1", "bob", acme, some workspace, .refl true, .refl true⟩

def authenticated : AuthenticatedRequestBinding :=
  { RequestContext.Sample.binding with workspaceId := some workspace }

def contextSnapshot : ContextSnapshot := ⟨authenticated, "ctx_0", now⟩

def issuer : Issuer := ⟨[⟨7, 0, contextSnapshot⟩], 0, false, some now⟩

def contextHeap : Heap ContextSnapshot := noObjects.allocate 0 7 contextSnapshot nobody

theorem reserve_run : reserve configuration noObjects (some now) fresh.issuer = (.ok now, issuing) := by
  rfl

theorem complete_run : completeAuthentication configuration (some authenticated) caller (some now)
    issuing = (.ok authenticated, issuing) := by
  rfl

theorem register_run : register configuration noObjects authenticated caller (some now) [some "0"] 0 7
    issuing = (.ok contextSnapshot, { issuer with pending := 1 }) := by
  rfl

/-- A context is issued for the request's workspace. -/
theorem context_run : ∃ w, Reachable (issuerSystem configuration) w ∧ w.issuer = issuer ∧
    w.heap = contextHeap := by
  refine ⟨_, ⟨fresh, List.replicate 7 (.issue 0), ⟨rfl, fun _ => rfl, rfl, rfl, rfl⟩,
    .next (S := issuerSystem configuration) (.enter (c := 0) caller rfl)
    (.next (S := issuerSystem configuration) (.reserve rfl reserve_run)
    (.next (S := issuerSystem configuration) (.view rfl)
    (.next (S := issuerSystem configuration) (.answer (some authenticated) rfl)
    (.next (S := issuerSystem configuration) (.complete rfl complete_run)
    (.next (S := issuerSystem configuration) (.register rfl register_run rfl nobody)
    (.single (S := issuerSystem configuration) (.leave rfl)))))))⟩, rfl, rfl⟩

theorem now_ends : now.micros < (moment 2000000 ends_early).micros := by decide

def basis : ReauthorizationBasis :=
  ⟨"ctx_0", "idp", "qe", "r1", "p1", "bob", acme, some workspace, "i1", "s1",
    authenticated.evidenceFingerprint, moment 0 starts_early, now, moment 2000000 ends_early, now,
    now_ends, now_ends⟩

theorem prepare_run : prepareReauthorization configuration contextHeap 0 request (some now) issuer =
    (.ok basis, issuer) := by
  rfl

def state : CurrentAuthorizationState :=
  ⟨"ctx_0", "idp", "qe", "r1", "p1", "bob", acme, workspace, "i1", "s1", now⟩

theorem minute_bounded : 1 ≤ (60000000 : Int) ∧ (60000000 : Int) ≤ 300000000 := by decide

theorem noSkew_bounded : 0 ≤ (0 : Int) ∧ (0 : Int) ≤ 300000000 := by decide

theorem one_bounded : 1 ≤ 1 ∧ 1 ≤ 1000000 := by decide

def limits : ComposerPolicy := ⟨60000000, 60000000, 0, 1, minute_bounded, minute_bounded, noSkew_bounded, one_bounded⟩

/-- What the authorizer answers each time. -/
def decision : AuthorizationDecision := Tenancy.allow request now .allowRbac (.refl true) "" [] none

def handle : OperationSnapshot where
  contextId := "ctx_0"
  authenticatorId := "idp"
  audience := "qe"
  requestId := "r1"
  principalId := "p1"
  subjectId := "bob"
  tenantId := acme
  workspaceId := workspace
  action := request.action
  resourceType := "document"
  resourceId := "d1"
  decisionId := decision.decisionId
  identityRevision := "i1"
  scopeRevision := "s1"
  operationId := "op_0"
  issuedAt := now
  expiresAt := moment 2000000 ends_early

def noHandles : Heap OperationSnapshot := ⟨fun _ => none, by simp⟩

theorem free : ∀ j b, noHandles.objects j = some b → b.alive = true → b.address ≠ 5 :=
  fun _ _ h => nomatch h

def handles : Heap OperationSnapshot := noHandles.allocate 0 5 handle free

def observed : Registry := ⟨[], false, some now⟩

def held : Registry := ⟨[⟨5, 0, handle⟩], false, some now⟩

theorem basis_matches : BasisMatchesRequest basis request :=
  ⟨by decide, rfl, rfl, rfl, rfl, rfl⟩

theorem handle_matches : SnapshotMatchesRequest handle basis request :=
  ⟨⟨rfl, rfl, rfl⟩, ⟨rfl, rfl⟩, rfl, ⟨rfl, rfl⟩, ⟨rfl, rfl⟩, rfl, ⟨rfl, rfl⟩, basis_matches⟩

theorem issue_run : issue limits noHandles handle.toOperationBinding handle.expiresAt (some now)
    [some "0"] 0 5 observed = (.ok handle, held) := by
  rfl

theorem clock_run : clockNow limits (some now) held = (.ok now, held) := by
  rfl

/-- The handle is usable; its decision's id is never looked at. -/
theorem handle_usable : Usable handles 0 basis request held handle now where
  open' := rfl
  trusted := trust_of_record (a := ⟨5, some handle, true⟩) (r := ⟨5, 0, handle⟩) rfl rfl rfl rfl rfl
  unexpired := by decide
  scope := handle_matches

theorem check_run : checkRequest limits handles 0 basis request (some now) held = (.ok (), held) := by
  rw [checkRequest_of_usable clock_run handle_usable]
  rfl

theorem consumeRequest_run :
    consumeRequest limits handles 0 basis request (some now) held = (.ok (), observed) := by
  rw [consumeRequest_of_usable clock_run handle_usable]
  rfl

theorem refreshed_same : SameContextBasis basis basis :=
  ⟨rfl, rfl, rfl, rfl, rfl, rfl, rfl, rfl, rfl, rfl, rfl, rfl, rfl, rfl⟩

theorem retire_run : RequestContext.retire contextHeap 0 issuer = (.ok (), ⟨[], 0, false, some now⟩) := by
  rfl

/-- A new composer of the issuer. -/
def opening (contexts : World) : Composer :=
  ⟨⟨contexts, ⟨[], false, none⟩, noHandles, false, false, []⟩, fun _ => none, [], [], 0⟩

theorem observe_run : observeNow limits (some now) ⟨[], false, none⟩ = (.ok now, observed) := by
  rfl

theorem observe_run' : observeNow limits (some now) observed = (.ok now, observed) := by
  rfl

theorem observe_held : observeNow limits (some now) held = (.ok now, held) := by
  rfl

/-- A call has started. -/
def begun (w : Composer) (c : Nat) (kind : Kind) : Composer :=
  { w with
    calls := Function.update w.calls c (some ⟨kind, 0, request, w.steps, .opened⟩)
    steps := w.steps + 1 }

/-- A call has its basis. -/
def readied (w : Composer) (c : Nat) (call : Call) : Composer :=
  { w with contexts := w.withIssuer issuer }.goOn c call (.prepared basis)

section
variable {w : Composer} {c : Nat} {call : Call} (h : w.calls c = some call)
  (hrequest : call.request = request)
include h hrequest

/-- The basis is prepared. -/
theorem prepare_step (hstage : call.stage = .opened) (hcontext : call.context = 0)
    (hissuer : w.contexts.issuer = issuer) (hheap : w.contexts.heap = contextHeap) :
    ComposerStep configuration limits w (.call c)
      (readied w c call) := by
  have hrun : prepareReauthorization configuration w.contexts.heap call.context call.request
      (some now) w.contexts.issuer = (.ok basis, issuer) := by
    rw [hheap, hcontext, hrequest, hissuer]
    exact prepare_run
  exact .prepare h hstage hrun (by rw [hrequest]; exact basis_matches)

/-- The basis is prepared once more. -/
theorem refresh_step {e : Evaluation} (hkind : call.kind = .consume 0)
    (hstage : call.stage = .evaluated basis e now) (hcontext : call.context = 0)
    (hissuer : w.contexts.issuer = issuer) (hheap : w.contexts.heap = contextHeap) :
    ComposerStep configuration limits w (.call c)
      ({ w with contexts := w.withIssuer issuer }.goOn c call
        (.refreshed basis e now basis w.contexts w.steps)) := by
  have hrun : prepareReauthorization configuration w.contexts.heap call.context call.request
      (some now) w.contexts.issuer = (.ok basis, issuer) := by
    rw [hheap, hcontext, hrequest, hissuer]
    exact prepare_run
  exact .refresh h hkind hstage hrun refreshed_same

/-- The state is loaded and the authorizer asked, with nobody else in between. -/
theorem evaluate_run {first registry : Registry} (hregistry : w.registry = first)
    (hstage : (call.kind = .authorize ∧ call.stage = .prepared basis) ∨ call.stage = .checked basis)
    (hfirst : observeNow limits (some now) first = (.ok now, registry))
    (hsecond : observeNow limits (some now) registry = (.ok now, registry)) :
    ∃ labels w' e, Run (composerSystem configuration limits) w labels w' ∧
      w'.toScene = { w.toScene with registry := registry } ∧
      w'.calls c = some { call with stage := .evaluated basis e now } ∧
      (∀ d, d ≠ c → w'.calls d = w.calls d) ∧ e.decision = decision ∧ e.state = state := by
  rw [← hregistry] at hfirst
  refine ⟨_, _, ⟨state, decision, w.steps + 1 + 1⟩,
    .next (S := composerSystem configuration limits) (.before h hstage hfirst rfl)
    (.next (S := composerSystem configuration limits)
      (.load (.ok state) (Function.update_self _ _ _) rfl rfl)
    (.next (S := composerSystem configuration limits)
      (.decide decision (Function.update_self _ _ _) rfl hrequest.symm)
    (.single (S := composerSystem configuration limits)
      (.after (Function.update_self _ _ _) rfl hsecond rfl)))), rfl, ?_, ?_, rfl, rfl⟩
  · exact Function.update_self _ _ _
  · intro d hd
    simp only [Composer.goOn, Function.update_of_ne hd]

end

section
variable {w : Composer} {c : Nat} {call : Call} (h : w.calls c = some call)
  (hkind : call.kind = .consume 0) (hrequest : call.request = request) (hregistry : w.registry = held)
  (hheap : w.heap = handles)
include h hkind hrequest hregistry hheap

/-- The handle is checked. -/
theorem check_step (hstage : call.stage = .prepared basis) :
    ComposerStep configuration limits w (.call c) (w.goOn c call (.checked basis)) := by
  have hrun : checkRequest limits w.heap 0 basis call.request (some now) w.registry =
      (.ok (), w.registry) := by
    rw [hrequest, hregistry, hheap]
    exact check_run
  exact .check h hkind hstage hrun

/-- The handle is taken out. -/
theorem consume_step {e : Evaluation} {contexts : World} {n : Nat}
    (hstage : call.stage = .refreshed basis e now basis contexts n) :
    ∃ w', ComposerStep configuration limits w (.call c) w' ∧
      ∃ consumption ∈ w'.consumed, consumption.context = call.context ∧
        consumption.scene = w.toScene := by
  have hrun : consumeRequest limits w.heap 0 basis call.request (some now) w.registry =
      (.ok (), observed) := by
    rw [hrequest, hregistry, hheap]
    exact consumeRequest_run
  exact ⟨_, .consume h hkind hstage hrun, _, List.mem_append_right _ (List.mem_singleton.mpr rfl), rfl,
    rfl⟩

/-- The basis is prepared again, the context is retired, and the handle is
taken out. -/
theorem late_end {e : Evaluation} (hstage : call.stage = .evaluated basis e now)
    (hcontext : call.context = 0) (hissuer : w.contexts.issuer = issuer)
    (hcontexts : w.contexts.heap = contextHeap) :
    ∃ labels w', Run (composerSystem configuration limits) w labels w' ∧
      ∃ consumption ∈ w'.consumed, consumption.context ∈ consumption.scene.contexts.retired := by
  have hrefreshed := refresh_step h hrequest hkind hstage hcontext hissuer hcontexts
  have hretired : IssuerStep configuration (w.withIssuer issuer) (.retire 0)
      { w.withIssuer issuer with
        issuer := ⟨[], 0, false, some now⟩
        retired := w.contexts.retired ++ [0] } := by
    refine .retire ?_
    rw [Composer.withIssuer, hcontexts]
    exact retire_run
  have hcall : (Function.update w.calls c (some { call with
      stage := .refreshed basis e now basis w.contexts w.steps })) c = some { call with
      stage := .refreshed basis e now basis w.contexts w.steps } := Function.update_self _ _ _
  obtain ⟨w', hconsumed, consumption, hmem, hof, hscene⟩ := @consume_step
    { ({ w with contexts := w.withIssuer issuer }.goOn c call
        (.refreshed basis e now basis w.contexts w.steps)) with
      contexts := { w.withIssuer issuer with
        issuer := ⟨[], 0, false, some now⟩
        retired := w.contexts.retired ++ [0] }
      steps := w.steps + 1 + 1 }
    c { call with stage := .refreshed basis e now basis w.contexts w.steps } hcall hkind hrequest
    hregistry hheap e w.contexts w.steps rfl
  refine ⟨_, w', .next (S := composerSystem configuration limits) hrefreshed
    (.next (S := composerSystem configuration limits) (.contexts hretired)
      (.single (S := composerSystem configuration limits) hconsumed)), consumption, hmem, ?_⟩
  rw [hof, hscene, hcontext]
  exact List.mem_append_right _ (List.mem_singleton.mpr rfl)

end

/-- The handle is issued. -/
theorem authorize_run {contexts : World} (hissuer : contexts.issuer = issuer)
    (hheap : contexts.heap = contextHeap) :
    ∃ labels w, Run (composerSystem configuration limits) (opening contexts) labels w ∧
      w.contexts.issuer = issuer ∧ w.contexts.heap = contextHeap ∧ w.registry = held ∧
      w.heap = handles ∧ w.closed = false ∧ w.closing = false ∧ w.calls 1 = none := by
  have hstarted : ComposerStep configuration limits (opening contexts) (.call 0)
      (begun (opening contexts) 0 .authorize) := .start .authorize 0 request rfl rfl rfl
  have hprepared := prepare_step (w := begun (opening contexts) 0 .authorize)
    (Function.update_self _ _ _) rfl rfl rfl hissuer hheap
  obtain ⟨labels, ⟨_, calls, issued, consumed, steps⟩, ⟨_, _, n⟩, hevaluated, rfl, hcall, hothers, rfl,
      rfl⟩ := evaluate_run (w := readied (begun (opening contexts) 0 .authorize) 0 ⟨.authorize, 0, request, 0, .opened⟩)
    (Function.update_self _ _ _) rfl rfl (.inl ⟨rfl, rfl⟩) observe_run observe_run'
  have hissued : ComposerStep configuration limits _ (.call 0) _ :=
    .issue hcall rfl rfl rfl rfl issue_run rfl free
  refine ⟨_, _, .next (S := composerSystem configuration limits) hstarted
    (.next (S := composerSystem configuration limits) hprepared
    (hevaluated.append (.single (S := composerSystem configuration limits) hissued))), rfl, hheap, rfl,
    rfl, rfl, rfl, ?_⟩
  exact hothers 1 (by decide)

/-- The context is retired between the refresh and the end. -/
theorem consume_run : ∃ w, Reachable (composerSystem configuration limits) w ∧
    ∃ c ∈ w.consumed, c.context ∈ c.scene.contexts.retired := by
  obtain ⟨contexts, hcontexts, hissuer, hheap⟩ := context_run
  obtain ⟨labels, w, hrun, hissuer, hheap, hregistry, hhandles, hclosed, hclosing, hcall⟩ :=
    authorize_run hissuer hheap
  have hstart : Reachable (composerSystem configuration limits) (opening contexts) :=
    Reachable.start ⟨hcontexts, rfl, rfl, rfl, rfl, fun _ => rfl, rfl, rfl⟩
  have hstarted : ComposerStep configuration limits w (.call 1) (begun w 1 (.consume 0)) :=
    .start (.consume 0) 0 request hcall hclosed hclosing
  have hprepared := prepare_step (w := begun w 1 (.consume 0)) (Function.update_self _ _ _) rfl rfl rfl
    hissuer hheap
  have hchecked := check_step (w := readied (begun w 1 (.consume 0)) 1
    ⟨.consume 0, 0, request, w.steps, .opened⟩) (Function.update_self _ _ _) rfl rfl hregistry hhandles
    rfl
  obtain ⟨labels', ⟨_, calls, issued, consumed, steps⟩, ⟨_, _, n⟩, hevaluated, rfl, hcall, -, rfl,
      rfl⟩ := evaluate_run (w := (readied (begun w 1 (.consume 0)) 1
        ⟨.consume 0, 0, request, w.steps, .opened⟩).goOn 1
          ⟨.consume 0, 0, request, w.steps, .prepared basis⟩ (.checked basis))
    (Function.update_self _ _ _) rfl hregistry (.inr rfl) observe_held observe_held
  obtain ⟨labels'', w', hlate, hfound⟩ := late_end (w := ⟨_, calls, issued, consumed, steps⟩) hcall rfl
    rfl rfl hhandles rfl rfl rfl hheap
  have hopened : Run (composerSystem configuration limits) w [_, _, _] _ :=
    .next (S := composerSystem configuration limits) hstarted
      (.next (S := composerSystem configuration limits) hprepared
        (.single (S := composerSystem configuration limits) hchecked))
  exact ⟨w', (((hstart.run hrun).run hopened).run hevaluated).run hlate, hfound⟩

end Sample

open Sample RequestContext.Sample in
/-- A handle is issued and consumed. -/
theorem consumed_once_run : ∃ w, Reachable (composerSystem configuration limits) w ∧
    ∃ c ∈ w.consumed, OneShot limits w.issued c := by
  obtain ⟨w, hw, c, hc, -⟩ := consume_run
  exact ⟨w, hw, c, hc, (consumed_once configuration limits w hw).2.1 c hc⟩

open Sample RequestContext.Sample in
/-- The context may be retired by the time the handle is taken out. -/
theorem late_consume : ∃ w, Reachable (composerSystem configuration limits) w ∧
    ∃ c ∈ w.consumed, c.context ∈ c.scene.contexts.retired := consume_run

end QuantumEntanglement.Operations
