import QuantumEntanglement.Operations.Records

/-
  The registry of authorized operations — its critical sections

  The registry of one composer keeps the live handles under its own lock and
  clock. As with the issuer of contexts, every critical section is a program
  over the registry's state, and what it wrote before it raised stays written.
-/

namespace QuantumEntanglement.Operations

open Tenancy RequestContext Transaction Transaction.Txn HandleRegistry

structure Registry where
  active : List (Record OperationSnapshot)
  closed : Bool
  lastObservedAt : Option UtcMoment

abbrev RegistryTxn (α : Type) := Txn Registry OperationError α

section
variable (policy : ComposerPolicy) (heap : Heap OperationSnapshot)

/-! ## What the sections share -/

def requireOpen : RegistryTxn Unit := do
  let closed ← query Registry.closed
  ensure (closed = false) ⟨"protected_operation_registry_closed"⟩

/-- `_clock_now`. -/
def clockNow (reading : Option UtcMoment) : RegistryTxn UtcMoment := fun s =>
  match ObservedClock.observe UtcMoment.micros policy.maxClockSkew s.lastObservedAt reading with
  | (.ok now, last) => (.ok now, { s with lastObservedAt := last })
  | (.error .unavailable, last) =>
    (.error ⟨"protected_operation_clock_unavailable"⟩, { s with lastObservedAt := last })
  | (.error .regressed, last) =>
    (.error ⟨"protected_operation_time_regressed"⟩, { s with lastObservedAt := last })

/-- The handle has run out. -/
def expired (now : UtcMoment) (o : OperationSnapshot) : Bool := o.expiresAt.micros ≤ now.micros

/-- `_prune`. -/
def prune (now : UtcMoment) : RegistryTxn Unit :=
  update (fun s => { s with active := HandleRegistry.prune heap (expired now) s.active })

/-- `self.__active.pop(id(operation), None)`. -/
def popOperation (operation : Nat) : RegistryTxn Unit :=
  update (fun s => { s with active := popObject heap operation s.active })

/-- What becomes of a handle by what the registry says of it. -/
def requireTrusted (operation : Nat) : Trust OperationSnapshot → RegistryTxn OperationSnapshot
  | .untrusted => raise ⟨"protected_operation_untrusted"⟩
  | .tampered => do
    popOperation heap operation
    raise ⟨"protected_operation_tampered"⟩
  | .trusted snapshot => pure snapshot

/-- `_trusted_snapshot`. -/
def trustedSnapshot (operation : Nat) : RegistryTxn OperationSnapshot := do
  let said ← query (fun s => trust heap s.active operation)
  requireTrusted heap operation said

/-- A handle that has run out is taken out. -/
def requireUnexpired (operation : Nat) (snapshot : OperationSnapshot) (now : UtcMoment) :
    RegistryTxn Unit :=
  if expired now snapshot then do
    popOperation heap operation
    raise ⟨"protected_operation_expired"⟩
  else pure ()

/-! ## The sections -/

/-- `_observe_now`. -/
def observeNow (reading : Option UtcMoment) : RegistryTxn UtcMoment := do
  requireOpen
  clockNow policy reading

/-- `_new_operation_id`: the first of some drawn ids that no handle has. -/
def newOperationId (existing : List String) :
    Nat → List (Option String) → Except OperationError String
  | 0, _ => failed "protected_operation_id_unavailable"
  | _ + 1, [] => failed "protected_operation_id_unavailable"
  | _ + 1, none :: _ => failed "protected_operation_id_unavailable"
  | n + 1, some token :: rest =>
    if "op_" ++ token ∉ existing then .ok ("op_" ++ token) else newOperationId existing n rest

/-- `_issue`, which makes the handle `object` at `address`. -/
def issue (binding : OperationBinding) (expiry : UtcMoment) (reading : Option UtcMoment)
    (drawn : List (Option String)) (object address : Nat) : RegistryTxn OperationSnapshot := do
  requireOpen
  let now ← clockNow policy reading
  prune heap now
  ensure (now.micros < expiry.micros ∧ expiry.micros - now.micros ≤ policy.operationTtl)
    ⟨"protected_operation_expiry_invalid"⟩
  let s ← query (fun s => s)
  ensure (s.active.length < policy.maxActiveOperations) ⟨"protected_operation_capacity_exceeded"⟩
  let operationId ← lift (newOperationId (s.active.map (fun r => r.snapshot.operationId)) 4 drawn)
  update (fun s => { s with
    active := assign s.active ⟨address, object, ⟨binding, operationId, now, expiry⟩⟩ })
  pure ⟨binding, operationId, now, expiry⟩

/-- What `_check_request` and `_consume_request` ask of a handle. -/
def requireScope (operation : Nat) (basis : ReauthorizationBasis) (request : AccessRequest)
    (reading : Option UtcMoment) : RegistryTxn UtcMoment := do
  ensure (request.resource.workspaceId ≠ none) ⟨"protected_operation_workspace_required"⟩
  requireOpen
  let now ← clockNow policy reading
  let snapshot ← trustedSnapshot heap operation
  requireUnexpired heap operation snapshot now
  ensure (SnapshotMatchesRequest snapshot basis request) ⟨"protected_operation_scope_mismatch"⟩
  pure now

/-- `_check_request`. -/
def checkRequest (operation : Nat) (basis : ReauthorizationBasis) (request : AccessRequest)
    (reading : Option UtcMoment) : RegistryTxn Unit := do
  let now ← requireScope policy heap operation basis request reading
  prune heap now

/-- `_consume_request`. -/
def consumeRequest (operation : Nat) (basis : ReauthorizationBasis) (request : AccessRequest)
    (reading : Option UtcMoment) : RegistryTxn Unit := do
  let now ← requireScope policy heap operation basis request reading
  popOperation heap operation
  prune heap now

/-- `_retire`. -/
def retire (operation : Nat) : RegistryTxn Unit := do
  requireOpen
  let _ ← trustedSnapshot heap operation
  popOperation heap operation

/-- `_close`. -/
def close : RegistryTxn Unit := update (fun s => { s with closed := true, active := [] })

end

/-! ## What every section keeps -/

/-- No handle was added, nothing reopened, and the clock did not go back. -/
structure Moved (s s' : Registry) : Prop where
  active : s'.active.Sublist s.active
  closed : s.closed = true → s'.closed = true
  observed : ObservedClock.NoEarlier UtcMoment.micros s.lastObservedAt s'.lastObservedAt

theorem Moved.refl (s : Registry) : Moved s s := ⟨.refl _, id, .refl _⟩

theorem Moved.trans {a b c : Registry} (h : Moved a b) (h' : Moved b c) : Moved a c :=
  ⟨h'.active.trans h.active, fun hc => h'.closed (h.closed hc), h.observed.trans h'.observed⟩

variable {policy : ComposerPolicy} {heap : Heap OperationSnapshot} {s s' : Registry}

theorem moved_bind {α β : Type} {m : RegistryTxn α} {f : α → RegistryTxn β} (hm : Always Moved m)
    (hf : ∀ a, Always Moved (f a)) : Always Moved (m >>= f) :=
  Always.bind (fun _ _ _ => Moved.trans) hm hf

theorem moved_reads {α : Type} {m : RegistryTxn α} (h : Reads m) : Always Moved m :=
  Always.of_reads Moved.refl h

theorem moved_requireOpen : Always Moved requireOpen :=
  moved_bind (moved_reads (reads_query _)) (fun _ => moved_reads (reads_ensure _ _))

theorem moved_clockNow (reading : Option UtcMoment) : Always Moved (clockNow policy reading) := by
  intro s
  have hmono := @ObservedClock.observe_mono _ UtcMoment.micros policy.maxClockSkew
    s.lastObservedAt reading
  unfold clockNow
  split <;> (next h => rw [h] at hmono; exact ⟨.refl _, id, hmono⟩)

theorem moved_prune (now : UtcMoment) : Always Moved (prune heap now) :=
  fun _ => ⟨prune_sublist _ _ _, id, .refl _⟩

theorem moved_popOperation (operation : Nat) : Always Moved (popOperation heap operation) :=
  fun _ => ⟨popObject_sublist _ _ _, id, .refl _⟩

theorem moved_trustedSnapshot (operation : Nat) : Always Moved (trustedSnapshot heap operation) := by
  refine moved_bind (moved_reads (reads_query _)) (fun said => ?_)
  cases said with
  | untrusted => exact moved_reads (reads_raise _)
  | tampered => exact moved_bind (moved_popOperation _) (fun _ => moved_reads (reads_raise _))
  | trusted snapshot => exact moved_reads (reads_pure _)

theorem moved_requireUnexpired (operation : Nat) (snapshot : OperationSnapshot) (now : UtcMoment) :
    Always Moved (requireUnexpired heap operation snapshot now) := by
  unfold requireUnexpired
  split
  · exact moved_bind (moved_popOperation _) (fun _ => moved_reads (reads_raise _))
  · exact moved_reads (reads_pure _)

theorem moved_observeNow (reading : Option UtcMoment) : Always Moved (observeNow policy reading) :=
  moved_bind moved_requireOpen (fun _ => moved_clockNow _)

theorem moved_requireScope (operation : Nat) (basis : ReauthorizationBasis) (request : AccessRequest)
    (reading : Option UtcMoment) :
    Always Moved (requireScope policy heap operation basis request reading) :=
  moved_bind (moved_reads (reads_ensure _ _)) (fun _ => moved_bind moved_requireOpen
    (fun _ => moved_bind (moved_clockNow _) (fun _ => moved_bind (moved_trustedSnapshot _)
      (fun _ => moved_bind (moved_requireUnexpired _ _ _)
        (fun _ => moved_bind (moved_reads (reads_ensure _ _)) (fun _ => moved_reads (reads_pure _)))))))

theorem moved_checkRequest (operation : Nat) (basis : ReauthorizationBasis) (request : AccessRequest)
    (reading : Option UtcMoment) :
    Always Moved (checkRequest policy heap operation basis request reading) :=
  moved_bind (moved_requireScope _ _ _ _) (fun _ => moved_prune _)

theorem moved_consumeRequest (operation : Nat) (basis : ReauthorizationBasis)
    (request : AccessRequest) (reading : Option UtcMoment) :
    Always Moved (consumeRequest policy heap operation basis request reading) :=
  moved_bind (moved_requireScope _ _ _ _)
    (fun _ => moved_bind (moved_popOperation _) (fun _ => moved_prune _))

theorem moved_retire (operation : Nat) : Always Moved (retire heap operation) :=
  moved_bind moved_requireOpen (fun _ => moved_bind (moved_trustedSnapshot _)
    (fun _ => moved_popOperation _))

theorem moved_close : Always Moved close := fun _ => ⟨List.nil_sublist _, fun _ => rfl, .refl _⟩

/-- A section run to either end moved the registry. -/
theorem moved_run {α : Type} {m : RegistryTxn α} (hm : Always Moved m) {r : Except OperationError α}
    (h : m s = (r, s')) : Moved s s' := by
  have hmoved := hm s
  rw [h] at hmoved
  exact hmoved

/-! ## What each section does -/

theorem requireOpen_ok {u : Unit} : requireOpen s = (.ok u, s') ↔ s.closed = false ∧ s = s' := by
  simp only [requireOpen, bind_ok, query_ok, ensure_ok]
  constructor
  · rintro ⟨closed, _, ⟨rfl, rfl⟩, hopen, rfl⟩
    exact ⟨hopen, rfl⟩
  · rintro ⟨hopen, rfl⟩
    exact ⟨_, _, ⟨rfl, rfl⟩, hopen, rfl⟩

theorem clockNow_ok {reading : Option UtcMoment} {now : UtcMoment}
    (h : clockNow policy reading s = (.ok now, s')) :
    s' = { s with lastObservedAt := some now } := by
  unfold clockNow at h
  split at h
  next now' last hobserve =>
    obtain ⟨hok, rfl⟩ := Prod.mk.inj h
    obtain rfl := Except.ok.inj hok
    rw [(ObservedClock.observe_ok hobserve).1]
  · simp at h
  · simp at h

/-- What a trusted handle is. -/
theorem trustedSnapshot_ok {operation : Nat} {snapshot : OperationSnapshot}
    (h : trustedSnapshot heap operation s = (.ok snapshot, s')) :
    trust heap s.active operation = .trusted snapshot ∧ s' = s := by
  simp only [trustedSnapshot, bind_ok, query_ok] at h
  obtain ⟨said, _, ⟨rfl, rfl⟩, h⟩ := h
  cases hsaid : trust heap s.active operation with
  | untrusted => simp [hsaid, requireTrusted] at h
  | tampered => simp [hsaid, requireTrusted] at h
  | trusted snapshot' =>
    rw [hsaid, requireTrusted] at h
    obtain ⟨rfl, rfl⟩ := pure_ok.mp h
    exact ⟨rfl, rfl⟩

/-- A handle that may be used: at an open registry, trusted, unexpired, and for
this very request on this basis. -/
structure Usable (heap : Heap OperationSnapshot) (operation : Nat) (basis : ReauthorizationBasis)
    (request : AccessRequest) (s : Registry) (snapshot : OperationSnapshot) (now : UtcMoment) :
    Prop where
  open' : s.closed = false
  trusted : trust heap s.active operation = .trusted snapshot
  unexpired : now.micros < snapshot.expiresAt.micros
  scope : SnapshotMatchesRequest snapshot basis request

theorem requireScope_ok {operation : Nat} {basis : ReauthorizationBasis} {request : AccessRequest}
    {reading : Option UtcMoment} {now : UtcMoment}
    (h : requireScope policy heap operation basis request reading s = (.ok now, s')) :
    s' = { s with lastObservedAt := some now } ∧
      ∃ snapshot, Usable heap operation basis request s snapshot now := by
  simp only [requireScope, bind_ok, ensure_ok, pure_ok] at h
  obtain ⟨_, _, ⟨-, rfl⟩, _, _, hopen, now', s₁, hclock, snapshot, s₂, htrusted, _, s₃, hunexpired,
    _, _, ⟨hscope, rfl⟩, rfl, rfl⟩ := h
  obtain ⟨hclosed, rfl⟩ := requireOpen_ok.mp hopen
  obtain ⟨htrust, rfl⟩ := trustedSnapshot_ok htrusted
  rw [clockNow_ok hclock] at htrust hunexpired
  unfold requireUnexpired at hunexpired
  split at hunexpired
  · simp at hunexpired
  next hlive =>
    obtain ⟨-, rfl⟩ := pure_ok.mp hunexpired
    exact ⟨rfl, snapshot, hclosed, htrust, by simpa [expired] using hlive, hscope⟩

/-- A usable handle passes. -/
theorem requireScope_of_usable {operation : Nat} {basis : ReauthorizationBasis}
    {request : AccessRequest} {reading : Option UtcMoment} {now : UtcMoment}
    {snapshot : OperationSnapshot} (hclock : clockNow policy reading s = (.ok now, s'))
    (h : Usable heap operation basis request s snapshot now) :
    requireScope policy heap operation basis request reading s = (.ok now, s') := by
  have htrusted : trustedSnapshot heap operation s' = (.ok snapshot, s') := by
    simp only [trustedSnapshot, bind_ok, query_ok]
    refine ⟨_, s', ⟨rfl, rfl⟩, ?_⟩
    rw [clockNow_ok hclock, h.trusted]
    exact pure_ok.mpr ⟨rfl, rfl⟩
  have hunexpired : requireUnexpired heap operation snapshot now s' = (.ok (), s') := by
    have hnot : ¬expired now snapshot = true := by simpa [expired] using h.unexpired
    rw [requireUnexpired, if_neg hnot]
    exact pure_ok.mpr ⟨rfl, rfl⟩
  simp only [requireScope, bind_ok, ensure_ok, pure_ok]
  exact ⟨(), s, ⟨h.scope.basis.workspace, rfl⟩, (), s, requireOpen_ok.mpr ⟨h.open', rfl⟩, now, s',
    hclock, snapshot, s', htrusted, (), s', hunexpired, (), s', ⟨h.scope, rfl⟩, rfl, rfl⟩

theorem checkRequest_of_usable {operation : Nat} {basis : ReauthorizationBasis}
    {request : AccessRequest} {reading : Option UtcMoment} {now : UtcMoment}
    {snapshot : OperationSnapshot} (hclock : clockNow policy reading s = (.ok now, s'))
    (h : Usable heap operation basis request s snapshot now) :
    checkRequest policy heap operation basis request reading s = prune heap now s' := by
  simp only [checkRequest, bind]
  rw [requireScope_of_usable hclock h]

theorem consumeRequest_of_usable {operation : Nat} {basis : ReauthorizationBasis}
    {request : AccessRequest} {reading : Option UtcMoment} {now : UtcMoment}
    {snapshot : OperationSnapshot} (hclock : clockNow policy reading s = (.ok now, s'))
    (h : Usable heap operation basis request s snapshot now) :
    consumeRequest policy heap operation basis request reading s =
      prune heap now { s' with active := popObject heap operation s'.active } := by
  simp only [consumeRequest, bind]
  rw [requireScope_of_usable hclock h]
  rfl

/-- **A consumed handle** was usable, and is taken out. -/
theorem consumeRequest_ok {operation : Nat} {basis : ReauthorizationBasis} {request : AccessRequest}
    {reading : Option UtcMoment} {u : Unit}
    (h : consumeRequest policy heap operation basis request reading s = (.ok u, s')) :
    (∃ snapshot now, Usable heap operation basis request s snapshot now) ∧
      s'.active.Sublist (popObject heap operation s.active) := by
  simp only [consumeRequest, bind_ok, popOperation, update_ok, prune] at h
  obtain ⟨now, s₁, hscope, _, _, rfl, rfl⟩ := h
  obtain ⟨rfl, snapshot, husable⟩ := requireScope_ok hscope
  exact ⟨⟨snapshot, now, husable⟩, prune_sublist _ _ _⟩

/-- **A retired handle** was trusted, and is taken out. -/
theorem retire_ok {operation : Nat} {u : Unit} (h : retire heap operation s = (.ok u, s')) :
    (∃ snapshot, trust heap s.active operation = .trusted snapshot) ∧
      s'.active = popObject heap operation s.active := by
  simp only [retire, bind_ok, popOperation, update_ok] at h
  obtain ⟨_, _, hopen, snapshot, s₁, htrusted, rfl⟩ := h
  obtain ⟨-, rfl⟩ := requireOpen_ok.mp hopen
  obtain ⟨htrust, rfl⟩ := trustedSnapshot_ok htrusted
  exact ⟨⟨snapshot, htrust⟩, rfl⟩

/-- What an issue made of a binding. -/
structure Issued (policy : ComposerPolicy) (binding : OperationBinding) (expiry : UtcMoment)
    (object address : Nat) (snapshot : OperationSnapshot) (s s' : Registry) : Prop where
  binding : snapshot.toOperationBinding = binding
  expires : snapshot.expiresAt = expiry
  lasts : snapshot.issuedAt.micros < expiry.micros
  fits : s.active.length < policy.maxActiveOperations
  active : s'.active = assign s.active ⟨address, object, snapshot⟩
  closed : s'.closed = s.closed
  observed : s'.lastObservedAt = s.lastObservedAt

theorem issue_ok {binding : OperationBinding} {expiry : UtcMoment} {reading : Option UtcMoment}
    {drawn : List (Option String)} {object address : Nat} {snapshot : OperationSnapshot}
    (h : issue policy heap binding expiry reading drawn object address s = (.ok snapshot, s')) :
    ∃ s₁, Moved s s₁ ∧ Issued policy binding expiry object address snapshot s₁ s' := by
  simp only [issue, bind_ok, query_ok, ensure_ok, lift_ok, update_ok, pure_ok] at h
  obtain ⟨_, _, hopen, now, s₁, hclock, _, s₂, hprune, _, _, ⟨hexpiry, rfl⟩, _, _, ⟨rfl, rfl⟩,
    _, _, ⟨hfits, rfl⟩, operationId, _, ⟨-, rfl⟩, _, _, rfl, rfl, rfl⟩ := h
  have hmoved := ((moved_run moved_requireOpen hopen).trans (moved_run (moved_clockNow _) hclock)).trans
    (moved_run (moved_prune _) hprune)
  exact ⟨s₂, hmoved, rfl, rfl, hexpiry.1, hfits, rfl, rfl, rfl⟩

/-- An issue that fails adds nothing. -/
theorem issue_error {binding : OperationBinding} {expiry : UtcMoment} {reading : Option UtcMoment}
    {drawn : List (Option String)} {object address : Nat} {e : OperationError}
    (h : issue policy heap binding expiry reading drawn object address s = (.error e, s')) :
    Moved s s' := by
  simp only [issue, bind_error, query_ok, query_error, ensure_ok, ensure_error, lift_ok, lift_error,
    update_error, pure_error, false_or, or_false, and_false, exists_false] at h
  rcases h with hopen | ⟨_, s₁, hopen, hclock | ⟨now, s₂, hclock, hprune | ⟨_, s₃, hprune, h⟩⟩⟩
  · exact moved_run moved_requireOpen hopen
  · exact (moved_run moved_requireOpen hopen).trans (moved_run (moved_clockNow _) hclock)
  · exact ((moved_run moved_requireOpen hopen).trans (moved_run (moved_clockNow _) hclock)).trans
      (moved_run (moved_prune _) hprune)
  · have hmoved := ((moved_run moved_requireOpen hopen).trans
      (moved_run (moved_clockNow _) hclock)).trans (moved_run (moved_prune _) hprune)
    have hsame : s' = s₃ := by
      rcases h with ⟨-, -, rfl⟩ | ⟨_, _, ⟨-, rfl⟩, h⟩
      · rfl
      · rcases h with ⟨_, _, ⟨-, rfl⟩, h⟩
        rcases h with ⟨-, -, rfl⟩ | ⟨_, _, ⟨-, rfl⟩, -, rfl⟩
        · rfl
        · rfl
    rw [hsame]
    exact hmoved

end QuantumEntanglement.Operations
