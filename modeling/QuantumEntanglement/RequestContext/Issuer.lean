import QuantumEntanglement.Lib.HandleRegistry
import QuantumEntanglement.Lib.ObservedClock
import QuantumEntanglement.RequestContext.Records

/-
  The issuer of request contexts — its critical sections

  Everything the issuer keeps is changed under its lock, one critical section
  at a time. Each of them is a program over the issuer's state here: what it
  wrote before it raised stays written. The clock is read inside a section;
  a reading is a moment, or none where the clock failed.

  `drawn` are the tokens `secrets.token_hex` gives, none where it raises, and
  a context made in a section is the object it is told.
-/

namespace QuantumEntanglement.RequestContext

open Tenancy Transaction Transaction.Txn HandleRegistry

structure Issuer where
  active : List (Record ContextSnapshot)
  pending : Int
  closed : Bool
  lastObservedAt : Option UtcMoment

abbrev IssuerTxn (α : Type) := Txn Issuer IssuerError α

section
variable (policy : IssuerPolicy) (heap : Heap ContextSnapshot)

/-! ## What the sections share -/

def requireOpen : IssuerTxn Unit := do
  let closed ← query Issuer.closed
  ensure (closed = false) (.context "request_context_issuer_closed")

/-- `_clock_now`. -/
def clockNow (reading : Option UtcMoment) : IssuerTxn UtcMoment := fun s =>
  match ObservedClock.observe UtcMoment.micros policy.maxClockSkew s.lastObservedAt reading with
  | (.ok now, last) => (.ok now, { s with lastObservedAt := last })
  | (.error .unavailable, last) =>
    (.error (.context "request_context_clock_unavailable"), { s with lastObservedAt := last })
  | (.error .regressed, last) =>
    (.error (.context "request_context_time_regressed"), { s with lastObservedAt := last })

/-- The context has run out. -/
def expired (now : UtcMoment) (c : ContextSnapshot) : Bool := c.expiresAt.micros ≤ now.micros

/-- `_prune`. -/
def prune (now : UtcMoment) : IssuerTxn Unit :=
  update (fun s => { s with active := HandleRegistry.prune heap (expired now) s.active })

/-- `self.__active.pop(id(context), None)`. -/
def popContext (context : Nat) : IssuerTxn Unit :=
  update (fun s => { s with active := popObject heap context s.active })

/-- What becomes of a context by what the registry says of it. -/
def requireTrusted (context : Nat) : Trust ContextSnapshot → IssuerTxn ContextSnapshot
  | .untrusted => raise (.context "request_context_untrusted")
  | .tampered => do
    popContext heap context
    raise (.context "request_context_tampered")
  | .trusted snapshot => pure snapshot

/-- `_trusted_snapshot`. -/
def trustedSnapshot (context : Nat) : IssuerTxn ContextSnapshot := do
  let said ← query (fun s => trust heap s.active context)
  requireTrusted heap context said

/-! ## Issuing -/

/-- There is room for one more, beside those that have reserved theirs. -/
def HasRoom (s : Issuer) : Prop := (s.active.length : Int) + s.pending < policy.maxActiveContexts

instance (s : Issuer) : Decidable (HasRoom policy s) := inferInstanceAs (Decidable (_ < _))

/-- How both sections of an issue start. -/
def enterSection (reading : Option UtcMoment) : IssuerTxn UtcMoment := do
  requireOpen
  let now ← clockNow policy reading
  prune heap now
  pure now

/-- The first critical section of `_issue`. -/
def reserve (reading : Option UtcMoment) : IssuerTxn UtcMoment := do
  let now ← enterSection policy heap reading
  let s ← query (fun s => s)
  ensure (HasRoom policy s) (.context "request_context_capacity_exceeded")
  update (fun s => { s with pending := s.pending + 1 })
  pure now

/-- The `finally` of `_issue`, where the call has reserved. -/
def release : IssuerTxn Unit := update (fun s => { s with pending := s.pending - 1 })

/-- What `_issue` does with the authenticator's answer. -/
def completeAuthentication (binding : Option AuthenticatedRequestBinding)
    (expected : CallerRequestContext) (reading : Option UtcMoment) :
    IssuerTxn AuthenticatedRequestBinding := do
  let completedAt ← clockNow policy reading
  lift (validateBinding policy binding expected completedAt)

/-- `_new_context_id`: the first of some drawn ids that no context has. -/
def newContextId (existing : List String) : Nat → List (Option String) → Except IssuerError String
  | 0, _ => refused "request_context_id_unavailable"
  | _ + 1, [] => refused "request_context_id_unavailable"
  | _ + 1, none :: _ => refused "request_context_id_unavailable"
  | n + 1, some token :: rest =>
    if "ctx_" ++ token ∉ existing then .ok ("ctx_" ++ token) else newContextId existing n rest

/-- `_register`, which makes the context `object` at `address`. -/
def register (binding : AuthenticatedRequestBinding) (expected : CallerRequestContext)
    (reading : Option UtcMoment) (drawn : List (Option String)) (object address : Nat) :
    IssuerTxn ContextSnapshot := do
  let now ← enterSection policy heap reading
  let s ← query (fun s => s)
  ensure (s.active.length < policy.maxActiveContexts) (.context "request_context_capacity_exceeded")
  let trusted ← lift (validateBinding policy (some binding) expected now)
  let contextId ← lift (newContextId (s.active.map (fun r => r.snapshot.contextId)) 4 drawn)
  update (fun s => { s with active := assign s.active ⟨address, object, ⟨trusted, contextId, now⟩⟩ })
  pure ⟨trusted, contextId, now⟩

/-! ## Using and ending a context -/

/-- The request is for the context's own scope. -/
def InScope (snapshot : ContextSnapshot) (request : AccessRequest) : Prop :=
  request.resource.tenantId = request.tenantId ∧ request.requestId = snapshot.requestId ∧
    request.subjectId = snapshot.subjectId ∧ request.tenantId = snapshot.tenantId ∧
    request.resource.workspaceId = snapshot.workspaceId

instance (snapshot : ContextSnapshot) (request : AccessRequest) : Decidable (InScope snapshot request) :=
  inferInstanceAs (Decidable (_ ∧ _))

/-- A context that has run out is taken out. -/
def requireUnexpired (context : Nat) (snapshot : ContextSnapshot) (now : UtcMoment) :
    IssuerTxn Unit :=
  if expired now snapshot then do
    popContext heap context
    raise (.context "request_context_expired")
  else pure ()

/-- `_prepare_reauthorization`. -/
def prepareReauthorization (context : Nat) (request : AccessRequest) (reading : Option UtcMoment) :
    IssuerTxn ReauthorizationBasis := do
  requireOpen
  let now ← clockNow policy reading
  let snapshot ← trustedSnapshot heap context
  requireUnexpired heap context snapshot now
  ensure (InScope snapshot request) (.context "request_context_scope_mismatch")
  lift (makeBasis snapshot now)

/-- `_retire`. -/
def retire (context : Nat) : IssuerTxn Unit := do
  requireOpen
  let _ ← trustedSnapshot heap context
  popContext heap context

/-- `_close`. -/
def close : IssuerTxn Unit := update (fun s => { s with closed := true, active := [] })

end

/-! ## What every section keeps -/

/-- Nothing was added, no reservation moved, nothing reopened, and the clock
did not go back. -/
structure Moved (s s' : Issuer) : Prop where
  active : s'.active.Sublist s.active
  pending : s'.pending = s.pending
  closed : s.closed = true → s'.closed = true
  observed : ObservedClock.NoEarlier UtcMoment.micros s.lastObservedAt s'.lastObservedAt

theorem Moved.refl (s : Issuer) : Moved s s := ⟨.refl _, rfl, id, .refl _⟩

theorem Moved.trans {a b c : Issuer} (h : Moved a b) (h' : Moved b c) : Moved a c :=
  ⟨h'.active.trans h.active, h'.pending.trans h.pending, fun hc => h'.closed (h.closed hc),
    h.observed.trans h'.observed⟩

variable {policy : IssuerPolicy} {heap : Heap ContextSnapshot} {s s' : Issuer}

theorem moved_bind {α β : Type} {m : IssuerTxn α} {f : α → IssuerTxn β} (hm : Always Moved m)
    (hf : ∀ a, Always Moved (f a)) : Always Moved (m >>= f) :=
  Always.bind (fun _ _ _ => Moved.trans) hm hf

theorem moved_reads {α : Type} {m : IssuerTxn α} (h : Reads m) : Always Moved m :=
  Always.of_reads Moved.refl h

theorem moved_requireOpen : Always Moved requireOpen :=
  moved_bind (moved_reads (reads_query _)) (fun _ => moved_reads (reads_ensure _ _))

theorem moved_clockNow (reading : Option UtcMoment) : Always Moved (clockNow policy reading) := by
  intro s
  have hmono := @ObservedClock.observe_mono _ UtcMoment.micros policy.maxClockSkew
    s.lastObservedAt reading
  unfold clockNow
  split <;> (next h => rw [h] at hmono; exact ⟨.refl _, rfl, id, hmono⟩)

theorem moved_prune (now : UtcMoment) : Always Moved (prune heap now) :=
  fun _ => ⟨prune_sublist _ _ _, rfl, id, .refl _⟩

theorem moved_popContext (context : Nat) : Always Moved (popContext heap context) :=
  fun _ => ⟨popObject_sublist _ _ _, rfl, id, .refl _⟩

theorem moved_enterSection (reading : Option UtcMoment) :
    Always Moved (enterSection policy heap reading) :=
  moved_bind moved_requireOpen (fun _ => moved_bind (moved_clockNow _)
    (fun _ => moved_bind (moved_prune _) (fun _ => moved_reads (reads_pure _))))

theorem moved_completeAuthentication (binding : Option AuthenticatedRequestBinding)
    (expected : CallerRequestContext) (reading : Option UtcMoment) :
    Always Moved (completeAuthentication policy binding expected reading) :=
  moved_bind (moved_clockNow _) (fun _ => moved_reads (reads_lift _))

theorem moved_trustedSnapshot (context : Nat) : Always Moved (trustedSnapshot heap context) := by
  refine moved_bind (moved_reads (reads_query _)) (fun said => ?_)
  cases said with
  | untrusted => exact moved_reads (reads_raise _)
  | tampered => exact moved_bind (moved_popContext _) (fun _ => moved_reads (reads_raise _))
  | trusted snapshot => exact moved_reads (reads_pure _)

theorem moved_requireUnexpired (context : Nat) (snapshot : ContextSnapshot) (now : UtcMoment) :
    Always Moved (requireUnexpired heap context snapshot now) := by
  unfold requireUnexpired
  split
  · exact moved_bind (moved_popContext _) (fun _ => moved_reads (reads_raise _))
  · exact moved_reads (reads_pure _)

theorem moved_prepareReauthorization (context : Nat) (request : AccessRequest)
    (reading : Option UtcMoment) :
    Always Moved (prepareReauthorization policy heap context request reading) :=
  moved_bind moved_requireOpen (fun _ => moved_bind (moved_clockNow _)
    (fun _ => moved_bind (moved_trustedSnapshot _) (fun _ => moved_bind (moved_requireUnexpired _ _ _)
      (fun _ => moved_bind (moved_reads (reads_ensure _ _)) (fun _ => moved_reads (reads_lift _))))))

theorem moved_retire (context : Nat) : Always Moved (retire heap context) :=
  moved_bind moved_requireOpen (fun _ => moved_bind (moved_trustedSnapshot _)
    (fun _ => moved_popContext _))

theorem moved_close : Always Moved close :=
  fun s => ⟨List.nil_sublist _, rfl, fun _ => rfl, .refl _⟩

/-! ## What each section does -/

theorem requireOpen_ok {u : Unit} : requireOpen s = (.ok u, s') ↔ s.closed = false ∧ s = s' := by
  simp only [requireOpen, bind_ok, query_ok, ensure_ok]
  constructor
  · rintro ⟨closed, _, ⟨rfl, rfl⟩, hopen, rfl⟩
    exact ⟨hopen, rfl⟩
  · rintro ⟨hopen, rfl⟩
    exact ⟨_, _, ⟨rfl, rfl⟩, hopen, rfl⟩

theorem clockNow_ok {reading : Option UtcMoment} {now : UtcMoment}
    (h : clockNow policy reading s = (.ok now, s')) :
    s' = { s with lastObservedAt := some now } := by
  unfold clockNow at h
  split at h
  next now' last hobserve =>
    obtain ⟨hok, rfl⟩ := Prod.mk.inj h
    obtain rfl := Except.ok.inj hok
    rw [(ObservedClock.observe_ok hobserve).1]
  · simp at h
  · simp at h

/-- A section that was entered is of an open issuer, and pruned. -/
theorem enterSection_ok {reading : Option UtcMoment} {now : UtcMoment}
    (h : enterSection policy heap reading s = (.ok now, s')) :
    s'.closed = false ∧ s'.lastObservedAt = some now := by
  simp only [enterSection, bind_ok, pure_ok, prune, update_ok] at h
  obtain ⟨_, _, hopen, now', s₁, hclock, _, _, rfl, rfl, rfl⟩ := h
  obtain ⟨hclosed, rfl⟩ := requireOpen_ok.mp hopen
  rw [clockNow_ok hclock]
  exact ⟨hclosed, rfl⟩

/-- **A reservation** was made where there was room for it. -/
theorem reserve_ok {reading : Option UtcMoment} {now : UtcMoment}
    (h : reserve policy heap reading s = (.ok now, s')) :
    ∃ s₁, Moved s s₁ ∧ s₁.closed = false ∧ HasRoom policy s₁ ∧
      s' = { s₁ with pending := s₁.pending + 1 } := by
  simp only [reserve, bind_ok, query_ok, ensure_ok, update_ok, pure_ok] at h
  obtain ⟨now', s₁, henter, _, _, ⟨rfl, rfl⟩, _, _, ⟨hroom, rfl⟩, _, _, rfl, rfl, rfl⟩ := h
  have hmoved := @moved_enterSection policy heap reading s
  rw [henter] at hmoved
  exact ⟨s₁, hmoved, (enterSection_ok henter).1, hroom, rfl⟩

theorem reserve_error {reading : Option UtcMoment} {e : IssuerError}
    (h : reserve policy heap reading s = (.error e, s')) : Moved s s' := by
  have hmoved := @moved_enterSection policy heap reading s
  simp only [reserve, bind_error, bind_ok, query_ok, query_error, ensure_ok, ensure_error, update_ok,
    update_error, pure_error] at h
  rcases h with henter | ⟨now, s₁, henter, h⟩
  · rw [henter] at hmoved
    exact hmoved
  · rw [henter] at hmoved
    simp only [false_or, or_false, exists_false, and_false] at h
    obtain ⟨_, _, ⟨rfl, rfl⟩, hroom, rfl, rfl⟩ := h
    exact hmoved

theorem completeAuthentication_ok {binding : Option AuthenticatedRequestBinding}
    {expected : CallerRequestContext} {reading : Option UtcMoment} {b : AuthenticatedRequestBinding}
    (h : completeAuthentication policy binding expected reading s = (.ok b, s')) : binding = some b := by
  simp only [completeAuthentication, bind_ok, lift_ok] at h
  obtain ⟨_, _, -, hvalid, -⟩ := h
  exact (validateBinding_ok hvalid).1

/-- What a registration made of a binding. -/
structure Registered (policy : IssuerPolicy) (binding : AuthenticatedRequestBinding)
    (expected : CallerRequestContext) (object address : Nat) (snapshot : ContextSnapshot)
    (s s' : Issuer) : Prop where
  accepted : Accepted policy binding expected snapshot.issuedAt
  binding : snapshot.toAuthenticatedRequestBinding = binding
  open' : s.closed = false
  fits : s.active.length < policy.maxActiveContexts
  active : s'.active = assign s.active ⟨address, object, snapshot⟩
  pending : s'.pending = s.pending

theorem register_ok {binding : AuthenticatedRequestBinding} {expected : CallerRequestContext}
    {reading : Option UtcMoment} {drawn : List (Option String)} {object address : Nat}
    {snapshot : ContextSnapshot}
    (h : register policy heap binding expected reading drawn object address s = (.ok snapshot, s')) :
    ∃ s₁, Moved s s₁ ∧ Registered policy binding expected object address snapshot s₁ s' := by
  simp only [register, bind_ok, query_ok, ensure_ok, lift_ok, update_ok, pure_ok] at h
  obtain ⟨now, s₁, henter, _, _, ⟨rfl, rfl⟩, _, _, ⟨hfits, rfl⟩, trusted, _, ⟨hvalid, rfl⟩,
    contextId, _, ⟨-, rfl⟩, _, _, rfl, rfl, rfl⟩ := h
  have hmoved := @moved_enterSection policy heap reading s
  rw [henter] at hmoved
  obtain ⟨hsame, haccepted⟩ := validateBinding_ok hvalid
  obtain rfl := Option.some.inj hsame
  exact ⟨s₁, hmoved, haccepted, rfl, (enterSection_ok henter).1, hfits, rfl, rfl⟩

theorem newContextId_error {existing : List String} {n : Nat} {drawn : List (Option String)} :
    newContextId existing n drawn ≠ refused "request_context_capacity_exceeded" := by
  induction n generalizing drawn with
  | zero =>
    unfold newContextId refused
    decide
  | succ n ih =>
    cases drawn with
    | nil =>
      unfold newContextId refused
      decide
    | cons first rest =>
      cases first with
      | none =>
        unfold newContextId refused
        decide
      | some token =>
        unfold newContextId
        split
        · exact fun h => nomatch h
        · exact ih

/-- Entering a section raises no capacity error. -/
theorem enterSection_error {reading : Option UtcMoment} {e : IssuerError}
    (h : enterSection policy heap reading s = (.error e, s')) :
    e ≠ .context "request_context_capacity_exceeded" := by
  simp only [enterSection, bind_error, pure_error, prune, update_error, requireOpen, query_error,
    ensure_error, query_ok, false_or, or_false, and_false, exists_false] at h
  rcases h with ⟨_, _, -, -, rfl, -⟩ | ⟨_, _, -, hclock⟩
  · decide
  · unfold clockNow at hclock
    split at hclock
    · simp at hclock
    · obtain ⟨herror, -⟩ := Prod.mk.inj hclock
      rw [← Except.error.inj herror]
      decide
    · obtain ⟨herror, -⟩ := Prod.mk.inj hclock
      rw [← Except.error.inj herror]
      decide

/-- **A registration that fails** adds nothing; it is refused for capacity
only where the registry is full. -/
theorem register_error {binding : AuthenticatedRequestBinding} {expected : CallerRequestContext}
    {reading : Option UtcMoment} {drawn : List (Option String)} {object address : Nat} {e : IssuerError}
    (h : register policy heap binding expected reading drawn object address s = (.error e, s')) :
    Moved s s' ∧ (e = .context "request_context_capacity_exceeded" →
      policy.maxActiveContexts ≤ s.active.length) := by
  have hmoved := @moved_enterSection policy heap reading s
  simp only [register, bind_error, query_ok, query_error, ensure_ok, ensure_error, lift_ok, lift_error,
    update_error, pure_error, false_or, or_false, and_false, exists_false] at h
  rcases h with henter | ⟨now, s₁, henter, _, _, ⟨rfl, rfl⟩, h⟩
  · rw [henter] at hmoved
    exact ⟨hmoved, fun he => absurd he (enterSection_error henter)⟩
  · rw [henter] at hmoved
    rcases h with ⟨hfull, rfl, rfl⟩ | ⟨_, _, ⟨-, rfl⟩, h⟩
    · exact ⟨hmoved, fun _ => (not_lt.mp hfull).trans hmoved.active.length_le⟩
    · rcases h with ⟨hinvalid, rfl⟩ | ⟨_, _, ⟨-, rfl⟩, hid, rfl⟩
      · exact ⟨hmoved, fun he => absurd (he ▸ hinvalid) validateBinding_error⟩
      · exact ⟨hmoved, fun he => absurd (he ▸ hid) newContextId_error⟩

/-- What a trusted context is. -/
theorem trustedSnapshot_ok {context : Nat} {snapshot : ContextSnapshot}
    (h : trustedSnapshot heap context s = (.ok snapshot, s')) :
    trust heap s.active context = .trusted snapshot ∧ s' = s := by
  simp only [trustedSnapshot, bind_ok, query_ok] at h
  obtain ⟨said, _, ⟨rfl, rfl⟩, h⟩ := h
  cases hsaid : trust heap s.active context with
  | untrusted => simp [hsaid, requireTrusted] at h
  | tampered => simp [hsaid, requireTrusted] at h
  | trusted snapshot' =>
    rw [hsaid, requireTrusted] at h
    obtain ⟨rfl, rfl⟩ := pure_ok.mp h
    exact ⟨rfl, rfl⟩

/-- **A prepared basis** is of a trusted, unexpired context in its own scope,
at an open issuer. -/
theorem prepareReauthorization_ok {context : Nat} {request : AccessRequest}
    {reading : Option UtcMoment} {basis : ReauthorizationBasis}
    (h : prepareReauthorization policy heap context request reading s = (.ok basis, s')) :
    s.closed = false ∧ ∃ snapshot now, trust heap s.active context = .trusted snapshot ∧
      s'.lastObservedAt = some now ∧ now.micros < snapshot.expiresAt.micros ∧
      InScope snapshot request ∧ basis.Repeats snapshot now := by
  simp only [prepareReauthorization, bind_ok, ensure_ok, lift_ok] at h
  obtain ⟨_, _, hopen, now, s₁, hclock, snapshot, s₂, htrusted, _, s₃, hunexpired, _, _,
    ⟨hscope, rfl⟩, hbasis, rfl⟩ := h
  obtain ⟨hclosed, rfl⟩ := requireOpen_ok.mp hopen
  obtain ⟨htrust, rfl⟩ := trustedSnapshot_ok htrusted
  rw [clockNow_ok hclock] at htrust hunexpired
  unfold requireUnexpired at hunexpired
  split at hunexpired
  · simp at hunexpired
  next hlive =>
    obtain ⟨-, rfl⟩ := pure_ok.mp hunexpired
    refine ⟨hclosed, snapshot, now, htrust, rfl, ?_, hscope, makeBasis_ok hbasis⟩
    simpa [expired] using hlive

/-- **A retired context** was trusted, and is taken out. -/
theorem retire_ok {context : Nat} {u : Unit} (h : retire heap context s = (.ok u, s')) :
    (∃ snapshot, trust heap s.active context = .trusted snapshot) ∧
      s' = { s with active := popObject heap context s.active } := by
  simp only [retire, bind_ok, popContext, update_ok] at h
  obtain ⟨_, _, hopen, snapshot, s₁, htrusted, rfl⟩ := h
  obtain ⟨-, rfl⟩ := requireOpen_ok.mp hopen
  obtain ⟨htrust, rfl⟩ := trustedSnapshot_ok htrusted
  exact ⟨⟨snapshot, htrust⟩, rfl⟩

end QuantumEntanglement.RequestContext
