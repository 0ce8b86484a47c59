import QuantumEntanglement.Lib.TransitionSystem
import QuantumEntanglement.RequestContext.Issuer
import QuantumEntanglement.Tenancy.Decisions

/-
  An issuer in use — any number of threads issue, use and end contexts

  A call of `issue` goes through its critical sections with the credential
  and the authenticator in between, where other threads get on; whatever
  happens to it there, its `finally` gives the reservation back. The other
  calls are one section each. Between any two sections objects may be altered
  or collected, and contexts may turn up that the issuer did not make.

  `answers` lists what the authenticator answered to which claims, `issued` the
  contexts that were issued, for which claims and on which binding, and
  `retired` those that were retired.

  What is proved:
    1. `step_inv` — what one step keeps of the counts and of the registry.
    2. `issuer_contexts` — what holds in every reachable state.
-/

namespace QuantumEntanglement.RequestContext

open Tenancy Transaction Transaction.Txn TransitionSystem HandleRegistry

/-! ## The system -/

/-- How far a call of `issue` is. -/
inductive IssueCall where
  | idle
  | entered (expected : CallerRequestContext)
  | reserved (expected : CallerRequestContext)
  | authenticating (expected : CallerRequestContext)
  | answered (expected : CallerRequestContext) (binding : Option AuthenticatedRequestBinding)
  | validated (expected : CallerRequestContext) (binding : AuthenticatedRequestBinding)
  | leaving (reserved : Bool)

/-- A context that was issued, for these claims and on this binding. -/
structure Issued where
  object : Nat
  snapshot : ContextSnapshot
  expected : CallerRequestContext
  binding : AuthenticatedRequestBinding

structure World where
  issuer : Issuer
  heap : Heap ContextSnapshot
  calls : Nat → IssueCall
  answers : List (CallerRequestContext × Option AuthenticatedRequestBinding)
  issued : List Issued
  retired : List Nat

def World.setCall (w : World) (c : Nat) (call : IssueCall) : World :=
  { w with calls := Function.update w.calls c call }

/-- The state after a section of call `c`. -/
def World.after (w : World) (issuer : Issuer) (c : Nat) (call : IssueCall) : World :=
  { w with issuer := issuer, calls := Function.update w.calls c call }

inductive IssuerLabel where
  | issue (c : Nat)
  | prepare (context : Nat)
  | retire (context : Nat)
  | close
  | object (i : Nat)

variable (policy : IssuerPolicy)

inductive IssuerStep (w : World) : IssuerLabel → World → Prop where
  | enter {c : Nat} (expected : CallerRequestContext) (h : w.calls c = .idle) :
    IssuerStep w (.issue c) (w.setCall c (.entered expected))
  | reserve {c : Nat} {expected : CallerRequestContext} {reading : Option UtcMoment}
      {now : UtcMoment} {issuer : Issuer} (h : w.calls c = .entered expected)
      (hrun : reserve policy w.heap reading w.issuer = (.ok now, issuer)) :
    IssuerStep w (.issue c) (w.after issuer c (.reserved expected))
  | unreserved {c : Nat} {expected : CallerRequestContext} {reading : Option UtcMoment}
      {e : IssuerError} {issuer : Issuer} (h : w.calls c = .entered expected)
      (hrun : reserve policy w.heap reading w.issuer = (.error e, issuer)) :
    IssuerStep w (.issue c) (w.after issuer c (.leaving false))
  /-- The credential's view. -/
  | view {c : Nat} {expected : CallerRequestContext} (h : w.calls c = .reserved expected) :
    IssuerStep w (.issue c) (w.setCall c (.authenticating expected))
  | unavailable {c : Nat} {expected : CallerRequestContext} (h : w.calls c = .reserved expected) :
    IssuerStep w (.issue c) (w.setCall c (.leaving true))
  | answer {c : Nat} {expected : CallerRequestContext} (binding : Option AuthenticatedRequestBinding)
      (h : w.calls c = .authenticating expected) :
    IssuerStep w (.issue c)
      { w with
        calls := Function.update w.calls c (.answered expected binding)
        answers := w.answers ++ [(expected, binding)] }
  /-- The authenticator raised, or was interrupted. -/
  | unauthenticated {c : Nat} {expected : CallerRequestContext}
      (h : w.calls c = .authenticating expected) :
    IssuerStep w (.issue c) (w.setCall c (.leaving true))
  | complete {c : Nat} {expected : CallerRequestContext} {reading : Option UtcMoment}
      {binding : Option AuthenticatedRequestBinding} {trusted : AuthenticatedRequestBinding}
      {issuer : Issuer} (h : w.calls c = .answered expected binding)
      (hrun : completeAuthentication policy binding expected reading w.issuer = (.ok trusted, issuer)) :
    IssuerStep w (.issue c) (w.after issuer c (.validated expected trusted))
  | incomplete {c : Nat} {expected : CallerRequestContext} {reading : Option UtcMoment}
      {binding : Option AuthenticatedRequestBinding} {e : IssuerError} {issuer : Issuer}
      (h : w.calls c = .answered expected binding)
      (hrun : completeAuthentication policy binding expected reading w.issuer = (.error e, issuer)) :
    IssuerStep w (.issue c) (w.after issuer c (.leaving true))
  | register {c : Nat} {expected : CallerRequestContext} {binding : AuthenticatedRequestBinding}
      {reading : Option UtcMoment} {drawn : List (Option String)} {object address : Nat}
      {snapshot : ContextSnapshot} {issuer : Issuer} (h : w.calls c = .validated expected binding)
      (hrun : register policy w.heap binding expected reading drawn object address w.issuer =
        (.ok snapshot, issuer))
      (hnew : w.heap.objects object = none)
      (hfree : ∀ j b, w.heap.objects j = some b → b.alive = true → b.address ≠ address) :
    IssuerStep w (.issue c)
      { w with
        issuer := issuer
        heap := w.heap.allocate object address snapshot hfree
        calls := Function.update w.calls c (.leaving true)
        issued := w.issued ++ [⟨object, snapshot, expected, binding⟩] }
  | unregistered {c : Nat} {expected : CallerRequestContext} {binding : AuthenticatedRequestBinding}
      {reading : Option UtcMoment} {drawn : List (Option String)} {object address : Nat}
      {e : IssuerError} {issuer : Issuer} (h : w.calls c = .validated expected binding)
      (hrun : register policy w.heap binding expected reading drawn object address w.issuer =
        (.error e, issuer)) :
    IssuerStep w (.issue c) (w.after issuer c (.leaving true))
  /-- The `finally`; the credential is closed after it. -/
  | leave {c : Nat} {reserved : Bool} (h : w.calls c = .leaving reserved) :
    IssuerStep w (.issue c)
      (w.after (if reserved then (release w.issuer).2 else w.issuer) c .idle)
  | prepare (context : Nat) (request : AccessRequest) (reading : Option UtcMoment) :
    IssuerStep w (.prepare context)
      { w with issuer := (prepareReauthorization policy w.heap context request reading w.issuer).2 }
  | retire {context : Nat} {issuer : Issuer} (hrun : retire w.heap context w.issuer = (.ok (), issuer)) :
    IssuerStep w (.retire context)
      { w with issuer := issuer, retired := w.retired ++ [context] }
  | unretired {context : Nat} {e : IssuerError} {issuer : Issuer}
      (hrun : retire w.heap context w.issuer = (.error e, issuer)) :
    IssuerStep w (.retire context) { w with issuer := issuer }
  | close : IssuerStep w .close { w with issuer := (close w.issuer).2 }
  /-- A context this issuer did not make. -/
  | foreign {i address : Nat} (attributes : ContextSnapshot) (hnew : w.heap.objects i = none)
      (hfree : ∀ j b, w.heap.objects j = some b → b.alive = true → b.address ≠ address) :
    IssuerStep w (.object i) { w with heap := w.heap.allocate i address attributes hfree }
  /-- An object is altered, or collected. -/
  | touch {i : Nat} {a : Object ContextSnapshot} (attributes : Option ContextSnapshot) (alive : Bool)
      (ha : w.heap.objects i = some a) (halive : alive = true → a.alive = true) :
    IssuerStep w (.object i) { w with heap := w.heap.replace i a attributes alive ha halive }

/-- A new issuer, and whatever contexts there are. -/
def issuerSystem : System World IssuerLabel where
  start w := w.issuer = ⟨[], 0, false, none⟩ ∧ (∀ c, w.calls c = .idle) ∧ w.answers = [] ∧
    w.issued = [] ∧ w.retired = []
  step := IssuerStep policy

/-! ## The counts -/

/-- The call has a reservation to give back. -/
def IssueCall.holds : IssueCall → Bool
  | .idle | .entered _ => false
  | .reserved _ | .authenticating _ | .answered _ _ | .validated _ _ => true
  | .leaving held => held

/-- The call has a reservation and may still register a context on it. -/
def IssueCall.waits : IssueCall → Bool
  | .reserved _ | .authenticating _ | .answered _ _ | .validated _ _ => true
  | .idle | .entered _ | .leaving _ => false

/-- The pending count is the number of reservations held, and there is room
for all those that still wait. -/
structure Counted (issuer : Issuer) (calls : Nat → IssueCall) (holding waiting : Finset Nat) : Prop where
  held : ∀ c, c ∈ holding ↔ (calls c).holds = true
  waited : ∀ c, c ∈ waiting ↔ (calls c).waits = true
  pending : issuer.pending = holding.card
  room : issuer.active.length + waiting.card ≤ policy.maxActiveContexts

variable {policy} {issuer issuer' : Issuer} {calls : Nat → IssueCall} {holding waiting : Finset Nat}
  {c : Nat} {call : IssueCall}

theorem Counted.moved (h : Counted policy issuer calls holding waiting) (hm : Moved issuer issuer') :
    Counted policy issuer' calls holding waiting where
  held := h.held
  waited := h.waited
  pending := hm.pending.trans h.pending
  room := le_trans (Nat.add_le_add_right hm.active.length_le _) h.room

section
variable {f : IssueCall → Bool} {set : Finset Nat} (h : ∀ d, d ∈ set ↔ f (calls d) = true)
include h

/-- Whom a set of calls keeps. -/
theorem mem_same_iff (hc : f call = f (calls c)) (d : Nat) :
    d ∈ set ↔ f (Function.update calls c call d) = true := by
  rw [h]
  by_cases hd : d = c
  · rw [hd, Function.update_self, hc]
  · rw [Function.update_of_ne hd]

/-- Whom a set of calls gains. -/
theorem mem_insert_iff (hc : f call = true) (d : Nat) :
    d ∈ insert c set ↔ f (Function.update calls c call d) = true := by
  rw [Finset.mem_insert]
  by_cases hd : d = c
  · simp [hd, hc]
  · rw [Function.update_of_ne hd, ← h]
    simp [hd]

/-- Whom a set of calls loses. -/
theorem mem_erase_iff (hc : f call = false) (d : Nat) :
    d ∈ set.erase c ↔ f (Function.update calls c call d) = true := by
  rw [Finset.mem_erase]
  by_cases hd : d = c
  · simp [hd, hc]
  · rw [Function.update_of_ne hd, ← h]
    simp [hd]

end

/-- A call that holds and waits as before. -/
theorem Counted.same (h : Counted policy issuer calls holding waiting)
    (hholds : call.holds = (calls c).holds) (hwaits : call.waits = (calls c).waits) :
    Counted policy issuer (Function.update calls c call) holding waiting :=
  ⟨mem_same_iff h.held hholds, mem_same_iff h.waited hwaits, h.pending, h.room⟩

/-- Nobody waits who does not hold. -/
theorem Counted.waiting_subset (h : Counted policy issuer calls holding waiting) :
    waiting ⊆ holding := by
  intro d hd
  rw [h.waited] at hd
  rw [h.held]
  cases hcall : calls d <;> simp_all [IssueCall.waits, IssueCall.holds]

/-- **A reservation is made where there is room.** -/
theorem Counted.reserve (h : Counted policy issuer calls holding waiting)
    (hroom : HasRoom policy issuer) (hnot : (calls c).holds = false) (hwaits : call.waits = true)
    (hholds : call.holds = true) :
    Counted policy { issuer with pending := issuer.pending + 1 } (Function.update calls c call)
      (insert c holding) (insert c waiting) := by
  have hnew : c ∉ holding := by
    rw [h.held, hnot]
    simp
  have hnew' : c ∉ waiting := fun hc => hnew (h.waiting_subset hc)
  have hcards := Finset.card_le_card h.waiting_subset
  have hpending := h.pending
  unfold HasRoom at hroom
  refine ⟨mem_insert_iff h.held hholds, mem_insert_iff h.waited hwaits, ?_, ?_⟩
  · show issuer.pending + 1 = _
    rw [Finset.card_insert_of_notMem hnew]
    omega
  · show issuer.active.length + _ ≤ _
    rw [Finset.card_insert_of_notMem hnew']
    omega

/-- **A call stops waiting**; it may have registered one context. -/
theorem Counted.stop (h : Counted policy issuer calls holding waiting)
    (hwaited : (calls c).waits = true) (hwaits : call.waits = false) (hholds : call.holds = true)
    (hpending : issuer'.pending = issuer.pending)
    (hlength : issuer'.active.length ≤ issuer.active.length + 1) :
    Counted policy issuer' (Function.update calls c call) holding (waiting.erase c) := by
  have hin : c ∈ waiting := (h.waited c).mpr hwaited
  have hheld : (calls c).holds = true := (h.held c).mp (h.waiting_subset hin)
  have hcard := Finset.card_erase_add_one hin
  have hroom := h.room
  exact ⟨mem_same_iff h.held (hholds.trans hheld.symm), mem_erase_iff h.waited hwaits,
    hpending.trans h.pending, by omega⟩

/-- **A call that holds a reservation gives it back.** -/
theorem Counted.release (h : Counted policy issuer calls holding waiting)
    (hheld : (calls c).holds = true) (hholds : call.holds = false)
    (hwaits : call.waits = (calls c).waits) :
    Counted policy (RequestContext.release issuer).2 (Function.update calls c call) (holding.erase c)
      waiting := by
  have hin : c ∈ holding := (h.held c).mpr hheld
  have hcard := Finset.card_erase_add_one hin
  have hpending := h.pending
  refine ⟨mem_erase_iff h.held hholds, mem_same_iff h.waited hwaits, ?_, h.room⟩
  show issuer.pending - 1 = _
  omega

/-- A call that waits has room left for its context. -/
theorem Counted.room_of_waits (h : Counted policy issuer calls holding waiting)
    (hwaited : (calls c).waits = true) : issuer.active.length < policy.maxActiveContexts := by
  have hin : c ∈ waiting := (h.waited c).mpr hwaited
  have hpos := Finset.card_pos.mpr ⟨c, hin⟩
  have hroom := h.room
  omega

/-! ## The registry -/

/-- A context carries the call's claims and the authenticator's binding, for
no longer than the issuer allows. -/
structure Carries (policy : IssuerPolicy) (i : Issued) : Prop where
  binding : i.snapshot.toAuthenticatedRequestBinding = i.binding
  binds : i.binding.Binds i.expected
  authenticator : i.binding.authenticatorId = policy.authenticatorId
  audience : i.binding.audience = policy.audience
  lasts : i.snapshot.issuedAt.micros < i.snapshot.expiresAt.micros
  short : i.snapshot.expiresAt.micros - i.snapshot.issuedAt.micros ≤ policy.maxContextTtl

/-- The call's binding is what the authenticator answered to its claims. -/
def IssueCall.Answered (answers : List (CallerRequestContext × Option AuthenticatedRequestBinding)) :
    IssueCall → Prop
  | .answered expected binding => (expected, binding) ∈ answers
  | .validated expected binding => (expected, some binding) ∈ answers
  | _ => True

structure RegistryInv (policy : IssuerPolicy) (w : World) : Prop where
  sound : Sound w.heap w.issuer.active
  known : ∀ r ∈ w.issuer.active, ∃ i ∈ w.issued, i.object = r.target ∧ i.snapshot = r.snapshot
  live : ∀ r ∈ w.issuer.active, r.target ∉ w.retired
  made : ∀ i ∈ w.retired, w.heap.objects i ≠ none
  carries : ∀ i ∈ w.issued, Carries policy i
  answered : ∀ c, (w.calls c).Answered w.answers
  answers : ∀ i ∈ w.issued, (i.expected, some i.binding) ∈ w.answers

variable {w : World}

/-- The calls after one of them got on. -/
theorem answered_update {answers : List (CallerRequestContext × Option AuthenticatedRequestBinding)}
    (h : ∀ d, (calls d).Answered answers) (hc : call.Answered answers) (d : Nat) :
    (Function.update calls c call d).Answered answers := by
  by_cases hd : d = c
  · rw [hd, Function.update_self]
    exact hc
  · rw [Function.update_of_ne hd]
    exact h d

/-- A section that adds no context, of a call that got on or of another. -/
theorem RegistryInv.moved (h : RegistryInv policy w) (hm : Moved w.issuer issuer)
    (hcalls : ∀ d, (calls d).Answered w.answers) :
    RegistryInv policy { w with issuer := issuer, calls := calls } where
  sound := h.sound.sublist hm.active
  known := fun r hr => h.known r (hm.active.subset hr)
  live := fun r hr => h.live r (hm.active.subset hr)
  made := h.made
  carries := h.carries
  answered := hcalls
  answers := h.answers

/-- Objects come, change and go. -/
theorem RegistryInv.heap (h : RegistryInv policy w) {heap : Heap ContextSnapshot}
    (he : w.heap.Extends heap) : RegistryInv policy { w with heap := heap } where
  sound := h.sound.heap he
  known := h.known
  live := h.live
  made := fun i hi => by
    intro hnone
    cases ha : w.heap.objects i with
    | none => exact h.made i hi ha
    | some a =>
      obtain ⟨a', ha', -⟩ := he i a ha
      have hnone : heap.objects i = none := hnone
      rw [hnone] at ha'
      cases ha'
  carries := h.carries
  answered := h.answered
  answers := h.answers

/-- The authenticator answers a call. -/
theorem RegistryInv.answer (h : RegistryInv policy w) {expected : CallerRequestContext}
    {binding : Option AuthenticatedRequestBinding} :
    RegistryInv policy { w with
      calls := Function.update w.calls c (.answered expected binding)
      answers := w.answers ++ [(expected, binding)] } where
  sound := h.sound
  known := h.known
  live := h.live
  made := h.made
  carries := h.carries
  answered := answered_update
    (fun d => by
      have hd := h.answered d
      cases hcall : w.calls d <;> simp_all [IssueCall.Answered])
    (by simp [IssueCall.Answered])
  answers := fun i hi => List.mem_append_left _ (h.answers i hi)

/-- A context is retired. -/
theorem RegistryInv.retire (h : RegistryInv policy w) {context : Nat} {issuer : Issuer}
    (hrun : RequestContext.retire w.heap context w.issuer = (.ok (), issuer)) :
    RegistryInv policy { w with issuer := issuer, retired := w.retired ++ [context] } := by
  have hactive := (retire_ok hrun).2
  have hsub : issuer.active.Sublist w.issuer.active := by
    rw [hactive]
    exact popObject_sublist _ _ _
  refine ⟨h.sound.sublist hsub, fun r hr => h.known r (hsub.subset hr), ?_, ?_, h.carries,
    h.answered, h.answers⟩
  · intro r hr hretired
    have hr : r ∈ popObject w.heap context w.issuer.active := by
      rw [hactive] at hr
      exact hr
    rcases List.mem_append.mp hretired with hold | hnew
    · exact h.live r (hsub.subset (by rw [hactive]; exact hr)) hold
    · exact popObject_target h.sound r hr (List.mem_singleton.mp hnew)
  · intro i hi
    rcases List.mem_append.mp hi with hold | hnew
    · exact h.made i hold
    · obtain rfl := List.mem_singleton.mp hnew
      obtain ⟨⟨snapshot, htrust⟩, -⟩ := retire_ok hrun
      obtain ⟨r, -, -, -, a, ha, -⟩ := trusted_record htrust
      simp [ha]

/-- A context is registered, at a new object. -/
theorem RegistryInv.register (h : RegistryInv policy w) {expected : CallerRequestContext}
    {binding : AuthenticatedRequestBinding} {reading : Option UtcMoment} {drawn : List (Option String)}
    {object address : Nat} {snapshot : ContextSnapshot} {issuer : Issuer}
    (hcall : w.calls c = .validated expected binding)
    (hrun : RequestContext.register policy w.heap binding expected reading drawn object address
      w.issuer = (.ok snapshot, issuer))
    (hnew : w.heap.objects object = none)
    (hfree : ∀ j b, w.heap.objects j = some b → b.alive = true → b.address ≠ address) :
    RegistryInv policy { w with
      issuer := issuer
      heap := w.heap.allocate object address snapshot hfree
      calls := Function.update w.calls c (.leaving true)
      issued := w.issued ++ [⟨object, snapshot, expected, binding⟩] } := by
  obtain ⟨s₁, hmoved, hregistered⟩ := register_ok hrun
  have hextends : w.heap.Extends (w.heap.allocate object address snapshot hfree) :=
    w.heap.allocate_extends hfree hnew
  have hkept := h.heap hextends
  have hmem : ∀ r ∈ issuer.active, r ∈ w.issuer.active ∨ r = ⟨address, object, snapshot⟩ := by
    intro r hr
    rw [hregistered.active] at hr
    rcases mem_assign hr with hold | hnew
    · exact .inl (hmoved.active.subset hold)
    · exact .inr hnew
  have hanswered := h.answered c
  rw [hcall] at hanswered
  refine ⟨?_, ?_, ?_, hkept.made, ?_, answered_update h.answered trivial, ?_⟩
  · show Sound _ issuer.active
    rw [hregistered.active]
    refine (hkept.sound.sublist hmoved.active).assign ?_
    exact ⟨⟨address, some snapshot, true⟩, by simp [Heap.allocate], rfl⟩
  · intro r hr
    rcases hmem r hr with hold | rfl
    · obtain ⟨i, hi, hobject, hsnapshot⟩ := h.known r hold
      exact ⟨i, List.mem_append_left _ hi, hobject, hsnapshot⟩
    · exact ⟨_, List.mem_append_right _ (List.mem_singleton.mpr rfl), rfl, rfl⟩
  · intro r hr
    rcases hmem r hr with hold | rfl
    · exact h.live r hold
    · exact fun hretired => h.made object hretired hnew
  · intro i hi
    rcases List.mem_append.mp hi with hold | hnew
    · exact h.carries i hold
    · obtain rfl := List.mem_singleton.mp hnew
      have haccepted := hregistered.accepted
      have hbinding := hregistered.binding
      have hexpires : snapshot.expiresAt = binding.expiresAt := by rw [← hbinding]
      refine ⟨hbinding, haccepted.binds, haccepted.authenticator, haccepted.audience, ?_, ?_⟩
      · show snapshot.issuedAt.micros < snapshot.expiresAt.micros
        rw [hexpires]
        exact haccepted.unexpired
      · show snapshot.expiresAt.micros - snapshot.issuedAt.micros ≤ _
        rw [hexpires]
        exact haccepted.soon
  · intro i hi
    rcases List.mem_append.mp hi with hold | hnew
    · exact h.answers i hold
    · obtain rfl := List.mem_singleton.mp hnew
      exact hanswered

/-! ## Steps and runs -/

/-- The counts and the registry. -/
def WorldInv (policy : IssuerPolicy) (w : World) : Prop :=
  RegistryInv policy w ∧ ∃ holding waiting, Counted policy w.issuer w.calls holding waiting

/-- A section run to either end moved the issuer. -/
theorem moved_run {α : Type} {m : IssuerTxn α} (hm : Always Moved m) {s s' : Issuer}
    {r : Except IssuerError α} (h : m s = (r, s')) : Moved s s' := by
  have hmoved := hm s
  rw [h] at hmoved
  exact hmoved

/-- A call gets on without a reservation being made or given back. -/
theorem WorldInv.goOn (h : WorldInv policy w) (hm : Moved w.issuer issuer)
    (hanswered : call.Answered w.answers) (hholds : call.holds = (w.calls c).holds)
    (hwaits : call.waits = (w.calls c).waits) : WorldInv policy (w.after issuer c call) := by
  obtain ⟨hregistry, holding, waiting, hcounted⟩ := h
  exact ⟨hregistry.moved hm (answered_update hregistry.answered hanswered), holding, waiting,
    (hcounted.moved hm).same hholds hwaits⟩

/-- A call that waited gives up. -/
theorem WorldInv.giveUp (h : WorldInv policy w) (hm : Moved w.issuer issuer)
    (hwaited : (w.calls c).waits = true) : WorldInv policy (w.after issuer c (.leaving true)) := by
  obtain ⟨hregistry, holding, waiting, hcounted⟩ := h
  exact ⟨hregistry.moved hm (answered_update hregistry.answered trivial), holding, waiting.erase c,
    hcounted.stop hwaited rfl rfl hm.pending (hm.active.length_le.trans (Nat.le_succ _))⟩

/-- Another call's section. -/
theorem WorldInv.section (h : WorldInv policy w) (hm : Moved w.issuer issuer) :
    WorldInv policy { w with issuer := issuer } := by
  obtain ⟨hregistry, holding, waiting, hcounted⟩ := h
  exact ⟨hregistry.moved hm hregistry.answered, holding, waiting, hcounted.moved hm⟩

/-- **What one step keeps.** -/
theorem step_inv {w' : World} {label : IssuerLabel} (h : WorldInv policy w)
    (hstep : IssuerStep policy w label w') : WorldInv policy w' := by
  cases hstep with
  | @enter c expected hcall => exact h.goOn (.refl _) trivial (by rw [hcall]; rfl) (by rw [hcall]; rfl)
  | @reserve c expected reading now issuer hcall hrun =>
    obtain ⟨hregistry, holding, waiting, hcounted⟩ := h
    obtain ⟨s₁, hmoved, -, hroom, rfl⟩ := reserve_ok hrun
    have hlater := hregistry.moved hmoved hregistry.answered
    refine ⟨⟨hlater.sound, hlater.known, hlater.live, hlater.made, hlater.carries,
      answered_update hregistry.answered trivial, hlater.answers⟩, insert c holding,
      insert c waiting, ?_⟩
    exact (hcounted.moved hmoved).reserve hroom (by rw [hcall]; rfl) rfl rfl
  | @unreserved c expected reading e issuer hcall hrun =>
    exact h.goOn (reserve_error hrun) trivial (by rw [hcall]; rfl) (by rw [hcall]; rfl)
  | @view c expected hcall => exact h.goOn (.refl _) trivial (by rw [hcall]; rfl) (by rw [hcall]; rfl)
  | @unavailable c expected hcall => exact h.giveUp (.refl _) (by rw [hcall]; rfl)
  | @answer c expected binding hcall =>
    obtain ⟨hregistry, holding, waiting, hcounted⟩ := h
    exact ⟨hregistry.answer, holding, waiting,
      hcounted.same (by rw [hcall]; rfl) (by rw [hcall]; rfl)⟩
  | @unauthenticated c expected hcall => exact h.giveUp (.refl _) (by rw [hcall]; rfl)
  | @complete c expected reading binding trusted issuer hcall hrun =>
    have hmoved := moved_run (moved_completeAuthentication _ _ _) hrun
    have hanswered := h.1.answered c
    rw [hcall] at hanswered
    refine h.goOn hmoved ?_ (by rw [hcall]; rfl) (by rw [hcall]; rfl)
    rw [completeAuthentication_ok hrun] at hanswered
    exact hanswered
  | @incomplete c expected reading binding e issuer hcall hrun =>
    exact h.giveUp (moved_run (moved_completeAuthentication _ _ _) hrun) (by rw [hcall]; rfl)
  | @register c expected binding reading drawn object address snapshot issuer hcall hrun hnew hfree =>
    obtain ⟨hregistry, holding, waiting, hcounted⟩ := h
    obtain ⟨s₁, hmoved, hregistered⟩ := register_ok hrun
    refine ⟨hregistry.register hcall hrun hnew hfree, holding, waiting.erase c, ?_⟩
    refine (hcounted.moved hmoved).stop (by rw [hcall]; rfl) rfl rfl hregistered.pending ?_
    rw [hregistered.active]
    exact length_assign _ _
  | @unregistered c expected binding reading drawn object address e issuer hcall hrun =>
    exact h.giveUp (register_error hrun).1 (by rw [hcall]; rfl)
  | @leave c reserved hcall =>
    cases reserved with
    | false => exact h.goOn (.refl _) trivial (by rw [hcall]; rfl) (by rw [hcall]; rfl)
    | true =>
      obtain ⟨hregistry, holding, waiting, hcounted⟩ := h
      refine ⟨⟨hregistry.sound, hregistry.known, hregistry.live, hregistry.made, hregistry.carries,
        answered_update hregistry.answered trivial, hregistry.answers⟩, holding.erase c, waiting, ?_⟩
      exact hcounted.release (by rw [hcall]; rfl) rfl (by rw [hcall]; rfl)
  | prepare context request reading => exact h.section (moved_prepareReauthorization _ _ _ _)
  | @retire context issuer hrun =>
    obtain ⟨hregistry, holding, waiting, hcounted⟩ := h
    exact ⟨hregistry.retire hrun, holding, waiting, hcounted.moved (moved_run (moved_retire _) hrun)⟩
  | @unretired context e issuer hrun => exact h.section (moved_run (moved_retire _) hrun)
  | close => exact h.section (moved_close _)
  | @foreign i address attributes hnew hfree =>
    exact ⟨h.1.heap (w.heap.allocate_extends hfree hnew), h.2⟩
  | @touch i a attributes alive ha halive => exact ⟨h.1.heap (w.heap.replace_extends ha halive), h.2⟩

theorem start_inv (h : (issuerSystem policy).start w) : WorldInv policy w := by
  obtain ⟨hissuer, hcalls, hanswers, hissued, hretired⟩ := h
  refine ⟨⟨?_, ?_, ?_, ?_, ?_, ?_, ?_⟩, ∅, ∅, ?_, ?_, ?_, ?_⟩
  · rw [hissuer]
    exact .nil _
  · simp [hissuer]
  · simp [hissuer]
  · simp [hretired]
  · simp [hissued]
  · intro c
    rw [hcalls c]
    trivial
  · simp [hissued]
  · intro c
    simp [hcalls c, IssueCall.holds]
  · intro c
    simp [hcalls c, IssueCall.waits]
  · simp [hissuer]
  · simp [hissuer]

/-- What a context is, for which a basis was prepared. -/
structure LiveContext (w : World) (context : Nat) (request : AccessRequest) (i : Issued)
    (now : UtcMoment) : Prop where
  open' : w.issuer.closed = false
  unretired : context ∉ w.retired
  issued : i ∈ w.issued
  object : i.object = context
  unaltered : ∃ a, w.heap.objects context = some a ∧ a.alive = true ∧ a.attributes = some i.snapshot
  unexpired : now.micros < i.snapshot.expiresAt.micros
  scope : InScope i.snapshot request

/-- **A basis is prepared** for a live context only. -/
theorem RegistryInv.prepared (h : RegistryInv policy w) {context : Nat} {request : AccessRequest}
    {reading : Option UtcMoment} {basis : ReauthorizationBasis} {issuer : Issuer}
    (hrun : prepareReauthorization policy w.heap context request reading w.issuer =
      (.ok basis, issuer)) :
    ∃ i now, LiveContext w context request i now ∧ issuer.lastObservedAt = some now ∧
      basis.Repeats i.snapshot now := by
  obtain ⟨hopen, snapshot, now, htrust, hobserved, hunexpired, hscope, hbasis⟩ :=
    prepareReauthorization_ok hrun
  obtain ⟨r, hr, rfl, rfl, a, ha, -, halive, hattributes⟩ := trusted_record htrust
  obtain ⟨i, hi, hobject, hsnapshot⟩ := h.known r hr
  rw [← hsnapshot] at hattributes hunexpired hscope hbasis
  exact ⟨i, now, ⟨hopen, h.live r hr, hi, hobject, ⟨a, ha, halive, hattributes⟩, hunexpired, hscope⟩,
    hobserved, hbasis⟩

/-- **The issuer's guarantee**, in every reachable state: no more contexts
than the maximum; a call that has reserved is not refused for capacity; the
pending count is the number of calls that hold a reservation; every context
carries its call's claims and the authenticator's binding for no longer than
allowed; and a basis is prepared only for an issued context that is neither
retired nor expired nor altered, in its own scope, at an open issuer. -/
theorem issuer_contexts (policy : IssuerPolicy) (w : World) (hw : Reachable (issuerSystem policy) w) :
    w.issuer.active.length ≤ policy.maxActiveContexts ∧
      (∀ c expected binding, w.calls c = .validated expected binding →
        ∀ reading drawn object address,
          (register policy w.heap binding expected reading drawn object address w.issuer).1 ≠
            .error (.context "request_context_capacity_exceeded")) ∧
      (∃ holding : Finset Nat, (∀ c, c ∈ holding ↔ (w.calls c).holds = true) ∧
        w.issuer.pending = holding.card) ∧
      ((∀ c, w.calls c = .idle) → w.issuer.pending = 0) ∧
      (∀ i ∈ w.issued, Carries policy i ∧ (i.expected, some i.binding) ∈ w.answers) ∧
      ∀ context request reading basis issuer,
        prepareReauthorization policy w.heap context request reading w.issuer = (.ok basis, issuer) →
          ∃ i now, LiveContext w context request i now ∧ issuer.lastObservedAt = some now ∧
            basis.Repeats i.snapshot now := by
  obtain ⟨hregistry, holding, waiting, hcounted⟩ : WorldInv policy w :=
    invariant_of_reachable (I := WorldInv policy) (fun _ => start_inv)
      (fun _ _ _ h hstep => step_inv h hstep) hw
  refine ⟨?_, ?_, ⟨holding, hcounted.held, hcounted.pending⟩, ?_,
    fun i hi => ⟨hregistry.carries i hi, hregistry.answers i hi⟩,
    fun _ _ _ _ _ hrun => hregistry.prepared hrun⟩
  · exact le_trans (Nat.le_add_right _ _) hcounted.room
  · intro c expected binding hcall reading drawn object address herror
    rcases hrun : register policy w.heap binding expected reading drawn object address w.issuer with
      ⟨r, issuer⟩
    rw [hrun] at herror
    obtain rfl : r = _ := herror
    have hfull := (register_error hrun).2 rfl
    exact absurd (hcounted.room_of_waits (by rw [hcall]; rfl)) (Nat.not_lt.mpr hfull)
  · intro hidle
    have hnone : holding = ∅ := by
      apply Finset.eq_empty_of_forall_notMem
      intro c hc
      rw [hcounted.held, hidle c] at hc
      simp [IssueCall.holds] at hc
    rw [hcounted.pending, hnone]
    rfl

/-! ## One context from its issue to its use -/

namespace Sample

open Tenancy.Sample

def configuration : IssuerPolicy := ⟨"idp", "qe", 60000000, 0, 1, by decide, by decide, by decide, by decide, by decide⟩

def claims : CallerRequestContext := ⟨"r1", "bob", acme, none, .refl true, .refl true⟩

theorem zeros_hex : Sha256.IsHexDigest "0000000000000000000000000000000000000000000000000000000000000000" := by
  decide

def binding : AuthenticatedRequestBinding where
  authenticatorId := "idp"
  audience := "qe"
  requestId := "r1"
  principalId := "p1"
  subjectId := "bob"
  tenantId := acme
  workspaceId := none
  identityRevision := "i1"
  scopeRevision := "s1"
  evidenceFingerprint := "0000000000000000000000000000000000000000000000000000000000000000"
  authenticatedAt := moment 0 starts_early
  expiresAt := moment 2000000 ends_early
  authenticator := .refl true
  aimed := .refl true
  request := .refl true
  principal := .refl true
  subject := .refl true
  identity := .refl true
  scope := .refl true
  evidence := zeros_hex
  lasts := root_ends

/-- No object yet. -/
def noObjects : Heap ContextSnapshot := ⟨fun _ => none, by simp⟩

def fresh : World := ⟨⟨[], 0, false, none⟩, noObjects, fun _ => .idle, [], [], []⟩

def snapshot : ContextSnapshot := ⟨binding, "ctx_0", now⟩

def issuing : Issuer := ⟨[], 1, false, some now⟩

def issued : Issuer := ⟨[⟨7, 0, snapshot⟩], 1, false, some now⟩

theorem reserve_run : reserve configuration noObjects (some now) fresh.issuer = (.ok now, issuing) := by
  rfl

theorem complete_run : completeAuthentication configuration (some binding) claims (some now) issuing =
    (.ok binding, issuing) := by
  rfl

theorem register_run : register configuration noObjects binding claims (some now) [some "0"] 0 7 issuing =
    (.ok snapshot, issued) := by
  rfl

theorem nobody : ∀ j b, noObjects.objects j = some b → b.alive = true → b.address ≠ 7 :=
  fun _ _ h => nomatch h

def heap : Heap ContextSnapshot := noObjects.allocate 0 7 snapshot nobody

/-- A context is issued, and its call is over. -/
theorem issued_run : ∃ w, Reachable (issuerSystem configuration) w ∧
    w.issuer = (release issued).2 ∧ w.heap = heap ∧ w.calls 0 = .idle := by
  refine ⟨_, ⟨fresh, List.replicate 7 (.issue 0), ⟨rfl, fun _ => rfl, rfl, rfl, rfl⟩,
    .next (S := issuerSystem configuration) (.enter (c := 0) claims rfl)
    (.next (S := issuerSystem configuration) (.reserve rfl reserve_run)
    (.next (S := issuerSystem configuration) (.view rfl)
    (.next (S := issuerSystem configuration) (.answer (some binding) rfl)
    (.next (S := issuerSystem configuration) (.complete rfl complete_run)
    (.next (S := issuerSystem configuration) (.register rfl register_run rfl nobody)
    (.single (S := issuerSystem configuration) (.leave rfl)))))))⟩, rfl, rfl, rfl⟩

/-- The request is prepared for. -/
theorem prepare_run : ∃ basis issuer,
    prepareReauthorization configuration heap 0 request (some now) (release issued).2 =
      (.ok basis, issuer) :=
  ⟨_, _, rfl⟩

end Sample

open Sample in
/-- A context is issued and used. -/
theorem issuer_contexts_once :
    ∃ w, Reachable (issuerSystem configuration) w ∧ ∃ i ∈ w.issued, i.object = 0 ∧
      Carries configuration i ∧ InScope i.snapshot Tenancy.Sample.request := by
  obtain ⟨w, hw, hissuer, hheap, -⟩ := issued_run
  obtain ⟨basis, issuer, hprepare⟩ := prepare_run
  obtain ⟨-, -, -, -, hcarries, huse⟩ := issuer_contexts configuration w hw
  rw [← hissuer, ← hheap] at hprepare
  obtain ⟨i, now, hlive, -, -⟩ := huse _ _ _ _ _ hprepare
  exact ⟨w, hw, i, hlive.issued, hlive.object, (hcarries i hlive.issued).1, hlive.scope⟩

end QuantumEntanglement.RequestContext
