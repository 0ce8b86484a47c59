import QuantumEntanglement.Lib.TransitionSystem
import QuantumEntanglement.Tenancy.Decisions
import QuantumEntanglement.Tenancy.RevocationGuard

/-
  Runs of the revocation guard — many connections and evaluations on one file

  A connection has one call at a time, which its lock sees to, and takes it
  through BEGIN IMMEDIATE, the body and COMMIT, or through ROLLBACK. BEGIN
  IMMEDIATE waits while another connection has a transaction open; a BEGIN or
  ROLLBACK that raised may have left one open, which no later call gets rid
  of. Any statement may fail, and a body that raised may have written anything
  to its own transaction, or lost it. A process that crashes takes its
  transaction with it.

  `log` lists the calls whose COMMIT took effect, in that order. An evaluation
  asks the guard in the middle and returns its decision some time later;
  `allowed` lists the places in the log of those that returned ALLOW, in the
  order of their return, and a call remembers what had returned when it was
  made. Both are there to be talked about; no step looks at them.

  Correspondence (Python ↔ Lean):
    `SQLiteRevocationRevisionGuard.__init__`            ↔ `connect`, and a job `opening`
    `SQLiteRevocationRevisionGuard._transaction`        ↔ `begin`, `body`, `commit`, `rollback`
-/

namespace QuantumEntanglement.Tenancy

open PyText IsoTime Sha256 Transaction Transaction.Txn TransitionSystem HighWater

/-! ## Evaluations -/

/-- What `evaluate` is called with; the authorizer's guard is the file. -/
structure Evaluation where
  authorizer : TenantAuthorizer
  request : AccessRequest
  revocations : RevocationSnapshot
  now : UtcMoment
  member : Option Member
  presented : List (Option CapabilityEnvelope)

namespace Evaluation

/-- The call an evaluation makes. -/
def guardRequest (e : Evaluation) : GuardRequest :=
  ⟨e.request.tenantId, e.revocations.revision, e.revocations.stateDigest⟩

/-- The decision, once the guard has answered. -/
def decide (e : Evaluation) (answer : Answer) : Except TenancyError AuthorizationDecision :=
  { e.authorizer with revisionGuard := fun _ _ _ => answer }.evaluate
    e.request e.revocations e.now e.member e.presented

/-- The evaluation comes to the guard: a refusal would be its decision. -/
def Asks (e : Evaluation) : Prop :=
  ∃ d, e.decide .refused = .ok d ∧ d.code = .revocationRevisionRollback

/-- The evaluation returns ALLOW on this answer. -/
def Allows (e : Evaluation) (answer : Answer) : Prop :=
  ∃ d, e.decide answer = .ok d ∧ d.outcome = .allow

/-- **Only an accepted call is followed by ALLOW.** -/
theorem accepted_of_allows {e : Evaluation} {answer : Answer} (h : e.Allows answer) :
    answer = .accepted := by
  obtain ⟨-, m, -, hadmissible, -⟩ := TenantAuthorizer.allowed_iff.mp h
  exact hadmissible.guarded

end Evaluation

/-! ## The system -/

/-- A call, the evaluation that makes it, and what had returned ALLOW before. -/
structure Check where
  request : GuardRequest
  evaluation : Option Evaluation
  allowedBefore : List Nat

inductive Job where
  | opening
  | check (c : Check)

/-- The body of a job's transaction; opening answers `True`. -/
def Job.body : Job → Txn GuardFile TenancyError Bool
  | .opening => do
    initializeBody
    pure true
  | .check c => checkBody c.request

inductive Phase where
  | closed
  | idle
  | starting (job : Job)
  | begun (job : Job)
  | done (job : Job) (answer : Bool)
  | unwinding (job : Job)

/-- A connection: what its open transaction works on, and how far it is. -/
structure Link where
  work : Option GuardFile
  phase : Phase

/-- A connection whose job raised: an opening closes it. -/
def Job.failed : Job → Option GuardFile → Link
  | .opening, _ => ⟨none, .closed⟩
  | .check _, work => ⟨work, .idle⟩

/-- A call whose COMMIT took effect. -/
structure Entry where
  check : Check
  answer : Bool
  acknowledged : Bool

/-- What the log gains by a job's COMMIT. -/
def Job.entries (acknowledged answer : Bool) : Job → List Entry
  | .opening => []
  | .check c => [⟨c, answer, acknowledged⟩]

structure GuardState where
  file : GuardFile
  links : Nat → Link
  log : List Entry
  allowed : List Nat

/-- Connection `c` is now this. -/
def GuardState.setLink (s : GuardState) (c : Nat) (link : Link) : GuardState :=
  { s with links := Function.update s.links c link }

/-- How a COMMIT ends: with or without having taken effect, in either case
acknowledged or raising; raising, it may have given the transaction up. -/
inductive CommitEnd where
  | acknowledged
  | unacknowledged
  | refused
  | aborted
  deriving DecidableEq

inductive GuardLabel where
  | connect (c : Nat)
  | call (c : Nat)
  | begin (c : Nat)
  | beginFailed (c : Nat) (opened : Bool)
  | body (c : Nat)
  | bodyFailed (c : Nat)
  | commit (c : Nat) (ending : CommitEnd)
  | rollback (c : Nat) (closed : Bool)
  | crash (c : Nat)
  | decide (k : Nat)
  deriving DecidableEq

/-- No connection has a transaction open. -/
def GuardState.Unlocked (s : GuardState) : Prop := ∀ c, (s.links c).work = none

/-- A COMMIT that took effect. -/
def GuardState.commit (s : GuardState) (c : Nat) (job : Job) (answer acknowledged : Bool)
    (work : GuardFile) : GuardState :=
  { s with
    file := work
    links := Function.update s.links c
      (if acknowledged then ⟨none, .idle⟩ else job.failed none)
    log := s.log ++ job.entries acknowledged answer }

inductive GuardStep : GuardState → GuardLabel → GuardState → Prop where
  | connect {s : GuardState} {c : Nat} (h : s.links c = ⟨none, .closed⟩) :
    GuardStep s (.connect c) (s.setLink c ⟨none, .starting .opening⟩)
  /-- A call whose arguments the guard refuses raises here and does nothing. -/
  | call {s : GuardState} {c : Nat} {work : Option GuardFile} {q : GuardRequest}
      {evaluation : Option Evaluation} (h : s.links c = ⟨work, .idle⟩)
      (hq : checkRequest q = .ok ())
      (he : ∀ e, evaluation = some e → q = e.guardRequest ∧ e.Asks) :
    GuardStep s (.call c) (s.setLink c ⟨work, .starting (.check ⟨q, evaluation, s.allowed⟩)⟩)
  | begin {s : GuardState} {c : Nat} {job : Job} (h : s.links c = ⟨none, .starting job⟩)
      (hlock : s.Unlocked) :
    GuardStep s (.begin c) (s.setLink c ⟨some s.file, .begun job⟩)
  | beginFailed {s : GuardState} {c : Nat} {job : Job} {work : Option GuardFile} {opened : Bool}
      (h : s.links c = ⟨work, .starting job⟩) (hlock : opened = true → s.Unlocked) :
    GuardStep s (.beginFailed c opened)
      (s.setLink c (job.failed (if opened then some s.file else work)))
  | body {s : GuardState} {c : Nat} {job : Job} {f work : GuardFile} {answer : Bool}
      (h : s.links c = ⟨some f, .begun job⟩) (hrun : job.body f = (.ok answer, work)) :
    GuardStep s (.body c) (s.setLink c ⟨some work, .done job answer⟩)
  /-- The body raised, by itself or because a statement failed. -/
  | bodyFailed {s : GuardState} {c : Nat} {job : Job} {f : GuardFile} {left : Option GuardFile}
      (h : s.links c = ⟨some f, .begun job⟩) :
    GuardStep s (.bodyFailed c) (s.setLink c ⟨left, .unwinding job⟩)
  | commitAcknowledged {s : GuardState} {c : Nat} {job : Job} {answer : Bool} {work : GuardFile}
      (h : s.links c = ⟨some work, .done job answer⟩) :
    GuardStep s (.commit c .acknowledged) (s.commit c job answer true work)
  | commitUnacknowledged {s : GuardState} {c : Nat} {job : Job} {answer : Bool} {work : GuardFile}
      (h : s.links c = ⟨some work, .done job answer⟩) :
    GuardStep s (.commit c .unacknowledged) (s.commit c job answer false work)
  | commitRefused {s : GuardState} {c : Nat} {job : Job} {answer : Bool} {work : GuardFile}
      (h : s.links c = ⟨some work, .done job answer⟩) :
    GuardStep s (.commit c .refused) (s.setLink c ⟨some work, .unwinding job⟩)
  | commitAborted {s : GuardState} {c : Nat} {job : Job} {answer : Bool} {work : GuardFile}
      (h : s.links c = ⟨some work, .done job answer⟩) :
    GuardStep s (.commit c .aborted) (s.setLink c ⟨none, .unwinding job⟩)
  /-- Rolls back where a transaction is open, and raises; a ROLLBACK that
  failed may have left it open. -/
  | rollback {s : GuardState} {c : Nat} {job : Job} {work : Option GuardFile} {closed : Bool}
      (h : s.links c = ⟨work, .unwinding job⟩) :
    GuardStep s (.rollback c closed) (s.setLink c (job.failed (if closed then none else work)))
  /-- The connection is closed, or its process is gone. -/
  | crash {s : GuardState} {c : Nat} : GuardStep s (.crash c) (s.setLink c ⟨none, .closed⟩)
  /-- An evaluation whose call returned returns ALLOW. -/
  | decide {s : GuardState} {k : Nat} {entry : Entry} {e : Evaluation}
      (hentry : s.log[k]? = some entry) (hreturned : entry.acknowledged = true)
      (he : entry.check.evaluation = some e) (hallow : e.Allows (.ofBool entry.answer))
      (honce : k ∉ s.allowed) :
    GuardStep s (.decide k) { s with allowed := s.allowed ++ [k] }

/-- One file, which the guard may have to make, and any number of connections. -/
def guardSystem : System GuardState GuardLabel where
  start s := (∀ c, s.links c = ⟨none, .closed⟩) ∧ s.log = [] ∧ s.allowed = []
  step := GuardStep

/-! ## The invariant -/

/-- A call with arguments the guard takes, made after what it remembers. -/
structure Check.Made (c : Check) (calls : Nat) : Prop where
  taken : checkRequest c.request = .ok ()
  asked : ∀ e, c.evaluation = some e → c.request = e.guardRequest
  earlier : ∀ k ∈ c.allowedBefore, k < calls

def Job.Made (job : Job) (calls : Nat) : Prop := ∀ c, job = .check c → c.Made calls

/-- What a connection's transaction holds, by its phase. -/
def Link.Sound (link : Link) (file : GuardFile) (calls : Nat) : Prop :=
  match link.phase with
  | .closed | .idle | .unwinding _ => True
  | .starting job => job.Made calls
  | .begun job => job.Made calls ∧ link.work = some file
  | .done job answer => job.Made calls ∧
      ∀ work, link.work = some work → job.body file = (.ok answer, work)

/-- An ALLOW that returned: its place in the log, and whose it is. -/
structure AllowedAt (s : GuardState) (k : Nat) (entry : Entry) (e : Evaluation) : Prop where
  place : s.log[k]? = some entry
  evaluation : entry.check.evaluation = some e
  request : entry.check.request = e.guardRequest
  answer : entry.answer = true
  allows : e.Allows .accepted

structure GuardInv (marks : Marks TenantId Int String) (s : GuardState) : Prop where
  locked : ∀ c c', (s.links c).work ≠ none → (s.links c').work ≠ none → c = c'
  sound : ∀ c, (s.links c).Sound s.file s.log.length
  replayed : replay marks (s.log.map (fun entry => entry.check.request.toOffer)) =
    (s.log.map Entry.answer, s.file.marks)
  made : ∀ (k : Nat) (entry : Entry), s.log[k]? = some entry → entry.check.Made k
  allowed : ∀ k ∈ s.allowed, ∃ entry e, AllowedAt s k entry e

variable {marks : Marks TenantId Int String} {s s' : GuardState} {c : Nat}

theorem AllowedAt.lt {k : Nat} {entry : Entry} {e : Evaluation} (h : AllowedAt s k entry e) :
    k < s.log.length :=
  (List.getElem?_eq_some_iff.mp h.place).1

theorem Check.Made.mono {check : Check} {n m : Nat} (h : check.Made n) (hle : n ≤ m) :
    check.Made m :=
  ⟨h.taken, h.asked, fun k hk => lt_of_lt_of_le (h.earlier k hk) hle⟩

theorem failed_sound (job : Job) (work : Option GuardFile) (file : GuardFile) (n : Nat) :
    (job.failed work).Sound file n := by
  cases job <;> trivial

theorem failed_work {job : Job} {work : Option GuardFile} (h : (job.failed work).work ≠ none) :
    work ≠ none := by
  cases job with
  | opening => simp [Job.failed] at h
  | check c => exact h

/-- A step of one connection that opens a transaction only where none is. -/
theorem setLink_inv (hi : GuardInv marks s) {link : Link}
    (hsound : link.Sound s.file s.log.length)
    (hwork : link.work ≠ none → (s.links c).work ≠ none ∨ s.Unlocked) :
    GuardInv marks (s.setLink c link) where
  locked := by
    -- a connection with a transaction is `c`, or had one before the step
    have hheld : ∀ a b, a ≠ c → (s.links a).work ≠ none →
        ((s.setLink c link).links b).work ≠ none → a = b := by
      intro a b hac ha hb
      by_cases hbc : b = c
      · subst hbc
        simp only [GuardState.setLink, Function.update_self] at hb
        rcases hwork hb with hb | hfree
        · exact hi.locked a b ha hb
        · exact absurd (hfree a) ha
      · simp only [GuardState.setLink, Function.update_of_ne hbc] at hb
        exact hi.locked a b ha hb
    intro a b ha hb
    by_cases hac : a = c
    · by_cases hbc : b = c
      · rw [hac, hbc]
      · simp only [GuardState.setLink, Function.update_of_ne hbc] at hb
        exact (hheld b a hbc hb ha).symm
    · simp only [GuardState.setLink, Function.update_of_ne hac] at ha
      exact hheld a b hac ha hb
  sound := by
    intro a
    by_cases hac : a = c
    · subst hac
      simpa [GuardState.setLink] using hsound
    · simpa [GuardState.setLink, Function.update_of_ne hac] using hi.sound a
  replayed := hi.replayed
  made := hi.made
  allowed := fun k hk => by
    obtain ⟨entry, e, h⟩ := hi.allowed k hk
    exact ⟨entry, e, h.place, h.evaluation, h.request, h.answer, h.allows⟩

/-- A connection other than the one with the transaction has none. -/
theorem GuardInv.others_idle (hi : GuardInv marks s) {work : GuardFile} {phase : Phase} {a : Nat}
    (h : s.links c = ⟨some work, phase⟩) (ha : a ≠ c) : (s.links a).work = none := by
  by_contra hne
  exact ha (hi.locked a c hne (by simp [h]))

/-- A connection without a transaction does not look at the file. -/
theorem Link.Sound.idle {link : Link} {file file' : GuardFile} {n m : Nat} (h : link.Sound file n)
    (hwork : link.work = none) (hle : n ≤ m) : link.Sound file' m := by
  obtain ⟨work, phase⟩ := link
  cases phase with
  | closed => trivial
  | idle => trivial
  | unwinding job => trivial
  | starting job => exact fun c hc => (h c hc).mono hle
  | begun job => simp_all [Link.Sound]
  | done job answer => exact ⟨fun c hc => (h.1 c hc).mono hle, by simp_all⟩

/-- What a job that answered did. -/
theorem Job.body_ok {job : Job} {f f' : GuardFile} {answer : Bool}
    (h : job.body f = (.ok answer, f')) :
    (job = .opening ∧ answer = true ∧ f'.rows = f.rows) ∨
      ∃ check, job = .check check ∧ Answered check.request answer f f' := by
  cases job with
  | opening =>
    simp only [Job.body, bind_ok, pure_ok] at h
    obtain ⟨_, f₁, hopen, rfl, rfl⟩ := h
    exact .inl ⟨rfl, rfl, (initializeBody_ok hopen).2⟩
  | check check => exact .inr ⟨check, rfl, checkBody_ok h⟩

/-- A COMMIT that took effect. -/
theorem commit_inv (hi : GuardInv marks s) {job : Job} {answer acknowledged : Bool} {work : GuardFile}
    (h : s.links c = ⟨some work, .done job answer⟩) :
    GuardInv marks (s.commit c job answer acknowledged work) := by
  have hsound := hi.sound c
  rw [h] at hsound
  obtain ⟨hmade, hrun⟩ := hsound
  have hbody := Job.body_ok (hrun work rfl)
  have hlen : s.log.length ≤ (s.log ++ job.entries acknowledged answer).length := by simp
  constructor
  · intro a b ha hb
    by_cases hac : a = c
    · subst hac
      simp only [GuardState.commit, Function.update_self] at ha
      cases acknowledged <;> cases job <;> simp [Job.failed] at ha
    · simp only [GuardState.commit, Function.update_of_ne hac] at ha
      exact absurd (hi.others_idle h hac) ha
  · intro a
    by_cases hac : a = c
    · subst hac
      simp only [GuardState.commit, Function.update_self]
      cases acknowledged
      · exact failed_sound _ _ _ _
      · trivial
    · simp only [GuardState.commit, Function.update_of_ne hac]
      exact (hi.sound a).idle (hi.others_idle h hac) hlen
  · show replay marks ((s.log ++ job.entries acknowledged answer).map _) =
      ((s.log ++ job.entries acknowledged answer).map Entry.answer, work.marks)
    rcases hbody with ⟨rfl, -, hrows⟩ | ⟨check, rfl, hanswered⟩
    · simp only [Job.entries, List.append_nil]
      rw [hi.replayed, marks_eq_of_rows hrows]
    · rw [List.map_append, List.map_append, replay_append, hi.replayed]
      simp [Job.entries, replay, hanswered.marks]
  · intro k entry hk
    have hk : (s.log ++ job.entries acknowledged answer)[k]? = some entry := hk
    by_cases hold : k < s.log.length
    · rw [List.getElem?_append_left hold] at hk
      exact hi.made k entry hk
    · rw [List.getElem?_append_right (by omega)] at hk
      cases job with
      | opening => simp [Job.entries] at hk
      | check check =>
        simp only [Job.entries] at hk
        have hmem := List.mem_of_getElem? hk
        rw [List.mem_singleton] at hmem
        rw [hmem]
        exact (hmade check rfl).mono (by omega)
  · intro k hk
    obtain ⟨entry, e, hat⟩ := hi.allowed k hk
    refine ⟨entry, e, ?_, hat.evaluation, hat.request, hat.answer, hat.allows⟩
    show (s.log ++ _)[k]? = some entry
    rw [List.getElem?_append_left hat.lt]
    exact hat.place

/-- **What one step keeps.** -/
theorem step_inv {label : GuardLabel} (hi : GuardInv marks s) (h : GuardStep s label s') :
    GuardInv marks s' := by
  cases h with
  | connect h => exact setLink_inv hi (fun c hc => nomatch hc) (fun hne => absurd rfl hne)
  | call h hq he =>
    refine setLink_inv hi ?_ (fun hne => .inl (by rw [h]; exact hne))
    intro check hcheck
    obtain rfl := Job.check.inj hcheck
    refine ⟨hq, fun e hevaluation => (he e hevaluation).1, fun k hk => ?_⟩
    obtain ⟨entry, e, hat⟩ := hi.allowed k hk
    exact hat.lt
  | @begin c job h hlock =>
    have hsound := hi.sound c
    rw [h] at hsound
    exact setLink_inv hi ⟨hsound, rfl⟩ (fun _ => .inr hlock)
  | @beginFailed c job work opened h hlock =>
    refine setLink_inv hi (failed_sound _ _ _ _) (fun hne => ?_)
    have hwork := failed_work hne
    cases opened with
    | true => exact .inr (hlock rfl)
    | false => exact .inl (by rw [h]; exact hwork)
  | @body c job f work answer h hrun =>
    have hsound := hi.sound c
    rw [h] at hsound
    obtain ⟨hmade, hf⟩ := hsound
    obtain rfl : f = s.file := Option.some.inj hf
    refine setLink_inv hi ⟨hmade, fun w hw => ?_⟩ (fun _ => .inl (by simp [h]))
    obtain rfl : work = w := Option.some.inj hw
    exact hrun
  | @bodyFailed c job f left h =>
    exact setLink_inv hi trivial (fun _ => .inl (by simp [h]))
  | commitAcknowledged h => exact commit_inv hi h
  | commitUnacknowledged h => exact commit_inv hi h
  | @commitRefused c job answer work h =>
    exact setLink_inv hi trivial (fun _ => .inl (by simp [h]))
  | commitAborted h => exact setLink_inv hi trivial (fun hne => absurd rfl hne)
  | @rollback c job work closed h =>
    refine setLink_inv hi (failed_sound _ _ _ _) (fun hne => ?_)
    have hwork := failed_work hne
    cases closed with
    | true => exact absurd rfl hwork
    | false => exact .inl (by rw [h]; exact hwork)
  | crash => exact setLink_inv hi trivial (fun hne => absurd rfl hne)
  | @decide k entry e hentry hreturned he hallow honce =>
    refine ⟨hi.locked, hi.sound, hi.replayed, hi.made, fun k' hk' => ?_⟩
    rcases List.mem_append.mp hk' with hold | hnew
    · obtain ⟨entry', e', hat⟩ := hi.allowed k' hold
      exact ⟨entry', e', hat.place, hat.evaluation, hat.request, hat.answer, hat.allows⟩
    · obtain rfl := List.mem_singleton.mp hnew
      have hanswer := Evaluation.accepted_of_allows hallow
      have htrue : entry.answer = true := by
        cases hb : entry.answer with
        | true => rfl
        | false => simp [hb, Answer.ofBool] at hanswer
      exact ⟨entry, e, hentry, he, (hi.made _ entry hentry).asked e he, htrue, hanswer ▸ hallow⟩

/-- Before any call the log is empty and the marks are the file's. -/
theorem start_inv {s : GuardState} (h : guardSystem.start s) : GuardInv s.file.marks s := by
  obtain ⟨hlinks, hlog, hallowed⟩ := h
  refine ⟨?_, ?_, ?_, ?_, ?_⟩
  · intro c c' hc
    simp [hlinks c] at hc
  · intro c
    rw [hlinks c]
    trivial
  · simp [hlog, replay]
  · simp [hlog]
  · simp [hallowed]

/-- **What a run keeps.** -/
theorem run_inv {s₀ s : GuardState} {labels : List GuardLabel} (hstart : guardSystem.start s₀)
    (hrun : Run guardSystem s₀ labels s) : GuardInv s₀.file.marks s :=
  hrun.invariant (I := GuardInv s₀.file.marks) (fun _ _ _ hi h => step_inv hi h) (start_inv hstart)

/-! ## What moves the file -/

/-- A COMMIT that took effect, of an opening or of a call that was accepted. -/
def MovedBy (s : GuardState) (label : GuardLabel) (s' : GuardState) : Prop :=
  ∃ c ending job answer, label = .commit c ending ∧
    (ending = .acknowledged ∨ ending = .unacknowledged) ∧
    s.links c = ⟨some s'.file, .done job answer⟩ ∧
    ((job = .opening ∧ s'.file.rows = s.file.rows) ∨
      ∃ check, job = .check check ∧ answer = true ∧
        ∀ t, t ≠ check.request.tenantId → s'.file.row? t = s.file.row? t)

theorem movedBy_commit {job : Job} {answer acknowledged : Bool} {work : GuardFile}
    {ending : CommitEnd} (hi : GuardInv marks s) (h : s.links c = ⟨some work, .done job answer⟩)
    (hending : ending = .acknowledged ∨ ending = .unacknowledged) (hmoved : work ≠ s.file) :
    MovedBy s (.commit c ending) (s.commit c job answer acknowledged work) := by
  refine ⟨c, ending, job, answer, rfl, hending, h, ?_⟩
  have hsound := hi.sound c
  rw [h] at hsound
  rcases Job.body_ok (hsound.2 work rfl) with ⟨hopening, -, hrows⟩ | ⟨check, hcheck, hanswered⟩
  · exact .inl ⟨hopening, hrows⟩
  · refine .inr ⟨check, hcheck, ?_, hanswered.others⟩
    cases answer with
    | true => rfl
    | false => exact absurd (hanswered.refused rfl) hmoved

theorem step_file {label : GuardLabel} (hi : GuardInv marks s) (h : GuardStep s label s')
    (hmoved : s'.file ≠ s.file) : MovedBy s label s' := by
  cases h with
  | commitAcknowledged h => exact movedBy_commit hi h (.inl rfl) hmoved
  | commitUnacknowledged h => exact movedBy_commit hi h (.inr rfl) hmoved
  | _ => exact absurd rfl hmoved

/-! ## What the log says -/

/-- Two logged calls' offers follow one another as the calls do. -/
def Entry.Follows (a b : Entry) : Prop :=
  a.check.request.revision ≤ b.check.request.revision ∧
    (a.check.request.revision = b.check.request.revision →
      a.check.request.stateDigest = b.check.request.stateDigest)

theorem log_accepted (hi : GuardInv marks s) :
    (s.log.filter Entry.answer).Pairwise
      (fun a b => a.check.request.tenantId = b.check.request.tenantId → a.Follows b) := by
  have hpairs := accepted_pairwise marks (s.log.map (fun entry => entry.check.request.toOffer))
  rw [accepted_eq, hi.replayed, List.zip_map', List.filter_map, List.map_map,
    List.pairwise_map] at hpairs
  exact hpairs

theorem log_answers (hi : GuardInv marks s) :
    answers Memory.checkAndAdvance marks (s.log.map (fun entry => entry.check.request)) =
      s.log.map (fun entry => .ok entry.answer) := by
  have htaken : ∀ q ∈ s.log.map (fun entry => entry.check.request), checkRequest q = .ok () := by
    intro q hq
    obtain ⟨entry, hentry, rfl⟩ := List.mem_map.mp hq
    obtain ⟨k, hk⟩ := List.mem_iff_getElem?.mp hentry
    exact (hi.made k entry hk).taken
  rw [answers_memory htaken, List.map_map]
  rw [show (s.log.map (GuardRequest.toOffer ∘ fun entry => entry.check.request)) =
    s.log.map (fun entry => entry.check.request.toOffer) from rfl, hi.replayed, List.map_map]
  rfl

/-- A tenant's calls are answered as if there were no others. -/
theorem log_tenant (hi : GuardInv marks s) (t : TenantId) :
    answers Memory.checkAndAdvance marks
        ((s.log.filter (fun entry => entry.check.request.tenantId = t)).map
          (fun entry => entry.check.request)) =
      (s.log.filter (fun entry => entry.check.request.tenantId = t)).map
        (fun entry => .ok entry.answer) := by
  have htaken : ∀ q ∈ (s.log.filter (fun entry => entry.check.request.tenantId = t)).map
      (fun entry => entry.check.request), checkRequest q = .ok () := by
    intro q hq
    obtain ⟨entry, hentry, rfl⟩ := List.mem_map.mp hq
    obtain ⟨k, hk⟩ := List.mem_iff_getElem?.mp (List.mem_filter.mp hentry).1
    exact (hi.made k entry hk).taken
  have hkey := replay_key t marks (s.log.map (fun entry => entry.check.request.toOffer))
  rw [hi.replayed, List.zip_map', List.filter_map, List.filter_map, List.map_map] at hkey
  rw [answers_memory htaken, List.map_map]
  have hanswers := congrArg (List.map (fun answer : Bool => (.ok answer : Except TenancyError Bool))) hkey
  rw [List.map_map] at hanswers
  exact hanswers

/-- Of two accepted calls for one tenant the later follows the earlier. -/
theorem log_follows (hi : GuardInv marks s) {i k : Nat} {a b : Entry} (hlt : i < k)
    (ha : s.log[i]? = some a) (hb : s.log[k]? = some b) (hanswer : a.answer = true)
    (hanswer' : b.answer = true)
    (htenant : a.check.request.tenantId = b.check.request.tenantId) : a.Follows b := by
  obtain ⟨hi', rfl⟩ := List.getElem?_eq_some_iff.mp ha
  obtain ⟨hk', rfl⟩ := List.getElem?_eq_some_iff.mp hb
  have hpairs := List.pairwise_filter.mp (log_accepted hi)
  exact List.pairwise_iff_getElem.mp hpairs i k hi' hk' hlt hanswer hanswer' htenant

/-! ## What returned ALLOW -/

/-- Two evaluations that returned ALLOW for one tenant, the second of them with
its call logged after the first's. -/
theorem allowed_follows (hi : GuardInv marks s) {i k : Nat} {a b : Entry} {e e' : Evaluation}
    (hlt : i < k) (ha : AllowedAt s i a e) (hb : AllowedAt s k b e')
    (htenant : e.request.tenantId = e'.request.tenantId) :
    e.revocations.revision ≤ e'.revocations.revision ∧
      (e.revocations.revision = e'.revocations.revision →
        e.revocations.stateDigest = e'.revocations.stateDigest) := by
  have hrequests : a.check.request.tenantId = b.check.request.tenantId := by
    rw [ha.request, hb.request]
    exact htenant
  obtain ⟨hle, hsame⟩ := log_follows hi hlt ha.place hb.place ha.answer hb.answer hrequests
  rw [ha.request, hb.request] at hle hsame
  exact ⟨Int.ofNat_le.mp hle, fun heq => hsame (congrArg Int.ofNat heq)⟩

/-- **One revision, one state**, among everything that was allowed for a
tenant. -/
theorem allowed_agree (hi : GuardInv marks s) {i k : Nat} {a b : Entry} {e e' : Evaluation}
    (ha : AllowedAt s i a e) (hb : AllowedAt s k b e')
    (htenant : e.request.tenantId = e'.request.tenantId)
    (hrevision : e.revocations.revision = e'.revocations.revision) :
    e.revocations.stateDigest = e'.revocations.stateDigest := by
  rcases Nat.lt_trichotomy i k with hlt | rfl | hlt
  · exact (allowed_follows hi hlt ha hb htenant).2 hrevision
  · have hentry : a = b := Option.some.inj (ha.place.symm.trans hb.place)
    have he : e = e' := Option.some.inj (ha.evaluation.symm.trans (hentry ▸ hb.evaluation))
    rw [he]
  · exact ((allowed_follows hi hlt hb ha htenant.symm).2 hrevision.symm).symm

/-! ## A call nothing comes in between -/

/-- A connection at rest, where no transaction is open. -/
structure AtRest (s : GuardState) (c : Nat) : Prop where
  idle : s.links c = ⟨none, .idle⟩
  unlocked : s.Unlocked

theorem setLink_setLink (s : GuardState) (c : Nat) (link link' : Link) :
    (s.setLink c link).setLink c link' = s.setLink c link' := by
  simp [GuardState.setLink, Function.update_idem]

/-- **An uninterrupted job that answers** leaves the file as its body does. -/
theorem job_run {job : Job} {answer : Bool} {f : GuardFile}
    (hlink : s.links c = ⟨none, .starting job⟩) (hunlocked : s.Unlocked)
    (hrun : job.body s.file = (.ok answer, f)) :
    ∃ s', Run guardSystem s [.begin c, .body c, .commit c .acknowledged] s' ∧ s'.file = f ∧
      s'.log = s.log ++ job.entries true answer ∧ s'.allowed = s.allowed ∧ AtRest s' c := by
  have hbegin : GuardStep s (.begin c) (s.setLink c ⟨some s.file, .begun job⟩) :=
    .begin hlink hunlocked
  have hbody : GuardStep (s.setLink c ⟨some s.file, .begun job⟩) (.body c)
      (s.setLink c ⟨some f, .done job answer⟩) := by
    have h := @GuardStep.body (s.setLink c ⟨some s.file, .begun job⟩) c job s.file f answer
      (by simp [GuardState.setLink]) hrun
    rwa [setLink_setLink] at h
  have hcommit : GuardStep (s.setLink c ⟨some f, .done job answer⟩) (.commit c .acknowledged)
      ((s.setLink c ⟨some f, .done job answer⟩).commit c job answer true f) :=
    .commitAcknowledged (by simp [GuardState.setLink])
  refine ⟨_, .next (S := guardSystem) hbegin (.next (S := guardSystem) hbody
    (.single (S := guardSystem) hcommit)), rfl, rfl, rfl, ?_, ?_⟩
  · simp [GuardState.commit]
  · intro a
    by_cases ha : a = c
    · simp [GuardState.commit, ha]
    · simp [GuardState.commit, GuardState.setLink, Function.update_of_ne ha, hunlocked a]

/-- **An uninterrupted call** is `check_and_advance`. -/
theorem call_run {q : GuardRequest} {evaluation : Option Evaluation} {answer : Bool} {f : GuardFile}
    (hrest : AtRest s c) (he : ∀ e, evaluation = some e → q = e.guardRequest ∧ e.Asks)
    (hrun : checkAndAdvance q s.file = (.ok answer, f)) :
    ∃ s', Run guardSystem s [.call c, .begin c, .body c, .commit c .acknowledged] s' ∧ s'.file = f ∧
      s'.log = s.log ++ [⟨⟨q, evaluation, s.allowed⟩, answer, true⟩] ∧ s'.allowed = s.allowed ∧
      AtRest s' c := by
  simp only [checkAndAdvance, bind_ok, lift_ok, atomically_ok] at hrun
  obtain ⟨u, _, ⟨hq, rfl⟩, hrun⟩ := hrun
  have hcall := @GuardStep.call s c none q evaluation hrest.idle hq he
  have hunlocked : (s.setLink c ⟨none, .starting (.check ⟨q, evaluation, s.allowed⟩)⟩).Unlocked := by
    intro a
    by_cases ha : a = c
    · simp [GuardState.setLink, ha]
    · simp [GuardState.setLink, Function.update_of_ne ha, hrest.unlocked a]
  obtain ⟨s', hsteps, hfile, hlog, hallowed, hrest'⟩ :=
    @job_run (s.setLink c _) c (.check ⟨q, evaluation, s.allowed⟩) _ _
      (by simp [GuardState.setLink]) hunlocked hrun
  exact ⟨s', .next (S := guardSystem) hcall hsteps, hfile, hlog, hallowed, hrest'⟩

/-! ## The guarantee -/

namespace Late

open Sample

/-- A snapshot of this revision, with nothing revoked. -/
def snapshotAt (revision : Nat) : RevocationSnapshot :=
  ⟨acme, revision, now, [], noIds_distinct, noIds_bounded, noIds_within⟩

/-- An evaluation for a member whose role grants the request. -/
def evaluation (revision : Nat) : Evaluation where
  authorizer := authorizer
  request := request
  revocations := snapshotAt revision
  now := now
  member := some (bob [viewer] (by decide) (by decide))
  presented := []

theorem evaluation_asks (revision : Nat) : (evaluation revision).Asks :=
  ⟨_, rfl, rfl⟩

theorem evaluation_allows (revision : Nat) : (evaluation revision).Allows .accepted := by
  -- what is checked of the snapshot does not depend on its revision
  have hfew : ([] : List (Option CapabilityEnvelope)).length ≤ maxCapabilitiesPerDecision := by decide
  have hgrants : authorizer.bindingGrants request viewer = true := by decide
  have hreading : InRange (now.micros + authorizer.maxClockSkew) := by decide
  have hfuture : now.micros ≤ now.micros + authorizer.maxClockSkew := by decide
  have hstale : now.micros - now.micros ≤ authorizer.maxRevocationAge := by decide
  refine TenantAuthorizer.allowed_iff.mpr ⟨hfew, _, rfl, ?_, .inl ⟨viewer, by simp [bob], hgrants⟩⟩
  exact ⟨rfl, rfl, rfl, rfl, rfl, hreading, hfuture, hstale, rfl⟩

theorem evaluation_taken (revision : Nat) : checkRequest (evaluation revision).guardRequest = .ok () :=
  checkRequest_ok.mpr ⟨Int.natCast_nonneg _, hexDigest_canonical _⟩

/-- No file, and no connection. -/
def fresh : GuardState :=
  ⟨⟨.absent, [], GuardFile.noRows_unique, fun _ => rfl⟩, fun _ => ⟨none, .closed⟩, [], []⟩

theorem fresh_starts : guardSystem.start fresh := ⟨fun _ => rfl, rfl, rfl⟩

/-- One connection is open. -/
theorem opened : ∃ s, Run guardSystem fresh [.connect 0, .begin 0, .body 0, .commit 0 .acknowledged] s ∧
    s.file.marks = fresh.file.marks ∧ s.file.Valid ∧ s.log = [] ∧ s.allowed = [] ∧ AtRest s 0 := by
  obtain ⟨f, hopen⟩ := initializeBody_run (f := fresh.file) (.inl rfl)
  obtain ⟨hvalid, hrows⟩ := initializeBody_ok hopen
  have hconnect : GuardStep fresh (.connect 0) (fresh.setLink 0 ⟨none, .starting .opening⟩) :=
    .connect rfl
  have hunlocked : (fresh.setLink 0 ⟨none, .starting .opening⟩).Unlocked := by
    intro a
    by_cases ha : a = 0 <;> simp [GuardState.setLink, fresh, Function.update_apply, ha]
  obtain ⟨s, hrun, hfile, hlog, hallowed, hrest⟩ := @job_run (fresh.setLink 0 _) 0 .opening true f
    (by simp [GuardState.setLink]) hunlocked (by
      simp only [Job.body, bind_ok]
      exact ⟨(), f, hopen, pure_ok.mpr ⟨rfl, rfl⟩⟩)
  refine ⟨s, .next (S := guardSystem) hconnect hrun, ?_, hfile ▸ hvalid, hlog, hallowed, hrest⟩
  rw [hfile]
  exact marks_eq_of_rows hrows

/-- An evaluation's call on the guard's own file, which nothing comes in
between. -/
theorem asked {s : GuardState} {revision : Nat} (hrest : AtRest s 0) (hvalid : s.file.Valid)
    (hrange : (revision : Int) ≤ maxSqliteInteger)
    (hpasses : (offer s.file.marks (evaluation revision).guardRequest.toOffer).1 = true) :
    ∃ s', Run guardSystem s [.call 0, .begin 0, .body 0, .commit 0 .acknowledged] s' ∧
      s'.file.marks = (offer s.file.marks (evaluation revision).guardRequest.toOffer).2 ∧
      s'.file.Valid ∧
      s'.log = s.log ++
        [⟨⟨(evaluation revision).guardRequest, some (evaluation revision), s.allowed⟩, true, true⟩] ∧
      s'.allowed = s.allowed ∧ AtRest s' 0 := by
  obtain ⟨f, hcall, hmarks, hvalid'⟩ := checkAndAdvance_run hvalid (evaluation_taken revision) hrange
  rw [hpasses] at hcall
  obtain ⟨s', hrun, hfile, hlog, hallowed, hrest'⟩ :=
    @call_run s 0 _ (some (evaluation revision)) true f hrest (fun e he => by
      obtain rfl := Option.some.inj he
      exact ⟨rfl, evaluation_asks revision⟩) hcall
  exact ⟨s', hrun, hfile ▸ hmarks, hfile ▸ hvalid', hlog, hallowed, hrest'⟩

end Late

end QuantumEntanglement.Tenancy
