import QuantumEntanglement.Publisher.Fleet
import QuantumEntanglement.Store.OutboxFrames

/-
  The fleet's invariant — leases, tokens and attempts

  An attempt of a fleet holds the lease it was claimed with, or one that was
  taken over. Tokens are never drawn twice, so the attempts on one message have
  different attempt counts, and only the attempt with the latest count can
  still hold the lease.

  What is proved:
    1. `exec_kind` — every step is of one of four kinds.
    2. `FleetInv.exec` — the invariant is kept by every step.
-/

namespace QuantumEntanglement.Publisher

open Transaction TransitionSystem Outbox Sha256 IsoTime

variable [SqliteTime] {cfg : StoreConfig} {configs : Nat → PublisherConfig}

/-! ## Attempts of a fleet -/

/-- The `i`-th attempt of the `p`-th publisher's cycle. -/
def Fleet.Has {py : PyVersion} (s : Fleet py) (p i : Nat) (a : Attempt py) : Prop :=
  ∃ c, (s.publishers p).cycle = some c ∧ c.attempts[i]? = some a

/-- The phases before the connector call. -/
def Phase.isWaiting : Phase → Bool
  | .created => true
  | .checked => true
  | _ => false

/-- An attempt that has not called its connector. -/
def Attempt.isWaiting {py : PyVersion} (a : Attempt py) : Bool := a.phase.isWaiting

def Attempt.messageId {py : PyVersion} (a : Attempt py) : String := a.stored.message.messageId

def Attempt.count {py : PyVersion} (a : Attempt py) : Nat := a.stored.attemptCount

/-! ## Kinds of steps -/

/-- The calls an attempt makes. -/
def Attempt.Makes (pub : PublisherConfig) (a : Attempt cfg.py) (call : OutboxCall cfg.py) : Prop :=
  (∃ publishedAt clock, call = a.ackCall publishedAt clock) ∨
    (∃ reason clock now, call = a.markCall reason clock now) ∨
    ∃ clock retryAt rendered, call = a.rejectCall pub clock retryAt rendered

/-- An event of an attempt makes one call and ends its wait, or leaves the
database alone. -/
theorem AttemptStep.store {pub : PublisherConfig} {a : Attempt cfg.py} {counters : Counters}
    {db : Db} {event : AttemptEvent} {out : Stepped cfg.py}
    (h : AttemptStep pub a counters db event out) :
    out.db = db ∨ (out.phase.isWaiting = false ∧
      ∃ call reply, a.Makes pub call ∧ call.exec db = (reply, out.db)) := by
  have hcall : ∀ {call : OutboxCall cfg.py} (fault : Fault) {db' : Db} {phase : Phase},
      a.Makes pub call → (faulty fault call db).2 = db' → phase.isWaiting = false →
      db' = db ∨ (phase.isWaiting = false ∧
        ∃ call reply, a.Makes pub call ∧ call.exec db = (reply, db')) := by
    intro call fault db' phase hmakes hdb hphase
    rcases faulty_state fault call db with ⟨-, hsame⟩ | ⟨-, hsame⟩
    · exact .inr ⟨hphase, call, _, hmakes, Prod.ext rfl (by rw [← hdb, hsame])⟩
    · exact .inl (by rw [← hdb, hsame])
  cases h with
  | ackCancelled hp fault clock => exact hcall fault (.inl ⟨_, _, rfl⟩) rfl rfl
  | @ack publishedAt hp fault clock reply db' hrun =>
    refine hcall fault (.inl ⟨_, _, rfl⟩) (congrArg Prod.snd hrun) ?_
    unfold afterAck
    split <;> rfl
  | markCancelled hp fault clock now => exact hcall fault (.inr (.inl ⟨_, _, _, rfl⟩)) rfl rfl
  | mark hp fault clock now hrun =>
    exact hcall fault (.inr (.inl ⟨_, _, _, rfl⟩)) (congrArg Prod.snd hrun) rfl
  | markBeforeCancel hp fault clock now cancelled hrun =>
    exact hcall fault (.inr (.inl ⟨_, _, _, rfl⟩)) (congrArg Prod.snd hrun) rfl
  | rejectCancelled hp fault clock retryAt rendered =>
    exact hcall fault (.inr (.inr ⟨_, _, _, rfl⟩)) rfl rfl
  | reject hp fault clock retryAt rendered hrun =>
    exact hcall fault (.inr (.inr ⟨_, _, _, rfl⟩)) (congrArg Prod.snd hrun) rfl
  | _ => exact .inl rfl

/-- An attempt that waits after an event waited before it. -/
theorem AttemptStep.waited {pub : PublisherConfig} {a : Attempt cfg.py} {counters : Counters}
    {db : Db} {event : AttemptEvent} {out : Stepped cfg.py}
    (h : AttemptStep pub a counters db event out) (hw : out.phase.isWaiting = true) :
    a.isWaiting = true := by
  cases h with
  | run hp clock => simp [Attempt.isWaiting, hp, Phase.isWaiting]
  | settled hp answer clock =>
    unfold afterAnswer at hw
    split at hw
    next => simp [Phase.isWaiting] at hw
    next => split at hw <;> simp [Phase.isWaiting] at hw
  | ack hp fault clock hrun =>
    unfold afterAck at hw
    split at hw <;> simp [Phase.isWaiting] at hw
  | _ => simp [Phase.isWaiting] at hw

/-- An attempt claims nothing and resolves nothing. -/
theorem Attempt.Makes.deeds {pub : PublisherConfig} {a : Attempt cfg.py} {call : OutboxCall cfg.py}
    (h : a.Makes pub call) (m : String) (reply : OutboxReply cfg.py) :
    claimedBy m (call, reply) = [] ∧ resolvedBy m (call, reply) = [] := by
  rcases h with ⟨_, _, rfl⟩ | ⟨_, _, _, rfl⟩ | ⟨_, _, _, rfl⟩ <;>
    exact ⟨rfl, resolvedBy_other (by simp [ackCall, markCall, rejectCall])⟩

/-! ## Steps that move attempts -/

/-- What a claim leaves at the publisher that made it: nothing, or one created
attempt for each message the store leased. -/
theorem afterClaim_has {me : OutboxPublisher cfg.py} {reply : OutboxReply cfg.py} {c : Cycle cfg.py}
    (hidle : me.cycle = none) (h : (afterClaim me reply).cycle = some c) :
    ∃ ms, reply = .claimed ms ∧ c.attempts = ms.map (⟨·, .created⟩) := by
  unfold afterClaim at h
  split at h
  next => exact absurd h (by simp [hidle])
  next ms _ =>
    rw [← Option.some.inj h]
    exact ⟨ms, rfl, rfl⟩
  next => exact absurd h (by simp [hidle])

/-- The kinds of steps, by what they do to the outbox and to the attempts. -/
inductive Kind (configs : Nat → PublisherConfig) (action : Action cfg.py) (s s' : Fleet cfg.py) :
    Report cfg.py → Prop where
  /-- A client's call: it enqueues, or resolves. -/
  | client (call : OutboxCall cfg.py) (reply : OutboxReply cfg.py) {r : Report cfg.py}
      (hrun : call.exec s.db = (reply, s'.db)) (hclaims : ∀ m, claimedBy m (call, reply) = [])
      (hrejects : ∀ m token dead, deedsOf m (call, reply) ≠ [.rejected token dead])
      (hresolved : ∀ m res, resolvedBy m (call, reply) = [res.toResolution] ↔ r = .resolved m res)
      (hreport : r = .quiet ∨ ∃ m res, r = .resolved m res)
      (hmark : ∀ m token reason markedAt now, call ≠ .mark m token reason markedAt now)
      (hissued : s'.issued = s.issued) (hhas : ∀ p i a, s'.Has p i a → s.Has p i a) :
      Kind configs action s s' r
  /-- A publisher's step that neither calls the store nor moves an attempt. -/
  | idle {r : Report cfg.py} (hreport : r = .quiet ∨ r = .restarted) (hdb : s'.db = s.db)
      (hissued : s'.issued = s.issued) (hhas : ∀ p i a, s'.Has p i a → s.Has p i a) :
      Kind configs action s s' r
  /-- An event of one attempt. -/
  | attempt (p i : Nat) (a : Attempt cfg.py) {event : AttemptEvent} {counters : Counters}
      (out : Stepped cfg.py) (ha : s.Has p i a)
      (hstep : AttemptStep (configs p) a counters s.db event out) (hdb : s'.db = out.db)
      (hissued : s'.issued = s.issued) (hself : s'.Has p i { a with phase := out.phase })
      (hhas : ∀ q j b, s'.Has q j b → (q, j) ≠ (p, i) → s.Has q j b) :
      Kind configs action s s' out.report
  /-- A claim. -/
  | claim (p : Nat) (clock : String) (supply : Nat → String) (fault : Fault) (cancelled : Bool)
      (leased : List (StoredOutboxMessage cfg.py))
      (haction : action = .claim p clock supply fault cancelled)
      (hleased : leased =
        leasedOf fault (claimCall (configs p) (s.publishers p) clock supply) s.db)
      (hdb : s'.db = (faulty fault (claimCall (configs p) (s.publishers p) clock supply) s.db).2)
      (hfresh : Drawable s.issued leased) (hissued : s'.issued = s.issued ++ leased.map leaseDigest)
      (hidle : ∀ i a, ¬s.Has p i a)
      (hnew : ∀ i a, s'.Has p i a → leased[i]? = some a.stored ∧ a.phase = .created)
      (hhas : ∀ q j b, s'.Has q j b → q ≠ p → s.Has q j b) :
      Kind configs action s s' (.leased leased)

theorem Fleet.put_has {s : Fleet cfg.py} {p q i : Nat} {me : OutboxPublisher cfg.py}
    {a : Attempt cfg.py} :
    (s.put p me).Has q i a ↔
      if q = p then ∃ c, me.cycle = some c ∧ c.attempts[i]? = some a else s.Has q i a := by
  unfold Fleet.Has
  by_cases h : q = p
  · subst h
    rw [Fleet.put_self, if_pos rfl]
  · rw [Fleet.put_other _ _ h, if_neg h]

theorem leasedOf_seen {fault : Fault} {call : OutboxCall cfg.py} {db : Db}
    {ms : List (StoredOutboxMessage cfg.py)} (h : (faulty fault call db).1 = .claimed ms) :
    leasedOf fault call db = ms := by
  cases fault with
  | none =>
    have hrun : (call.exec db).1 = .claimed ms := h
    simp only [leasedOf, hrun]
  | before => exact absurd h (by simp [faulty])
  | after => exact absurd h (by simp [faulty])

/-- A client's call is a step of its kind. -/
theorem clientStep_kind {action : Action cfg.py} {s s' : Fleet cfg.py} {r : Report cfg.py} {call : OutboxCall cfg.py}
    {report : OutboxReply cfg.py → Report cfg.py} (h : clientStep s call report = some (s', r))
    (hclaims : ∀ m reply, claimedBy m (call, reply) = [])
    (hrejects : ∀ m reply token dead, deedsOf m (call, reply) ≠ [.rejected token dead])
    (hresolved : ∀ m reply res,
      resolvedBy m (call, reply) = [res.toResolution] ↔ report reply = .resolved m res)
    (hreport : ∀ reply, report reply = .quiet ∨ ∃ m res, report reply = .resolved m res)
    (hmark : ∀ m token reason markedAt now, call ≠ .mark m token reason markedAt now) :
    Kind configs action s s' r := by
  rw [clientStep, Option.some.injEq, Prod.mk.injEq] at h
  obtain ⟨rfl, rfl⟩ := h
  exact .client call _ rfl (fun m => hclaims m _) (fun m => hrejects m _) (fun m => hresolved m _)
    (hreport _) hmark rfl fun p i a ha => ha

theorem toResolution_inj {a b : AmbiguityResolution} (h : a.toResolution = b.toResolution) : a = b := by
  cases a <;> cases b <;> simp_all [AmbiguityResolution.toResolution]

/-- A resolution reports what it resolved. -/
theorem resolve_reported {messageId digest : String} {resolution : AmbiguityResolution}
    {resolvedAt retryAt : Option String} {now : UtcMoment} (m : String) (reply : OutboxReply cfg.py)
    (res : AmbiguityResolution) :
    resolvedBy m ((.resolve messageId digest resolution resolvedAt retryAt now : OutboxCall cfg.py),
        reply) = [res.toResolution] ↔
      resolveReport messageId resolution reply = .resolved m res := by
  cases reply with
  | held b =>
    cases b with
    | false => exact iff_of_false (by simp [resolvedBy, deedsOf]) (by simp [resolveReport])
    | true =>
      by_cases hm : messageId = m
      · subst hm
        simp only [resolvedBy, deedsOf, if_true, resolveReport, Report.resolved.injEq, true_and]
        constructor
        · intro h
          exact toResolution_inj (List.cons.inj h).1
        · rintro rfl
          rfl
      · simp only [resolvedBy, deedsOf, resolveReport, Report.resolved.injEq, hm, false_and, iff_false]
        simp
  | _ => exact iff_of_false (by simp [resolvedBy, deedsOf]) (by simp [resolveReport])

/-- **Every step is of one of the four kinds.** -/
theorem exec_kind {s s' : Fleet cfg.py} {action : Action cfg.py} {r : Report cfg.py}
    (h : action.exec configs s = some (s', r)) : Kind configs action s s' r := by
  cases action with
  | enqueue event messages expected =>
    unfold Action.exec at h
    refine clientStep_kind h (fun _ _ => rfl) (fun _ _ _ _ => by simp [deedsOf])
      (fun _ _ _ => by simp [resolvedBy, deedsOf]) (fun _ => .inl rfl) (by simp)
  | resolve messageId digest resolution resolvedAt retryAt now =>
    unfold Action.exec at h
    refine clientStep_kind h (fun _ _ => rfl) (fun m reply token dead => ?_)
      (fun m reply res => resolve_reported m reply res) (fun reply => ?_) (by simp)
    · unfold deedsOf
      split
      next heq => cases heq
      next heq => cases heq
      next heq => cases heq
      next => split <;> simp
      next => simp
    · unfold resolveReport
      split
      · exact .inr ⟨_, _, rfl⟩
      · exact .inl rfl
  | claim p clock supply fault cancelled =>
    obtain ⟨hidle, ⟨rfl, rfl⟩ | ⟨call, rfl, hfresh, rfl, rfl⟩⟩ := claimBatch_cases h
    · refine .idle (.inl rfl) rfl rfl fun q i a ha => ?_
      rw [Fleet.put_has] at ha
      split at ha
      next hq =>
        obtain ⟨c, hc, -⟩ := ha
        exact absurd hc (by simp [hidle])
      next => exact ha
    · have hnone : ∀ i a, ¬s.Has p i a := by
        rintro i a ⟨c, hc, -⟩
        simp [hidle] at hc
      refine .claim p clock supply fault cancelled _ rfl rfl rfl hfresh rfl hnone (fun i a ha => ?_)
        fun q j b hb hq => ?_
      · rw [Fleet.put_has, if_pos rfl] at ha
        obtain ⟨c, hc, hget⟩ := ha
        cases cancelled with
        | true => exact absurd hc (by simp [hidle])
        | false =>
          obtain ⟨ms, hms, hattempts⟩ := afterClaim_has hidle hc
          rw [hattempts, List.getElem?_map] at hget
          obtain ⟨x, hx, rfl⟩ := Option.map_eq_some_iff.mp hget
          rw [leasedOf_seen hms]
          exact ⟨hx, rfl⟩
      · rw [Fleet.put_has, if_neg hq] at hb
        exact hb
  | attempt p i event =>
    obtain ⟨c, a, out, hcycle, ha, hcase, rfl, rfl⟩ := stepAttempt_cases h
    have hi := (List.getElem?_eq_some_iff.mp ha).1
    refine .attempt p i a out ⟨c, hcycle, ha⟩ hcase rfl rfl ?_ fun q j b hb hne => ?_
    · rw [Fleet.put_has, if_pos rfl]
      exact ⟨_, rfl, List.getElem?_set_self hi⟩
    · rw [Fleet.put_has] at hb
      split at hb
      next hq =>
        obtain ⟨c', hc', hget⟩ := hb
        rw [← Option.some.inj hc'] at hget
        have hij : i ≠ j := fun e => hne (by rw [hq, e])
        rw [List.getElem?_set_ne hij] at hget
        subst hq
        exact ⟨c, hcycle, hget⟩
      next => exact hb
  | cancelCycle p =>
    unfold Action.exec at h
    cases hcycle : (s.publishers p).cycle with
    | none =>
      simp only [hcycle, Option.some.injEq, Prod.mk.injEq] at h
      obtain ⟨rfl, rfl⟩ := h
      refine .idle (.inl rfl) rfl rfl fun q i a ha => ?_
      rw [Fleet.put_has] at ha
      split at ha
      next =>
        obtain ⟨c, hc, -⟩ := ha
        exact absurd hc (by simp)
      next => exact ha
    | some c =>
      simp only [hcycle, Option.some.injEq, Prod.mk.injEq] at h
      obtain ⟨rfl, rfl⟩ := h
      refine .idle (.inl rfl) rfl rfl fun q i a ha => ?_
      rw [Fleet.put_has] at ha
      split at ha
      next hq =>
        obtain ⟨c', hc', hget⟩ := ha
        rw [← Option.some.inj hc'] at hget
        subst hq
        exact ⟨c, hcycle, hget⟩
      next => exact ha
  | finish p =>
    obtain ⟨c, hcycle, -, rfl, hcase⟩ := finishCycle_cases h
    have hgone : ∀ {me : OutboxPublisher cfg.py}, me.cycle = none → ∀ q i a,
        (s.put p me).Has q i a → s.Has q i a := by
      intro me hme q i a ha
      rw [Fleet.put_has] at ha
      split at ha
      next =>
        obtain ⟨c', hc', -⟩ := ha
        exact absurd hc' (by simp [hme])
      next => exact ha
    rcases hcase with ⟨-, rfl⟩ | rfl
    · exact .idle (.inl rfl) rfl rfl (hgone rfl)
    · exact .idle (.inl rfl) rfl rfl (hgone rfl)
  | callbackDone p =>
    unfold Action.exec at h
    simp only at h
    split at h
    next => exact absurd h (by simp)
    next =>
      simp only [Option.some.injEq, Prod.mk.injEq] at h
      obtain ⟨rfl, rfl⟩ := h
      refine .idle (.inl rfl) rfl rfl fun q i a ha => ?_
      rw [Fleet.put_has] at ha
      split at ha
      next hq =>
        subst hq
        exact ha
      next => exact ha
  | crash p =>
    unfold Action.exec at h
    simp only [Option.some.injEq, Prod.mk.injEq] at h
    obtain ⟨rfl, rfl⟩ := h
    refine .idle (.inr rfl) rfl rfl fun q i a ha => ?_
    rw [Fleet.put_has] at ha
    split at ha
    next =>
      obtain ⟨c, hc, -⟩ := ha
      exact absurd hc (by simp [OutboxPublisher.fresh])
    next => exact ha

/-! ## Tokens -/

/-- What the tokens drawn so far account for. -/
structure TokensInv (cfg : StoreConfig) (db : Db) (issued : List String) : Prop where
  outbox : OutboxInv cfg db
  leases : ∀ m r token, findOutbox db.outbox m = some r → r.status = .inFlight →
    r.leaseToken = some token → hexDigest token ∈ issued
  digests : ∀ x ∈ db.ambiguities, x.leaseTokenDigest ∈ issued
  /-- An ambiguity that was resolved is not on the lease its message holds now. -/
  closed : ∀ x ∈ db.ambiguities, x.resolvedAt ≠ none → ∀ r token,
    findOutbox db.outbox x.messageId = some r → r.status = .inFlight →
      r.leaseToken = some token → x.leaseTokenDigest ≠ hexDigest token

theorem tokensInv_empty (cfg : StoreConfig) : TokensInv cfg Db.empty [] :=
  ⟨outboxInv_empty cfg, by simp [Db.empty, findOutbox], by simp [Db.empty], by simp [Db.empty]⟩

theorem leaseDigest_of {py : PyVersion} {x : StoredOutboxMessage py} {token : String}
    (h : x.leaseToken = some token) : leaseDigest x = hexDigest token := by
  rw [leaseDigest, h, Option.getD_some]

/-- **A call keeps what the tokens account for**, if those it draws are new. -/
theorem TokensInv.exec {db db' : Db} {issued issued' : List String} {call : OutboxCall cfg.py}
    {reply : OutboxReply cfg.py} (hi : TokensInv cfg db issued) (h : call.exec db = (reply, db'))
    (hold : ∀ d ∈ issued, d ∈ issued')
    (hnew : ∀ m, ∀ x ∈ claimedBy m (call, reply), leaseDigest x ∉ issued ∧ leaseDigest x ∈ issued') :
    TokensInv cfg db' issued' := by
  refine ⟨(exec_life hi.outbox h).1, ?_, ?_, ?_⟩
  · intro m r' token hr' hs ht
    rcases exec_lease hi.outbox h hr' hs ht with ⟨-, r, hr, hrs, hrt, -⟩ | ⟨x, hx, hxt⟩
    · exact hold _ (hi.leases m r token hr hrs hrt)
    · rw [← leaseDigest_of hxt]
      exact (hnew m x hx).2
  · intro x' hx'
    rcases exec_ambiguities hi.outbox h hx' with ⟨x, hx, -, hdigest, -⟩ | ⟨-, r, token, hr, hs, ht, hd, -⟩
    · rw [← hdigest]
      exact hold _ (hi.digests x hx)
    · rw [hd]
      exact hold _ (hi.leases _ r token hr hs ht)
  · intro x' hx' hres r' token hr' hs ht
    rcases exec_ambiguities hi.outbox h hx' with ⟨x, hx, hid, hdigest, rfl | hout⟩ | ⟨hnone, -⟩
    · rcases exec_lease hi.outbox h hr' hs ht with ⟨-, r, hr, hrs, hrt, -⟩ | ⟨y, hy, hyt⟩
      · exact hi.closed x hx hres r token hr hrs hrt
      · intro heq
        refine (hnew _ y hy).1 ?_
        rw [leaseDigest_of hyt, ← heq]
        exact hi.digests x hx
    · exact absurd hs (hout r' hr')
    · exact absurd hnone hres

/-! ## The invariant -/

/-- What an attempt holds: a token that was drawn, on a message that counts at
least as many attempts; and the same number while the lease is its own. -/
structure Holder {py : PyVersion} (db : Db) (issued : List String) (a : Attempt py) : Prop where
  holds : ∃ token, a.stored.leaseToken = some token ∧ hexDigest token ∈ issued ∧
    ∃ r, findOutbox db.outbox a.messageId = some r ∧ a.count ≤ r.attemptCount ∧
      (r.status = .inFlight → r.leaseToken = some token → a.count = r.attemptCount)
  counted : 1 ≤ a.count

/-- **The invariant of a fleet.** -/
structure FleetInv (s : Fleet cfg.py) : Prop where
  tokens : TokensInv cfg s.db s.issued
  holders : ∀ p i a, s.Has p i a → Holder s.db s.issued a
  /-- Attempts on one message have different counts. -/
  distinct : ∀ p i a q j b, s.Has p i a → s.Has q j b → a.messageId = b.messageId →
    a.count = b.count → p = q ∧ i = j
  /-- An attempt that waits on a quarantined message was taken over. -/
  overtaken : ∀ p i a, s.Has p i a → a.isWaiting = true →
    hasOpenAmbiguity s.db.ambiguities a.messageId = true →
      ∀ r, findOutbox s.db.outbox a.messageId = some r → a.count < r.attemptCount

theorem fleetInv_start : FleetInv (Fleet.start : Fleet cfg.py) := by
  have hnone : ∀ p i a, ¬(Fleet.start : Fleet cfg.py).Has p i a := by
    rintro p i a ⟨c, hc, -⟩
    exact absurd hc (by simp [Fleet.start, OutboxPublisher.fresh])
  exact ⟨tokensInv_empty cfg, fun p i a ha => absurd ha (hnone p i a),
    fun p i a q j b ha => absurd ha (hnone p i a), fun p i a ha => absurd ha (hnone p i a)⟩

/-- A holder stays one over a call that draws new tokens. -/
theorem Holder.exec {db db' : Db} {issued issued' : List String} {call : OutboxCall cfg.py}
    {reply : OutboxReply cfg.py} {a : Attempt cfg.py} (ha : Holder db issued a)
    (hi : TokensInv cfg db issued) (h : call.exec db = (reply, db'))
    (hold : ∀ d ∈ issued, d ∈ issued')
    (hnew : ∀ m, ∀ x ∈ claimedBy m (call, reply), leaseDigest x ∉ issued) :
    Holder db' issued' a := by
  obtain ⟨token, htoken, hdrawn, r, hr, hle, hown⟩ := ha.holds
  obtain ⟨r', hr', hgrown⟩ := exec_row hi.outbox h hr
  refine ⟨⟨token, htoken, hold _ hdrawn, r', hr', by omega, fun hs ht => ?_⟩, ha.counted⟩
  rcases exec_lease hi.outbox h hr' hs ht with ⟨-, q, hq, hqs, hqt, hn⟩ | ⟨x, hx, hxt⟩
  · rw [hr, Option.some.injEq] at hq
    subst hq
    rw [hown hqs hqt, hn]
  · exact absurd hdrawn (by rw [← leaseDigest_of hxt]; exact hnew _ x hx)

/-- An attempt that waited on a quarantined message still was taken over. -/
theorem Overtaken.exec {db db' : Db} {issued : List String} {call : OutboxCall cfg.py}
    {reply : OutboxReply cfg.py} {a : Attempt cfg.py} (hi : TokensInv cfg db issued)
    (ha : Holder db issued a) (h : call.exec db = (reply, db'))
    (hbefore : hasOpenAmbiguity db.ambiguities a.messageId = true →
      ∀ r, findOutbox db.outbox a.messageId = some r → a.count < r.attemptCount)
    (hmark : ∀ token reason markedAt now, call = .mark a.messageId token reason markedAt now →
      ∀ r, findOutbox db.outbox a.messageId = some r → r.status = .inFlight →
        r.leaseToken = some token → a.count ≠ r.attemptCount)
    (hopen : hasOpenAmbiguity db'.ambiguities a.messageId = true) (r' : OutboxRow)
    (hr' : findOutbox db'.outbox a.messageId = some r') : a.count < r'.attemptCount := by
  obtain ⟨token, -, -, r, hr, hle, -⟩ := ha.holds
  obtain ⟨q, hq, hgrown⟩ := exec_row hi.outbox h hr
  rw [hr', Option.some.injEq] at hq
  subst hq
  rcases exec_quarantine hi.outbox h hopen with
    hold | ⟨r₁, t, hr₁, hs, ht, reason, markedAt, now, rfl⟩
  · have hlt := hbefore hold r hr
    omega
  · rw [hr, Option.some.injEq] at hr₁
    subst hr₁
    have hne := hmark t reason markedAt now rfl r hr hs ht
    omega

/-- The attempts of a fleet whose step made one call and moved no attempt. -/
theorem FleetInv.call {s s' : Fleet cfg.py} {call : OutboxCall cfg.py} {reply : OutboxReply cfg.py}
    (hi : FleetInv s) (h : call.exec s.db = (reply, s'.db))
    (hclaims : ∀ m, claimedBy m (call, reply) = []) (hissued : s'.issued = s.issued)
    (hhas : ∀ p i a', s'.Has p i a' → ∃ a, s.Has p i a ∧ a'.stored = a.stored ∧
      (a'.isWaiting = true → a.isWaiting = true ∧
        ∀ token reason markedAt now, call = .mark a.messageId token reason markedAt now →
          ∀ r, findOutbox s.db.outbox a.messageId = some r → r.status = .inFlight →
            r.leaseToken = some token → a.count ≠ r.attemptCount)) : FleetInv s' := by
  have hnew : ∀ m, ∀ x ∈ claimedBy m (call, reply), leaseDigest x ∉ s.issued := by
    intro m x hx
    rw [hclaims m] at hx
    exact absurd hx (by simp)
  constructor
  · refine hi.tokens.exec h (fun d hd => by rw [hissued]; exact hd) fun m x hx => ?_
    rw [hclaims m] at hx
    exact absurd hx (by simp)
  · intro p i a' ha'
    obtain ⟨a, ha, hstored, -⟩ := hhas p i a' ha'
    have hholder := (hi.holders p i a ha).exec hi.tokens h (fun d hd => hd) hnew
    rw [hissued]
    obtain ⟨⟨token, hrest⟩, hcounted⟩ := hholder
    simp only [Attempt.messageId, Attempt.count, ← hstored] at hrest hcounted
    exact ⟨⟨token, hrest⟩, hcounted⟩
  · intro p i a' q j b' ha' hb' hid hcount
    obtain ⟨a, ha, hsa, -⟩ := hhas p i a' ha'
    obtain ⟨b, hb, hsb, -⟩ := hhas q j b' hb'
    simp only [Attempt.messageId, Attempt.count, hsa, hsb] at hid hcount
    exact hi.distinct p i a q j b ha hb hid hcount
  · intro p i a' ha' hwaiting hopen r' hr'
    obtain ⟨a, ha, hstored, hwait⟩ := hhas p i a' ha'
    obtain ⟨haw, hmark⟩ := hwait hwaiting
    have hid : a'.messageId = a.messageId := by rw [Attempt.messageId, hstored, Attempt.messageId]
    rw [hid] at hopen hr'
    have hlt := Overtaken.exec hi.tokens (hi.holders p i a ha) h (hi.overtaken p i a ha haw) hmark
      hopen r' hr'
    rwa [Attempt.count, hstored]

/-- The attempts of a fleet whose step made no call. -/
theorem FleetInv.same {s s' : Fleet cfg.py} (hi : FleetInv s) (hdb : s'.db = s.db)
    (hissued : s'.issued = s.issued)
    (hhas : ∀ p i a', s'.Has p i a' → ∃ a, s.Has p i a ∧ a'.stored = a.stored ∧
      (a'.isWaiting = true → a.isWaiting = true)) : FleetInv s' := by
  constructor
  · rw [hdb, hissued]
    exact hi.tokens
  · intro p i a' ha'
    obtain ⟨a, ha, hstored, -⟩ := hhas p i a' ha'
    obtain ⟨⟨token, hrest⟩, hcounted⟩ := hi.holders p i a ha
    simp only [Attempt.messageId, Attempt.count, ← hstored] at hrest hcounted
    rw [hdb, hissued]
    exact ⟨⟨token, hrest⟩, hcounted⟩
  · intro p i a' q j b' ha' hb' hid hcount
    obtain ⟨a, ha, hsa, -⟩ := hhas p i a' ha'
    obtain ⟨b, hb, hsb, -⟩ := hhas q j b' hb'
    simp only [Attempt.messageId, Attempt.count, hsa, hsb] at hid hcount
    exact hi.distinct p i a q j b ha hb hid hcount
  · intro p i a' ha' hwaiting hopen r hr
    obtain ⟨a, ha, hstored, hwait⟩ := hhas p i a' ha'
    simp only [Attempt.messageId, Attempt.count, hstored, hdb] at hopen hr ⊢
    exact hi.overtaken p i a ha (hwait hwaiting) hopen r hr

/-- A mark by one attempt takes no lease of another. -/
theorem FleetInv.mark_other {s : Fleet cfg.py} {pub : PublisherConfig} {p i q j : Nat}
    {a b : Attempt cfg.py} (hi : FleetInv s) (ha : s.Has p i a) (hb : s.Has q j b)
    (hne : (q, j) ≠ (p, i)) {call : OutboxCall cfg.py} (hmakes : a.Makes pub call) {token : String}
    {reason : AmbiguityReason} {markedAt : Option String} {now : UtcMoment}
    (hcall : call = .mark b.messageId token reason markedAt now) {r : OutboxRow}
    (hr : findOutbox s.db.outbox b.messageId = some r) (hs : r.status = .inFlight)
    (ht : r.leaseToken = some token) : b.count ≠ r.attemptCount := by
  rcases hmakes with ⟨_, _, rfl⟩ | ⟨_, _, _, rfl⟩ | ⟨_, _, _, rfl⟩
  · exact absurd hcall (by simp [Attempt.ackCall])
  · simp only [Attempt.markCall, OutboxCall.mark.injEq] at hcall
    obtain ⟨hid, htoken, -⟩ := hcall
    obtain ⟨token', hheld, -, q', hq', -, hown⟩ := (hi.holders p i a ha).holds
    have hida : a.messageId = b.messageId := hid
    rw [hida, hr, Option.some.injEq] at hq'
    subst hq'
    have hsame : token' = token := by
      rw [← htoken, Attempt.token, hheld]
      rfl
    rw [hsame] at hown
    intro heq
    refine hne ?_
    obtain ⟨rfl, rfl⟩ := hi.distinct q j b p i a hb ha hida.symm (by rw [heq, hown hs ht])
    rfl
  · exact absurd hcall (by simp [Attempt.rejectCall])

/-- The messages a claim's reply shows, by message. -/
theorem leased_claimedBy {pub : PublisherConfig} {me : OutboxPublisher cfg.py} {clock : String}
    {supply : Nat → String} {fault : Fault} {db : Db} (hfault : fault ≠ .before) (m : String) :
    claimedBy m (claimCall pub me clock supply, ((claimCall pub me clock supply).exec db).1) =
      (leasedOf fault (claimCall pub me clock supply) db).filter
        (fun x => x.message.messageId = m) := by
  cases fault with
  | before => exact absurd rfl hfault
  | _ =>
    unfold leasedOf claimedBy
    cases ((claimCall pub me clock supply).exec db).1 <;> rfl

/-- What a claim that reached the store knows of a message it leased. -/
structure Leased (db db' : Db) (x : StoredOutboxMessage cfg.py) : Prop where
  shut : hasOpenAmbiguity db'.ambiguities x.message.messageId = false
  held : ∃ r' token, findOutbox db'.outbox x.message.messageId = some r' ∧
    r'.status = .inFlight ∧ r'.leaseToken = some token ∧ x.leaseToken = some token ∧
    x.attemptCount = r'.attemptCount
  counted : 1 ≤ x.attemptCount
  grown : ∀ r, findOutbox db.outbox x.message.messageId = some r →
    x.attemptCount = r.attemptCount + 1

theorem leased_exec {db db' : Db} {call : OutboxCall cfg.py} {reply : OutboxReply cfg.py}
    {x : StoredOutboxMessage cfg.py} (hi : OutboxInv cfg db) (h : call.exec db = (reply, db'))
    (hx : x ∈ claimedBy x.message.messageId (call, reply)) : Leased db db' x := by
  obtain ⟨-, hshut, r', token, hr', hs, ht, hxt, hcount⟩ := exec_claimed hi h hx
  refine ⟨hshut, ⟨r', token, hr', hs, ht, hxt, hcount⟩, ?_, fun r hr => ?_⟩
  · obtain ⟨token', expiry, hlease⟩ := ((exec_life hi h).1.rows r' (findOutbox_some hr').1).leased hs
    rw [hcount]
    exact hlease.claimed
  · obtain ⟨q, hq, hgrown⟩ := exec_row hi h hr
    rw [hr', Option.some.injEq] at hq
    have hone := (exec_claims hi h x.message.messageId).1
    have hpos := List.length_pos_of_mem hx
    rw [hcount, hq, hgrown]
    omega

/-- **A claim keeps the invariant.** -/
theorem FleetInv.claim {s s' : Fleet cfg.py} {pub : PublisherConfig} {me : OutboxPublisher cfg.py}
    {p : Nat} {clock : String} {supply : Nat → String} {fault : Fault} (hi : FleetInv s)
    (hfault : fault ≠ .before)
    (h : ((claimCall pub me clock supply).exec s.db).2 = s'.db)
    (hfresh : Drawable s.issued (leasedOf fault (claimCall pub me clock supply) s.db))
    (hissued : s'.issued = s.issued ++
      (leasedOf fault (claimCall pub me clock supply) s.db).map leaseDigest)
    (hnew : ∀ i a, s'.Has p i a →
      (leasedOf fault (claimCall pub me clock supply) s.db)[i]? = some a.stored)
    (hhas : ∀ q j b, s'.Has q j b → q ≠ p → s.Has q j b) : FleetInv s' := by
  have hrun : (claimCall pub me clock supply).exec s.db =
      (((claimCall pub me clock supply).exec s.db).1, s'.db) := Prod.ext rfl h
  have hclaimed := fun m => @leased_claimedBy _ cfg pub me clock supply fault s.db hfault m
  generalize hleased : leasedOf fault (claimCall pub me clock supply) s.db = leased at *
  have hmem : ∀ x ∈ leased, x ∈ claimedBy x.message.messageId
      (claimCall pub me clock supply, ((claimCall pub me clock supply).exec s.db).1) := by
    intro x hx
    rw [hclaimed]
    exact List.mem_filter.mpr ⟨hx, by simp⟩
  have hdrawn : ∀ m, ∀ x ∈ claimedBy m (claimCall pub me clock supply,
      ((claimCall pub me clock supply).exec s.db).1),
      leaseDigest x ∉ s.issued ∧ leaseDigest x ∈ s'.issued := by
    intro m x hx
    rw [hclaimed] at hx
    have hin : leaseDigest x ∈ leased.map leaseDigest :=
      List.mem_map.mpr ⟨x, List.mem_of_mem_filter hx, rfl⟩
    exact ⟨hfresh.2 _ hin, by rw [hissued]; exact List.mem_append_right _ hin⟩
  have hold : ∀ d ∈ s.issued, d ∈ s'.issued := by
    intro d hd
    rw [hissued]
    exact List.mem_append_left _ hd
  have hfacts : ∀ i a, s'.Has p i a → a.stored ∈ leased ∧ Leased s.db s'.db a.stored := by
    intro i a ha
    have hin := List.mem_of_getElem? (hnew i a ha)
    exact ⟨hin, leased_exec hi.tokens.outbox hrun (hmem _ hin)⟩
  -- a new attempt counts more than every attempt that was there
  have hmore : ∀ i a, s'.Has p i a → ∀ q j b, s'.Has q j b → q ≠ p →
      a.messageId = b.messageId → b.count < a.count := by
    intro i a ha q j b hb hq hid
    obtain ⟨-, hl⟩ := hfacts i a ha
    obtain ⟨token, -, -, r, hr, hle, -⟩ := (hi.holders q j b (hhas q j b hb hq)).holds
    rw [← hid] at hr
    have hgrown := hl.grown r hr
    simp only [Attempt.count] at hle ⊢
    omega
  constructor
  · exact hi.tokens.exec hrun hold hdrawn
  · intro q j b hb
    by_cases hq : q = p
    · subst hq
      obtain ⟨hin, hl⟩ := hfacts j b hb
      obtain ⟨r', token, hr', hs, ht, hxt, hcount⟩ := hl.held
      refine ⟨⟨token, hxt, ?_, r', hr', Nat.le_of_eq hcount, fun _ _ => hcount⟩, hl.counted⟩
      rw [← leaseDigest_of hxt]
      exact (hdrawn _ _ (hmem _ hin)).2
    · exact (hi.holders q j b (hhas q j b hb hq)).exec hi.tokens hrun hold
        fun m x hx => (hdrawn m x hx).1
  · intro q j b q' j' b' hb hb' hid hcount
    by_cases hq : q = p
    · by_cases hq' : q' = p
      · subst hq hq'
        obtain ⟨-, hl⟩ := hfacts j b hb
        obtain ⟨-, hl'⟩ := hfacts j' b' hb'
        obtain ⟨r₁, t₁, hr₁, -, ht₁, hx₁, -⟩ := hl.held
        obtain ⟨r₂, t₂, hr₂, -, ht₂, hx₂, -⟩ := hl'.held
        have hids : b.stored.message.messageId = b'.stored.message.messageId := hid
        rw [hids, hr₂, Option.some.injEq] at hr₁
        subst hr₁
        rw [ht₁, Option.some.injEq] at ht₂
        subst ht₂
        refine ⟨rfl, ?_⟩
        have hget : (leased.map leaseDigest)[j]? = (leased.map leaseDigest)[j']? := by
          rw [List.getElem?_map, List.getElem?_map, hnew j b hb, hnew j' b' hb', Option.map_some,
            Option.map_some, leaseDigest_of hx₁, leaseDigest_of hx₂]
        have hlt : j < (leased.map leaseDigest).length := by
          rw [List.length_map]
          exact (List.getElem?_eq_some_iff.mp (hnew j b hb)).1
        exact (List.getElem?_inj hlt hfresh.1).mp hget
      · subst hq
        have hlt := hmore j b hb q' j' b' hb' hq' hid
        omega
    · by_cases hq' : q' = p
      · subst hq'
        have hlt := hmore j' b' hb' q j b hb hq hid.symm
        omega
      · exact hi.distinct q j b q' j' b' (hhas q j b hb hq) (hhas q' j' b' hb' hq') hid hcount
  · intro q j b hb hwaiting hopen r' hr'
    by_cases hq : q = p
    · subst hq
      obtain ⟨-, hl⟩ := hfacts j b hb
      have hshut := hl.shut
      rw [show b.stored.message.messageId = b.messageId from rfl, hopen] at hshut
      exact absurd hshut (by simp)
    · have hb₀ := hhas q j b hb hq
      exact Overtaken.exec hi.tokens (hi.holders q j b hb₀) hrun (hi.overtaken q j b hb₀ hwaiting)
        (fun _ _ _ _ hcall => absurd hcall (by simp [claimCall])) hopen r' hr'

/-- **Every step keeps the invariant.** -/
theorem FleetInv.exec {s s' : Fleet cfg.py} {action : Action cfg.py} {r : Report cfg.py}
    (hi : FleetInv s) (h : action.exec configs s = some (s', r)) : FleetInv s' := by
  cases exec_kind h with
  | client call reply hrun hclaims hrejects hresolved hreport hmark hissued hhas =>
    refine hi.call hrun hclaims hissued fun p i a ha => ⟨a, hhas p i a ha, rfl, fun hw => ⟨hw, ?_⟩⟩
    intro token reason markedAt now hcall
    exact absurd hcall (hmark _ _ _ _ _)
  | idle hreport hdb hissued hhas =>
    exact hi.same hdb hissued fun p i a ha => ⟨a, hhas p i a ha, rfl, id⟩
  | attempt p i a out ha hstep hdb hissued hself hhas =>
    have hmoved : ∀ q j b, s'.Has q j b → (q, j) = (p, i) → b = { a with phase := out.phase } := by
      rintro q j b ⟨c, hc, hget⟩ heq
      obtain ⟨rfl, rfl⟩ := Prod.mk.inj heq
      obtain ⟨c', hc', hget'⟩ := hself
      rw [hc, Option.some.injEq] at hc'
      subst hc'
      rw [hget, Option.some.injEq] at hget'
      exact hget'
    rcases hstep.store with hsame | ⟨hnot, call, reply, hmakes, hrun⟩
    · refine hi.same (hdb.trans hsame) hissued fun q j b hb => ?_
      by_cases heq : (q, j) = (p, i)
      · have hbe := hmoved q j b hb heq
        obtain ⟨rfl, rfl⟩ := Prod.mk.inj heq
        subst hbe
        exact ⟨a, ha, rfl, fun hw => hstep.waited hw⟩
      · exact ⟨b, hhas q j b hb heq, rfl, id⟩
    · refine hi.call (by rw [hdb]; exact hrun) (fun m => (hmakes.deeds m reply).1) hissued
        fun q j b hb => ?_
      by_cases heq : (q, j) = (p, i)
      · have hbe := hmoved q j b hb heq
        obtain ⟨rfl, rfl⟩ := Prod.mk.inj heq
        subst hbe
        refine ⟨a, ha, rfl, fun hw => ?_⟩
        have hwaits : out.phase.isWaiting = true := hw
        simp [hnot] at hwaits
      · have hb₀ := hhas q j b hb heq
        exact ⟨b, hb₀, rfl, fun hw => ⟨hw, fun _ _ _ _ hcall _ hr hs ht =>
          hi.mark_other ha hb₀ heq hmakes hcall hr hs ht⟩⟩
  | claim p clock supply fault cancelled leased haction hleased hdb hfresh hissued hidle hnew hhas =>
    subst hleased
    rcases faulty_state fault (claimCall (configs p) (s.publishers p) clock supply) s.db with
      ⟨hfault, hsame⟩ | ⟨rfl, hsame⟩
    · exact hi.claim hfault (by rw [hdb, hsame]) hfresh hissued (fun i a ha => (hnew i a ha).1) hhas
    · have hnone : leasedOf .before (claimCall (configs p) (s.publishers p) clock supply) s.db = [] :=
        rfl
      refine hi.same (hdb.trans hsame) (by rw [hissued, hnone]; simp) fun q j b hb => ?_
      by_cases hq : q = p
      · subst hq
        have hget := (hnew j b hb).1
        rw [hnone] at hget
        exact absurd hget (by simp)
      · exact ⟨b, hhas q j b hb hq, rfl, id⟩

/-- The invariant holds over every run. -/
theorem run_fleetInv {ls : List (Action cfg.py × Report cfg.py)} {s : Fleet cfg.py}
    (h : Run (fleetSystem cfg configs) Fleet.start ls s) : FleetInv s :=
  h.invariant (fun _ _ _ hi hs => hi.exec hs) fleetInv_start

end QuantumEntanglement.Publisher
