import QuantumEntanglement.Store.OutboxRuns

/-
  Outbox frames — what a call may do to one row and to one ambiguity

  `exec_life` says what a call does to the view of a message. Here it is said
  of the rows behind the view, as the clients of the outbox need it.

  What is proved, for every call:
    1. `exec_row` — a row stays, and counts one attempt more for each claim.
    2. `exec_lease` — a lease was there before, or the call claimed it.
    3. `exec_claimed` — a claimed message shows its row, leased and not
       quarantined.
    4. `exec_shut`, `exec_published` — a quarantined or finished message is
       claimed by nobody until it is given back, and a published one never is.
    5. `exec_waiting` — a waiting row was waiting, or is new, or was given back.
    6. `exec_ambiguities` — an ambiguity was on record, or names the lease its
       message holds.
-/

namespace QuantumEntanglement.Outbox

open Transaction TransitionSystem LeasedDelivery PyText IsoTime Sha256

variable [SqliteTime] {cfg : StoreConfig} {call : OutboxCall cfg.py} {reply : OutboxReply cfg.py} {db db' : Db}
  {m : String}

/-! ## Rows and views -/

theorem attemptsOf_view {r : OutboxRow} (hr : findOutbox db.outbox m = some r) :
    attemptsOf (view db m) = r.attemptCount := by
  obtain ⟨d, hd, hn⟩ := view_attempts hr
  rw [hd, ← hn]
  rfl

theorem view_isSome : (view db m).isSome = true ↔ ∃ r, findOutbox db.outbox m = some r := by
  rw [view, Option.isSome_map, Option.isSome_iff_exists]

/-- A row in flight is viewed as leased under the token it holds. -/
theorem view_inFlight {r : OutboxRow} {token : String} (hi : OutboxInv cfg db)
    (hr : findOutbox db.outbox m = some r) (hs : r.status = .inFlight)
    (ht : r.leaseToken = some token) :
    ∃ e, view db m = some (.leased r.attemptCount token e (hasOpenAmbiguity db.ambiguities m)) := by
  obtain ⟨token', expiry, hlease⟩ := (hi.rows r (findOutbox_some hr).1).leased hs
  obtain rfl : token' = token := by simpa [hlease.holds] using ht
  exact ⟨_, hlease.view_eq hr hs⟩

/-- And such a view is that of a row in flight. -/
theorem row_leased {n : Nat} {token : String} {e : Rat} {q : Bool} (hi : OutboxInv cfg db)
    (h : view db m = some (.leased n token e q)) :
    ∃ r, findOutbox db.outbox m = some r ∧ r.status = .inFlight ∧ r.leaseToken = some token ∧
      r.attemptCount = n := by
  obtain ⟨r, hr, hd⟩ := Option.map_eq_some_iff.mp h
  have hs : r.status = .inFlight := by
    unfold OutboxRow.delivery at hd
    cases hstatus : r.status <;> simp [hstatus] at hd
    rfl
  obtain ⟨token', expiry, hlease⟩ := (hi.rows r (findOutbox_some hr).1).leased hs
  rw [hlease.view_eq hr hs, Option.some.injEq, Delivery.leased.injEq] at h
  obtain ⟨hn, rfl, -, -⟩ := h
  exact ⟨r, hr, hs, hlease.holds, hn⟩

theorem row_waiting {n : Nat} :
    view db m = some (.waiting n) ↔
      ∃ r, findOutbox db.outbox m = some r ∧ r.status = .pending ∧ r.attemptCount = n := by
  rw [view, Option.map_eq_some_iff]
  refine exists_congr fun r => and_congr_right fun _ => ?_
  unfold OutboxRow.delivery
  cases hs : r.status <;> simp

/-! ## One row -/

/-- **A row stays, and counts one attempt more for each claim.** -/
theorem exec_row (hi : OutboxInv cfg db) (h : call.exec db = (reply, db')) {r : OutboxRow}
    (hr : findOutbox db.outbox m = some r) :
    ∃ r', findOutbox db'.outbox m = some r' ∧
      r'.attemptCount = r.attemptCount + (claimedBy m (call, reply)).length := by
  obtain ⟨-, hlife⟩ := exec_life hi h
  obtain ⟨ss, hrun, hshows⟩ := hlife m
  obtain ⟨hadd, hstays⟩ := Run.attempts hrun
  obtain ⟨r', hr'⟩ := view_isSome.mp (hstays (view_isSome.mpr ⟨r, hr⟩))
  refine ⟨r', hr', ?_⟩
  rw [← attemptsOf_view hr', ← attemptsOf_view hr, hadd, countP_isClaim, ← deeds_lease,
    hshows.deeds, deedsOf_lease, List.length_map]

/-- The same of a message, whether or not it has a row. -/
theorem exec_count (hi : OutboxInv cfg db) (h : call.exec db = (reply, db')) (m : String) :
    attemptsOf (view db' m) = attemptsOf (view db m) + (claimedBy m (call, reply)).length := by
  obtain ⟨ss, hrun, hshows⟩ := (exec_life hi h).2 m
  rw [(Run.attempts hrun).1, countP_isClaim, ← deeds_lease, hshows.deeds, deedsOf_lease,
    List.length_map]

/-- **A lease was there before, or the call claimed it.** -/
theorem exec_lease (hi : OutboxInv cfg db) (h : call.exec db = (reply, db')) {r' : OutboxRow}
    {token : String} (hr' : findOutbox db'.outbox m = some r') (hs : r'.status = .inFlight)
    (ht : r'.leaseToken = some token) :
    (claimedBy m (call, reply) = [] ∧ ∃ r, findOutbox db.outbox m = some r ∧
        r.status = .inFlight ∧ r.leaseToken = some token ∧ r.attemptCount = r'.attemptCount) ∨
      ∃ x ∈ claimedBy m (call, reply), x.leaseToken = some token := by
  obtain ⟨hi', hlife⟩ := exec_life hi h
  obtain ⟨ss, hrun, hshows⟩ := hlife m
  obtain ⟨e, hview⟩ := view_inFlight hi' hr' hs ht
  have hleases : ss.filterMap (·.claim?) = (claimedBy m (call, reply)).map leaseOf := by
    rw [← deeds_lease, hshows.deeds, deedsOf_lease]
  rcases Run.leased_from hrun hview with ⟨hnone, q', hbefore⟩ | hmem
  · obtain ⟨r, hr, hrs, hrt, hn⟩ := row_leased hi hbefore
    rw [hleases, List.map_eq_nil_iff] at hnone
    exact .inl ⟨hnone, r, hr, hrs, hrt, hn⟩
  · rw [hleases] at hmem
    obtain ⟨x, hx, hlease⟩ := List.mem_map.mp hmem
    obtain ⟨token', e', htoken, -, -⟩ := (exec_claims hi h m).2 x hx
    rw [leaseOf, htoken, Option.getD_some, Prod.mk.injEq] at hlease
    exact .inr ⟨x, hx, by rw [htoken, hlease.1]⟩

/-! ## Claimed messages -/

/-- A claim leaves the rows it did not select. -/
theorem claimRows_frame {workerId expiry : String} {supply : Nat → String} {rows : List OutboxRow}
    {i : Nat} {ms : List (StoredOutboxMessage cfg.py)} (hm : ∀ r ∈ rows, r.messageId ≠ m)
    (h : claimRows cfg workerId expiry supply i rows db = (.ok ms, db')) :
    findOutbox db'.outbox m = findOutbox db.outbox m := by
  induction rows generalizing i ms db with
  | nil =>
    obtain ⟨-, rfl⟩ := Txn.pure_ok.mp h
    rfl
  | cons r rest ih =>
    simp only [claimRows, Txn.bind_ok, Txn.pure_ok] at h
    obtain ⟨x, db₁, hone, xs, _, hrest, rfl, rfl⟩ := h
    rw [ih (fun q hq => hm q (by simp [hq])) hrest]
    obtain ⟨-, hdb, -⟩ := claimRow_ok.mp hone
    have hf : ∀ q : OutboxRow,
        (q.leased (leaseTokenOf workerId (supply i)) expiry).messageId = q.messageId := fun _ => rfl
    have hdb₁ : db₁ = rewriteRow db r.messageId
        (·.leased (leaseTokenOf workerId (supply i)) expiry) := hdb
    rw [hdb₁, find_rewriteRow hf, if_neg (fun e => hm r (by simp) e.symm)]

/-- The rows of a claim are left as it shows them. -/
theorem claimRows_shows {workerId expiry : String} {supply : Nat → String} {rows : List OutboxRow}
    {i : Nat} {ms : List (StoredOutboxMessage cfg.py)}
    (hpair : rows.Pairwise (fun a b => a.messageId ≠ b.messageId))
    (h : claimRows cfg workerId expiry supply i rows db = (.ok ms, db')) :
    ∀ x ∈ ms, ∃ r', findOutbox db'.outbox x.message.messageId = some r' ∧ ShowsRow x r' := by
  induction rows generalizing i ms db with
  | nil =>
    obtain ⟨rfl, -⟩ := Txn.pure_ok.mp h
    simp
  | cons r rest ih =>
    simp only [claimRows, Txn.bind_ok, Txn.pure_ok] at h
    obtain ⟨x, db₁, hone, xs, _, hrest, rfl, rfl⟩ := h
    obtain ⟨hhead, htail⟩ := List.pairwise_cons.mp hpair
    intro y hy
    rcases List.mem_cons.mp hy with rfl | hy
    · obtain ⟨-, -, updated, hfind, hread⟩ := claimRow_ok.mp hone
      obtain ⟨-, hshows⟩ := rowToOutbox_inversion hread
      have hid : y.message.messageId = r.messageId := by
        rw [hshows.messageId, (findOutbox_some hfind).2]
      refine ⟨updated, ?_, hshows⟩
      rw [hid, claimRows_frame (fun q hq e => hhead q hq e.symm) hrest]
      exact hfind
    · exact ih htail hrest y hy

/-- **A claimed message shows its row**, which is leased to it and not
quarantined. -/
theorem exec_claimed (hi : OutboxInv cfg db) (h : call.exec db = (reply, db'))
    {x : StoredOutboxMessage cfg.py} (hx : x ∈ claimedBy m (call, reply)) :
    x.message.messageId = m ∧ hasOpenAmbiguity db'.ambiguities m = false ∧
      ∃ r' token, findOutbox db'.outbox m = some r' ∧ r'.status = .inFlight ∧
        r'.leaseToken = some token ∧ x.leaseToken = some token ∧
        x.attemptCount = r'.attemptCount := by
  cases call with
  | claim workerId limit lease clock supply =>
    rcases answer_cases h with ⟨ms, hrun, rfl⟩ | ⟨e, -, rfl⟩
    · obtain ⟨hmem, hid⟩ := List.mem_filter.mp hx
      rw [decide_eq_true_eq] at hid
      subst hid
      obtain ⟨hi', hsame, hopen, -⟩ := claim_life hi hrun
      obtain ⟨-, -, now, -, -, -, hloop⟩ := claimOutbox_ok.mp hrun
      obtain ⟨r', hr', hshows⟩ := claimRows_shows (claimableRows_pairwise hi.ids) hloop x hmem
      obtain ⟨token, -, htoken, -, -⟩ := (exec_claims hi h _).2 x hx
      have hrt : r'.leaseToken = some token := by rw [← hshows.leaseToken, htoken]
      have hs : r'.status = .inFlight := by
        by_cases hs : r'.status = .inFlight
        · exact hs
        · rw [((hi'.rows r' (findOutbox_some hr').1).unleased hs).1] at hrt
          exact absurd hrt (by simp)
      refine ⟨rfl, ?_, r', token, hr', hs, hrt, htoken, hshows.attemptCount⟩
      rw [hsame]
      exact hopen x hmem
    · exact absurd hx (by simp [claimedBy])
  | _ => exact absurd hx (by simp [claimedBy])

/-- The rows a claim's query selects. -/
def selectedBy (call : OutboxCall cfg.py) (db : Db) : List OutboxRow :=
  match call with
  | .claim _ limit _ clock _ =>
    match normalizeTimestamp cfg.py clock "clock" with
    | .ok now => claimableRows db now limit
    | .error _ => []
  | _ => []

/-- **A claimed message was selected**: it was due, or its lease had expired. -/
theorem exec_selected (hi : OutboxInv cfg db) (h : call.exec db = (reply, db'))
    {x : StoredOutboxMessage cfg.py} (hx : x ∈ claimedBy m (call, reply)) :
    ∃ r ∈ selectedBy call db, findOutbox db.outbox m = some r ∧
      (r.status = .pending ∨ r.status = .inFlight) := by
  cases call with
  | claim workerId limit lease clock supply =>
    rcases answer_cases h with ⟨ms, hrun, rfl⟩ | ⟨e, -, rfl⟩
    · obtain ⟨hmem, hid⟩ := List.mem_filter.mp hx
      rw [decide_eq_true_eq] at hid
      obtain ⟨hworker, -, now, hnow, hclock, hdeadline, hloop⟩ := claimOutbox_ok.mp hrun
      obtain ⟨-, -, hids, -⟩ := claimRows_life hi hworker hnow hdeadline
        (claimableRows_pairwise hi.ids) (fun r hr => by
          obtain ⟨hrmem, hc⟩ := claimableRows_mem hr
          exact ⟨findOutbox_of_mem hi.ids hrmem, hc⟩) hloop
      have hin : m ∈ (claimableRows db (momentText now) limit).map (·.messageId) := by
        rw [← hids, ← hid]
        exact List.mem_map.mpr ⟨x, hmem, rfl⟩
      obtain ⟨r, hr, hrid⟩ := List.mem_map.mp hin
      obtain ⟨hrmem, hc⟩ := claimableRows_mem hr
      refine ⟨r, ?_, by rw [← hrid]; exact findOutbox_of_mem hi.ids hrmem, ?_⟩
      · have hnorm : normalizeTimestamp cfg.py clock "clock" = .ok (momentText now) :=
          normalizeTimestamp_ok.mpr ⟨now, hclock, rfl⟩
        simp only [selectedBy, hnorm]
        exact hr
      · simp only [isClaimable, Bool.and_eq_true, Bool.or_eq_true, decide_eq_true_eq] at hc
        exact hc.1.imp (·.1) (·.1)
    · exact absurd hx (by simp [claimedBy])
  | _ => exact absurd hx (by simp [claimedBy])

/-- A rejection among the deeds of a call is that of a `reject` call. -/
theorem deedsOf_rejected {token : String} {dead : Bool}
    (h : deedsOf m (call, reply) = [.rejected token dead]) :
    ∃ error retryAt clock, call = .reject m token error retryAt dead clock := by
  unfold deedsOf at h
  split at h
  next ms _ =>
    have hmem : Deed.rejected token dead ∈
        (ms.filter (fun x => x.message.messageId = m)).map
          fun x => Deed.claimed (leaseOf x).1 (leaseOf x).2 := by
      rw [h]
      exact List.mem_singleton.mpr rfl
    obtain ⟨_, -, hx⟩ := List.mem_map.mp hmem
    cases hx
  next => split at h <;> simp at h
  next messageId token' error retryAt dead' clock heq =>
    split at h
    next hm =>
      simp only [List.cons.injEq, Deed.rejected.injEq, and_true] at h
      obtain ⟨rfl, rfl⟩ := h
      rw [← hm]
      exact ⟨error, retryAt, clock, (Prod.mk.inj heq).1⟩
    next => simp at h
  next => split at h <;> simp at h
  next => simp at h

/-! ## Quarantine -/

/-- How a call resolved the ambiguity of a message. -/
def resolvedBy {py : PyVersion} (m : String) (l : OutboxCall py × OutboxReply py) : List Resolution :=
  (deedsOf m l).filterMap (·.resolution?)

/-- Only a resolution resolves. -/
theorem resolvedBy_other
    (h : ∀ messageId digest resolution resolvedAt retryAt now,
      call ≠ .resolve messageId digest resolution resolvedAt retryAt now) :
    resolvedBy m (call, reply) = [] := by
  have hite : ∀ {c : Prop} [Decidable c] {d : Deed String Rat}, d.resolution? = none →
      (if c then [d] else []).filterMap (·.resolution?) = [] := by
    intro c _ d hd
    split
    · rw [List.filterMap_cons, hd]
      rfl
    · rfl
  cases call with
  | claim workerId limit lease clock supply =>
    cases reply with
    | claimed ms =>
      show List.filterMap _ (List.map _ _) = []
      rw [List.filterMap_map]
      exact List.filterMap_eq_nil_iff.mpr fun _ _ => rfl
    | _ => rfl
  | acknowledge messageId token publishedAt clock =>
    cases reply with
    | held b =>
      cases b with
      | false => rfl
      | true => exact hite rfl
    | _ => rfl
  | reject messageId token error retryAt dead clock =>
    cases reply with
    | held b =>
      cases b with
      | false => rfl
      | true => exact hite rfl
    | _ => rfl
  | resolve messageId digest resolution resolvedAt retryAt now => exact absurd rfl (h _ _ _ _ _ _)
  | _ => rfl

/-- **A shut message stays shut, and nobody claims it**, unless an operator
gives it back. -/
theorem exec_shut (hi : OutboxInv cfg db) (h : call.exec db = (reply, db'))
    (hshut : (view db m).any (·.isShut) = true) (hretry : resolvedBy m (call, reply) ≠ [.retry]) :
    (view db' m).any (·.isShut) = true ∧ claimedBy m (call, reply) = [] := by
  obtain ⟨-, hlife⟩ := exec_life hi h
  obtain ⟨ss, hrun, hshows⟩ := hlife m
  have hleases : ss.filterMap (·.claim?) = (claimedBy m (call, reply)).map leaseOf := by
    rw [← deeds_lease, hshows.deeds, deedsOf_lease]
  rcases hrun.short hshows.short with ⟨rfl, hsame⟩ | ⟨s, rfl, hstep⟩
  · exact ⟨by rw [hsame]; exact hshut, List.map_eq_nil_iff.mp hleases.symm⟩
  · have hne : s ≠ .resolved .retry := by
      rintro rfl
      refine hretry ?_
      rw [resolvedBy, ← hshows.deeds]
      rfl
    obtain ⟨hshut', hclaim⟩ := Step.shut hstep hshut hne
    rw [List.filterMap_cons, hclaim] at hleases
    exact ⟨hshut', List.map_eq_nil_iff.mp hleases.symm⟩

/-- What is resolved was quarantined, and goes where the resolution leads. -/
theorem exec_resolved {res : Resolution} (hi : OutboxInv cfg db) (h : call.exec db = (reply, db'))
    (hres : resolvedBy m (call, reply) = [res]) :
    ∃ n token e, view db m = some (.leased n token e true) ∧
      view db' m = some (.resolveTo n res) := by
  obtain ⟨-, hlife⟩ := exec_life hi h
  obtain ⟨ss, hrun, hshows⟩ := hlife m
  rw [resolvedBy, ← hshows.deeds] at hres
  rcases hrun.short hshows.short with ⟨rfl, -⟩ | ⟨s, rfl, hstep⟩
  · exact absurd hres (by simp)
  · obtain rfl : s = .resolved res := by
      cases s <;> simp [Signal.deed?, Deed.resolution?] at hres
      rw [hres]
    generalize hd : view db m = d at hstep
    generalize hd' : view db' m = d' at hstep
    cases hstep with
    | resolve n token e => exact ⟨n, token, e, rfl, rfl⟩

/-- A published message stays published, whatever is called. -/
theorem exec_published {n : Nat} (hi : OutboxInv cfg db) (h : call.exec db = (reply, db'))
    (hpublished : view db m = some (.published n)) :
    view db' m = some (.published n) ∧ resolvedBy m (call, reply) = [] := by
  obtain ⟨-, hlife⟩ := exec_life hi h
  obtain ⟨ss, hrun, hshows⟩ := hlife m
  rw [hpublished] at hrun
  obtain ⟨rfl, hsame⟩ := Run.published_stays hrun
  refine ⟨hsame, ?_⟩
  rw [resolvedBy, ← hshows.deeds]
  rfl

/-! ## Waiting rows -/

/-- What made an item wait. -/
theorem waiting_from {d d' : Option (Delivery String Rat)} {s : LeasedDelivery.Signal String Rat}
    {n : Nat} (h : Step d s d') (hd : d' = some (.waiting n)) :
    (d = none ∧ n = 0) ∨
      (∃ token e now, d = some (.leased n token e false) ∧ s = .rejected token false now) ∨
      s = .resolved .retry := by
  cases h with
  | enqueue =>
    cases hd
    exact .inl ⟨rfl, rfl⟩
  | reject n' token e now isDead _ =>
    cases isDead with
    | true => simp [Delivery.rejectTo] at hd
    | false =>
      simp only [Delivery.rejectTo, Bool.false_eq_true, if_false, Option.some.injEq,
        Delivery.waiting.injEq] at hd
      subst hd
      exact .inr (.inl ⟨token, e, now, rfl, rfl⟩)
  | resolve n' token e r => cases r <;> simp [Delivery.resolveTo] at hd ⊢
  | _ => simp at hd

/-- **A waiting row was waiting, or is new, or was given back**: by a
rejection under the lease it held, or by an operator. -/
theorem exec_waiting (hi : OutboxInv cfg db) (h : call.exec db = (reply, db')) {r' : OutboxRow}
    (hr' : findOutbox db'.outbox m = some r') (hs : r'.status = .pending) :
    (∃ r, findOutbox db.outbox m = some r ∧ r.status = .pending ∧
        r.attemptCount = r'.attemptCount) ∨
      r'.attemptCount = 0 ∨
      (∃ r token, findOutbox db.outbox m = some r ∧ r.status = .inFlight ∧
        r.leaseToken = some token ∧ r.attemptCount = r'.attemptCount ∧
        deedsOf m (call, reply) = [.rejected token false]) ∨
      resolvedBy m (call, reply) = [.retry] := by
  obtain ⟨-, hlife⟩ := exec_life hi h
  obtain ⟨ss, hrun, hshows⟩ := hlife m
  have hview : view db' m = some (.waiting r'.attemptCount) := row_waiting.mpr ⟨r', hr', hs, rfl⟩
  have hdeeds := hshows.deeds
  rcases hrun.short hshows.short with ⟨-, hsame⟩ | ⟨s, rfl, hstep⟩
  · rw [hsame] at hview
    obtain ⟨r, hr, hrs, hn⟩ := row_waiting.mp hview
    exact .inl ⟨r, hr, hrs, hn⟩
  · rcases waiting_from hstep hview with ⟨-, hzero⟩ | ⟨token, e, now, hbefore, rfl⟩ | rfl
    · exact .inr (.inl hzero)
    · obtain ⟨r, hr, hrs, hrt, hn⟩ := row_leased hi hbefore
      exact .inr (.inr (.inl ⟨r, token, hr, hrs, hrt, hn, hdeeds.symm⟩))
    · refine .inr (.inr (.inr ?_))
      rw [resolvedBy, ← hdeeds]
      rfl

/-! ## Ambiguities -/

theorem resolveRow_status (res : AmbiguityResolution) (decided available : String) (r : OutboxRow) :
    (resolveRow res decided available r).status ≠ .inFlight := by
  cases res <;> simp [resolveRow, OutboxRow.published, OutboxRow.released]

/-- Where an ambiguity after a call comes from: it was on record, and if it was
closed meanwhile its message is out of flight; or the call marked the lease its
message holds. -/
def AmbiguityFrom (call : OutboxCall cfg.py) (db db' : Db) (x' : AmbiguityRow) : Prop :=
  (∃ x ∈ db.ambiguities, x.messageId = x'.messageId ∧ x.leaseTokenDigest = x'.leaseTokenDigest ∧
      (x = x' ∨ ∀ r', findOutbox db'.outbox x'.messageId = some r' → r'.status ≠ .inFlight)) ∨
    (x'.resolvedAt = none ∧ ∃ r token, findOutbox db.outbox x'.messageId = some r ∧
      r.status = .inFlight ∧ r.leaseToken = some token ∧ x'.leaseTokenDigest = hexDigest token ∧
      ∃ reason markedAt now, call = .mark x'.messageId token reason markedAt now)

theorem ambiguityFrom_same {x' : AmbiguityRow} (hsame : db'.ambiguities = db.ambiguities)
    (hx : x' ∈ db'.ambiguities) : AmbiguityFrom call db db' x' := by
  rw [hsame] at hx
  exact .inl ⟨x', hx, rfl, rfl, .inl rfl⟩

/-- **An ambiguity was on record, or names the lease its message holds.** -/
theorem exec_ambiguities (hi : OutboxInv cfg db) (h : call.exec db = (reply, db'))
    {x' : AmbiguityRow} (hx : x' ∈ db'.ambiguities) : AmbiguityFrom call db db' x' := by
  by_cases hraised : ∃ e, reply = .raised e
  · obtain ⟨e, rfl⟩ := hraised
    have hsame := exec_raised h
    exact ambiguityFrom_same (by rw [hsame]) hx
  cases call with
  | enqueue event messages expected =>
    rcases answer_cases h with ⟨r, hrun, rfl⟩ | ⟨e, -, he⟩
    · obtain ⟨-, -, db₁, -, -, ⟨-, rfl⟩ | ⟨-, new, rfl, -⟩⟩ := appendWithOutbox_ok hi.ids hrun
      · exact ambiguityFrom_same rfl hx
      · exact ambiguityFrom_same rfl hx
    · exact absurd ⟨e, he⟩ hraised
  | claim workerId limit lease clock supply =>
    rcases answer_cases h with ⟨ms, hrun, rfl⟩ | ⟨e, -, he⟩
    · obtain ⟨-, hsame, -⟩ := claim_life hi hrun
      exact ambiguityFrom_same (by rw [hsame]) hx
    · exact absurd ⟨e, he⟩ hraised
  | acknowledge messageId token publishedAt clock =>
    rcases answer_cases h with ⟨b, hrun, rfl⟩ | ⟨e, -, he⟩
    · obtain ⟨now, at_, -, -, -, -, rfl⟩ := acknowledgeOutbox_ok hrun
      exact ambiguityFrom_same rfl hx
    · exact absurd ⟨e, he⟩ hraised
  | reject messageId token error retryAt dead clock =>
    rcases answer_cases h with ⟨b, hrun, rfl⟩ | ⟨e, -, he⟩
    · obtain ⟨now, at_, -, -, -, -, rfl⟩ := rejectOutbox_ok hrun
      exact ambiguityFrom_same rfl hx
    · exact absurd ⟨e, he⟩ hraised
  | mark messageId token reason markedAt now =>
    rcases answer_cases h with ⟨b, hrun, rfl⟩ | ⟨e, -, he⟩
    · rcases markOutboxAmbiguous_ok hrun with
        ⟨-, rfl⟩ | ⟨-, row, a, hrow, hs, ht, haid, hadigest, haopen, hins⟩
      · exact ambiguityFrom_same rfl hx
      · rcases insertAmbiguity_ok hins with ⟨-, rfl⟩ | ⟨-, rfl⟩
        · exact ambiguityFrom_same rfl hx
        · rcases List.mem_append.mp hx with hold | hnew
          · exact .inl ⟨x', hold, rfl, rfl, .inl rfl⟩
          · rw [List.mem_singleton] at hnew
            subst hnew
            exact .inr ⟨haopen, row, token, by rw [haid]; exact hrow, hs, ht, hadigest, reason,
              markedAt, now, by rw [haid]⟩
    · exact absurd ⟨e, he⟩ hraised
  | resolve messageId digest resolution resolvedAt retryAt now =>
    rcases answer_cases h with ⟨b, hrun, rfl⟩ | ⟨e, -, he⟩
    · rcases resolveOutboxAmbiguity_ok hrun with
        ⟨-, rfl⟩ | ⟨-, row, token, a, decided, available, -, -, -, -, hrow, hs, ht, -, rfl⟩
      · exact ambiguityFrom_same rfl hx
      · obtain ⟨x, hx₀, rfl⟩ := mem_updateWhere.mp hx
        by_cases hp : isAmbiguityOf messageId digest x = true
        · rw [if_pos hp]
          refine .inl ⟨x, hx₀, rfl, rfl, .inr fun r' hr' => ?_⟩
          have hid : x.messageId = messageId := by
            simp only [isAmbiguityOf, isOpenFor, Bool.and_eq_true, decide_eq_true_eq] at hp
            exact hp.1.1
          have hf := resolveRow_messageId resolution (momentText decided) (momentText available)
          simp only [hid] at hr'
          rw [findOutbox_updateWhere hf, hrow, Option.map_some, Option.some.injEq, if_pos] at hr'
          · rw [← hr']
            exact resolveRow_status _ _ _ _
          · simp [isLeasedAs, hs, ht, (findOutbox_some hrow).2]
        · rw [if_neg hp]
          exact .inl ⟨x, hx₀, rfl, rfl, .inl rfl⟩
    · exact absurd ⟨e, he⟩ hraised

/-- **A quarantine was there before, or the call marked the lease its message
holds.** -/
theorem exec_quarantine (hi : OutboxInv cfg db) (h : call.exec db = (reply, db'))
    (hopen : hasOpenAmbiguity db'.ambiguities m = true) :
    hasOpenAmbiguity db.ambiguities m = true ∨
      ∃ r token, findOutbox db.outbox m = some r ∧ r.status = .inFlight ∧
        r.leaseToken = some token ∧
        ∃ reason markedAt now, call = .mark m token reason markedAt now := by
  obtain ⟨x', hx', hid, hnone⟩ := hasOpenAmbiguity_iff.mp hopen
  subst hid
  rcases exec_ambiguities hi h hx' with
    ⟨x, hx, hxid, -, rfl | hout⟩ | ⟨-, r, token, hr, hs, ht, -, hmark⟩
  · exact .inl (hasOpenAmbiguity_iff.mpr ⟨x, hx, rfl, hnone⟩)
  · obtain ⟨r', token, hr', hs', -⟩ := (exec_life hi h).1.openLeased x' hx' hnone
    exact absurd hs' (hout r' hr')
  · exact .inr ⟨r, token, hr, hs, ht, hmark⟩

/-- A mark the store answered with true found the lease it names, and left an
ambiguity of that lease on record. -/
theorem exec_mark {token : String} {reason : AmbiguityReason} {markedAt : Option String}
    {now : UtcMoment}
    (h : (OutboxCall.mark m token reason markedAt now : OutboxCall cfg.py).exec db =
      (.held true, db')) :
    (∃ r, findOutbox db.outbox m = some r ∧ r.status = .inFlight ∧ r.leaseToken = some token ∧
        findOutbox db'.outbox m = some r) ∧
      ∃ a ∈ db'.ambiguities, a.messageId = m ∧ a.leaseTokenDigest = hexDigest token := by
  rcases answer_cases h with ⟨b, hrun, hb⟩ | ⟨e, -, he⟩
  · obtain rfl : true = b := by injection hb
    rcases markOutboxAmbiguous_ok hrun with
      ⟨hfalse, -⟩ | ⟨-, row, a, hrow, hs, ht, haid, hadigest, -, hins⟩
    · exact absurd hfalse (by simp)
    · rcases insertAmbiguity_ok hins with ⟨⟨a', ha', hid', hdigest'⟩, rfl⟩ | ⟨-, rfl⟩
      · exact ⟨⟨row, hrow, hs, ht, hrow⟩, a', ha', hid'.trans haid, hdigest'.trans hadigest⟩
      · exact ⟨⟨row, hrow, hs, ht, hrow⟩, a, by simp, haid, hadigest⟩
  · cases he

end QuantumEntanglement.Outbox
