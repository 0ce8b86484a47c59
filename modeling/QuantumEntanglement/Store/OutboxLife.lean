import QuantumEntanglement.Lib.LeasedDelivery
import QuantumEntanglement.Store.OutboxRows

/-
  The life of an outbox message — the tables refine one leased item each

  `view db m` is the state of message `m` as an item of `LeasedDelivery`: its
  status and lease from the `outbox` row, its quarantine from the
  `outbox_ambiguities` table. `OutboxInv` is what makes that view faithful:
  every row readable, lease columns set exactly while a row is in flight, one
  open ambiguity for a message at most, and that one on the lease it holds.

  What is proved, for each operation that returned:
    1. It keeps `OutboxInv`.
    2. For every message, the view before and the view after are joined by a
       run of the item's life, and its signals are those the operation
       reported (`enqueue_life`, `claim_life`, `acknowledge_life`,
       `reject_life`, `mark_life`, `resolve_life`).
-/

namespace QuantumEntanglement

open Transaction TransitionSystem LeasedDelivery PyText IsoTime Sha256

/-! ## The invariant -/

/-- A live lease: a token, an expiry SQLite can read, and a claim that was
counted. -/
structure LeaseOk (row : OutboxRow) (token expiry : String) : Prop where
  holds : row.leaseToken = some token
  nonBlank : isBlank token = false
  expires : row.leaseExpiresAt = some expiry
  moment : ∃ m, InRange m ∧ expiry = momentText m
  claimed : 1 ≤ row.attemptCount

/-- What every row keeps. -/
structure OutboxRowOk (cfg : StoreConfig) (row : OutboxRow) : Prop where
  readable : OutboxReadable cfg row
  leased : row.status = .inFlight → ∃ token expiry, LeaseOk row token expiry
  unleased : row.status ≠ .inFlight → row.leaseToken = none ∧ row.leaseExpiresAt = none

/-- **The invariant of the delivery tables.** -/
structure OutboxInv (cfg : StoreConfig) (db : Db) : Prop where
  rows : ∀ r ∈ db.outbox, OutboxRowOk cfg r
  ids : db.outbox.Pairwise (fun a b => a.messageId ≠ b.messageId)
  openLeased : ∀ a ∈ db.ambiguities, a.resolvedAt = none →
    ∃ r token, findOutbox db.outbox a.messageId = some r ∧ r.status = .inFlight ∧
      r.leaseToken = some token ∧ a.leaseTokenDigest = hexDigest token
  oneOpen : db.ambiguities.Pairwise
    (fun a b => ¬(a.messageId = b.messageId ∧ a.resolvedAt = none ∧ b.resolvedAt = none))

/-- The tables the invariant reads are the same. -/
theorem OutboxInv.congr {cfg : StoreConfig} {db db' : Db} (h : OutboxInv cfg db)
    (ho : db'.outbox = db.outbox) (ha : db'.ambiguities = db.ambiguities) : OutboxInv cfg db' := by
  obtain ⟨h₁, h₂, h₃, h₄⟩ := h
  exact ⟨by rwa [ho], by rwa [ho], by rwa [ha, ho], by rwa [ha]⟩

theorem outboxInv_empty (cfg : StoreConfig) : OutboxInv cfg Db.empty :=
  ⟨by simp [Db.empty], .nil, by simp [Db.empty], .nil⟩

/-! ## The view -/

variable [SqliteTime]

/-- A text as SQLite's instant; NULL does not occur where this is used. -/
def timeOf (text : String) : Rat := (julianday text).getD 0

theorem timeOf_momentText {m : Int} (h : InRange m) : timeOf (momentText m) = SqliteTime.keep m := by
  rw [timeOf, julianday_momentText h, Option.getD_some]

/-- A row as the state of an item. -/
def OutboxRow.delivery (row : OutboxRow) (quarantined : Bool) : Delivery String Rat :=
  match row.status with
  | .pending => .waiting row.attemptCount
  | .inFlight => .leased row.attemptCount (row.leaseToken.getD "")
      (timeOf (row.leaseExpiresAt.getD "")) quarantined
  | .published => .published row.attemptCount
  | .deadLetter => .dead row.attemptCount

/-- The state of a message in the tables. -/
def view (db : Db) (messageId : String) : Option (Delivery String Rat) :=
  (findOutbox db.outbox messageId).map (·.delivery (hasOpenAmbiguity db.ambiguities messageId))

theorem hasOpenAmbiguity_iff {rows : List AmbiguityRow} {m : String} :
    hasOpenAmbiguity rows m = true ↔ ∃ a ∈ rows, a.messageId = m ∧ a.resolvedAt = none := by
  simp [hasOpenAmbiguity, isOpenFor]

/-- Where the row in question and the quarantine are the same, so is the view. -/
theorem view_eq_of {db db' : Db} {m : String}
    (hrow : findOutbox db'.outbox m = findOutbox db.outbox m)
    (hq : hasOpenAmbiguity db'.ambiguities m = hasOpenAmbiguity db.ambiguities m) :
    view db' m = view db m := by
  rw [view, view, hrow, hq]

/-- A message whose row and quarantine are the same takes no step. -/
theorem life_same {db db' : Db} {m : String}
    (hrow : findOutbox db'.outbox m = findOutbox db.outbox m)
    (hq : hasOpenAmbiguity db'.ambiguities m = hasOpenAmbiguity db.ambiguities m) :
    Run life (view db m) [] (view db' m) := by
  rw [view_eq_of hrow hq]
  exact .done _

/-- A row in flight is viewed as its lease. -/
theorem LeaseOk.view_eq {db : Db} {r : OutboxRow} {token expiry m : String} (h : LeaseOk r token expiry)
    (hr : findOutbox db.outbox m = some r) (hs : r.status = .inFlight) :
    view db m = some (.leased r.attemptCount token (timeOf expiry)
      (hasOpenAmbiguity db.ambiguities m)) := by
  simp [view, hr, OutboxRow.delivery, hs, h.holds, h.expires]

/-! ## Changing the row of one message -/

/-- The row of one message rewritten. -/
def rewriteRow (db : Db) (messageId : String) (f : OutboxRow → OutboxRow) : Db :=
  { db with outbox := updateWhere (fun r => r.messageId = messageId) f db.outbox }

section Rewrite

variable {cfg : StoreConfig} {db : Db} {r : OutboxRow} {f : OutboxRow → OutboxRow}

/-- An update by a condition that only the row of one message meets. -/
theorem updateWhere_of_find {p : OutboxRow → Bool} {m : String}
    (hids : db.outbox.Pairwise (fun a b => a.messageId ≠ b.messageId))
    (hp : ∀ q, p q = true → q.messageId = m) (hr : findOutbox db.outbox m = some r)
    (hpr : p r = true) :
    updateWhere p f db.outbox = updateWhere (fun q => q.messageId = m) f db.outbox ∧
      db.outbox.countP p = 1 := by
  obtain ⟨hmem, hid⟩ := findOutbox_some hr
  have hiff : ∀ q ∈ db.outbox, (p q = true ↔ q.messageId = m) := by
    intro q hq
    refine ⟨hp q, fun hqm => ?_⟩
    have hfind := findOutbox_of_mem hids hq
    rw [hqm, hr, Option.some.injEq] at hfind
    rwa [← hfind]
  refine ⟨updateWhere_congr fun q hq => ?_, countP_unique (hids.imp ?_) hmem hpr⟩
  · rw [Bool.eq_iff_iff, hiff q hq, decide_eq_true_eq]
  · rintro a b hab ⟨ha, hb⟩
    exact hab ((hp a ha).trans (hp b hb).symm)

/-- An update by a condition no row meets. -/
theorem updateWhere_none {p : OutboxRow → Bool} (hp : ∀ q ∈ db.outbox, p q = false) :
    updateWhere p f db.outbox = db.outbox := by
  have hmap : updateWhere p f db.outbox = db.outbox.map id :=
    List.map_congr_left fun q hq => by simp [hp q hq]
  rw [hmap, List.map_id]

/-- An UPDATE of one message by a condition on its row: it rewrote that row,
or it changed nothing. -/
theorem fenced_update {p : OutboxRow → Bool} {m : String} (f : OutboxRow → OutboxRow)
    (hids : db.outbox.Pairwise (fun a b => a.messageId ≠ b.messageId))
    (hp : ∀ q, p q = true → q.messageId = m) :
    (∃ r, findOutbox db.outbox m = some r ∧ p r = true ∧ (db.outbox.countP p == 1) = true ∧
        { db with outbox := updateWhere p f db.outbox } = rewriteRow db m f) ∨
      ((db.outbox.countP p == 1) = false ∧
        { db with outbox := updateWhere p f db.outbox } = db) := by
  by_cases hany : ∃ q ∈ db.outbox, p q = true
  · obtain ⟨q, hq, hpq⟩ := hany
    have hfind : findOutbox db.outbox m = some q := by
      rw [← hp q hpq]
      exact findOutbox_of_mem hids hq
    obtain ⟨hupdate, hcount⟩ := updateWhere_of_find (f := f) hids hp hfind hpq
    exact .inl ⟨q, hfind, hpq, by simp [hcount], by rw [hupdate]; rfl⟩
  · have hnone : ∀ q ∈ db.outbox, p q = false := by
      intro q hq
      cases hpq : p q with
      | false => rfl
      | true => exact absurd ⟨q, hq, hpq⟩ hany
    have hzero : db.outbox.countP p = 0 := by
      rw [List.countP_eq_zero]
      intro q hq
      simp [hnone q hq]
    exact .inr ⟨by simp [hzero], by rw [updateWhere_none hnone]⟩

variable (hf : ∀ q, (f q).messageId = q.messageId)

include hf

theorem find_rewriteRow (m m' : String) :
    findOutbox (rewriteRow db m f).outbox m' =
      if m' = m then (findOutbox db.outbox m').map f else findOutbox db.outbox m' := by
  rw [rewriteRow, findOutbox_updateWhere hf]
  cases hfind : findOutbox db.outbox m' with
  | none => simp
  | some q =>
    have hq := (findOutbox_some hfind).2
    by_cases h : m' = m <;> simp [hq, h]

theorem rewrite_ids {m : String} (hids : db.outbox.Pairwise (fun a b => a.messageId ≠ b.messageId)) :
    (rewriteRow db m f).outbox.Pairwise (fun a b => a.messageId ≠ b.messageId) := by
  have hmap : (rewriteRow db m f).outbox.map (·.messageId) = db.outbox.map (·.messageId) := by
    simp only [rewriteRow, updateWhere, List.map_map]
    refine List.map_congr_left fun q _ => ?_
    simp only [Function.comp]
    split
    · exact hf q
    · rfl
  rw [← List.pairwise_map (f := OutboxRow.messageId) (R := (· ≠ ·))] at hids ⊢
  rwa [hmap]

/-- **Rewriting a row that is not quarantined into a good one keeps the
invariant.** -/
theorem OutboxInv.rewrite (h : OutboxInv cfg db) (hr : findOutbox db.outbox r.messageId = some r)
    (hok : OutboxRowOk cfg (f r)) (hopen : hasOpenAmbiguity db.ambiguities r.messageId = false) :
    OutboxInv cfg (rewriteRow db r.messageId f) := by
  constructor
  · intro q hq
    obtain ⟨q', hq', rfl⟩ := mem_updateWhere.mp hq
    by_cases hid : q'.messageId = r.messageId
    · have hfind := findOutbox_of_mem h.ids hq'
      rw [hid, hr, Option.some.injEq] at hfind
      subst hfind
      simpa using hok
    · simpa [hid] using h.rows q' hq'
  · exact rewrite_ids hf h.ids
  · intro a ha hnone
    obtain ⟨q, token, hq, hs, ht, hd⟩ := h.openLeased a ha hnone
    refine ⟨q, token, ?_, hs, ht, hd⟩
    have hne : a.messageId ≠ r.messageId := by
      intro e
      have htrue : hasOpenAmbiguity db.ambiguities r.messageId = true :=
        hasOpenAmbiguity_iff.mpr ⟨a, ha, e, hnone⟩
      simp [hopen] at htrue
    rw [find_rewriteRow hf, if_neg hne]
    exact hq
  · exact h.oneOpen

/-- The views of the other messages do not change. -/
theorem view_rewrite_other {m m' : String} (hne : m' ≠ m) :
    view (rewriteRow db m f) m' = view db m' :=
  view_eq_of (by rw [find_rewriteRow hf, if_neg hne]) rfl

theorem view_rewrite_self (hr : findOutbox db.outbox r.messageId = some r) :
    view (rewriteRow db r.messageId f) r.messageId =
      some ((f r).delivery (hasOpenAmbiguity db.ambiguities r.messageId)) := by
  rw [view, find_rewriteRow hf, if_pos rfl, hr]
  rfl

end Rewrite

/-! ## Good rows -/

theorem outboxRowOk_leased {cfg : StoreConfig} {r : OutboxRow} {token expiry : String}
    (hread : OutboxReadable cfg (r.leased token expiry)) (htoken : isBlank token = false)
    (hexpiry : ∃ m, InRange m ∧ expiry = momentText m) :
    OutboxRowOk cfg (r.leased token expiry) :=
  ⟨hread, fun _ => ⟨token, expiry, rfl, htoken, rfl, hexpiry, Nat.le_add_left 1 _⟩,
    fun h => absurd rfl h⟩

theorem outboxRowOk_published {cfg : StoreConfig} {r : OutboxRow} (h : OutboxRowOk cfg r) {m : Int}
    (hm : InRange m) : OutboxRowOk cfg (r.published (momentText m)) := by
  refine ⟨{ h.readable with leaseExpiresAt := ?_, publishedAt := ?_ }, ?_, fun _ => ⟨rfl, rfl⟩⟩
  · simp [OptionalTimestampOk, OutboxRow.published]
  · simpa [OptionalTimestampOk, OutboxRow.published] using timestampOk_momentText hm
  · simp [OutboxRow.published]

theorem outboxRowOk_released {cfg : StoreConfig} {r : OutboxRow} (h : OutboxRowOk cfg r) {m : Int}
    (hm : InRange m) (dead : Bool) (error : String) :
    OutboxRowOk cfg (r.released dead (momentText m) error) := by
  refine ⟨{ h.readable with availableAt := ?_, leaseExpiresAt := ?_ }, ?_, fun _ => ⟨rfl, rfl⟩⟩
  · exact timestampOk_momentText hm
  · simp [OptionalTimestampOk, OutboxRow.released]
  · cases dead <;> simp [OutboxRow.released]

/-! ## Acknowledging and rejecting -/

/-- The fence passed: the row is viewed as a lease under this token, live at
this moment and not quarantined. -/
theorem holdsLease_view {cfg : StoreConfig} {db : Db} {messageId token : String} {r : OutboxRow}
    {now : Int} (hi : OutboxInv cfg db) (hnow : InRange now)
    (hr : findOutbox db.outbox messageId = some r)
    (h : holdsLease db.ambiguities messageId token (momentText now) r = true) :
    ∃ expiry : Rat, SqliteTime.keep now < expiry ∧
      view db messageId = some (.leased r.attemptCount token expiry false) ∧
      hasOpenAmbiguity db.ambiguities r.messageId = false := by
  obtain ⟨hmem, hid⟩ := findOutbox_some hr
  simp only [holdsLease, Bool.and_eq_true, decide_eq_true_eq, Bool.not_eq_true'] at h
  obtain ⟨⟨⟨⟨-, hs⟩, ht⟩, hlive⟩, hopen⟩ := h
  obtain ⟨token', expiry, hlease⟩ := (hi.rows r hmem).leased hs
  obtain rfl : token' = token := by simpa [hlease.holds] using ht
  obtain ⟨e, he, rfl⟩ := hlease.moment
  have hopen' : hasOpenAmbiguity db.ambiguities messageId = false := by rwa [hid] at hopen
  refine ⟨SqliteTime.keep e, ?_, ?_, hopen⟩
  · simpa [hlease.expires, strictlyAfter, julianday_momentText he, julianday_momentText hnow]
      using hlive
  · rw [hlease.view_eq hr hs, timeOf_momentText he, hopen']

theorem holdsLease_messageId {rows : List AmbiguityRow} {messageId token now : String}
    {q : OutboxRow} (h : holdsLease rows messageId token now q = true) : q.messageId = messageId := by
  simp only [holdsLease, Bool.and_eq_true, decide_eq_true_eq] at h
  exact h.1.1.1.1

/-- An UPDATE behind the fence ends the lease of the message it names by one
step, or matches no row. -/
theorem fenced_life {cfg : StoreConfig} {messageId token : String} {now : Int} {b : Bool}
    {db db' : Db} {f : OutboxRow → OutboxRow} {s : Signal String Rat} (hi : OutboxInv cfg db)
    (hnow : InRange now) (hf : ∀ q, (f q).messageId = q.messageId)
    (hok : ∀ q, OutboxRowOk cfg q → OutboxRowOk cfg (f q))
    (hstep : ∀ (q : OutboxRow) (expiry : Rat), SqliteTime.keep now < expiry →
      Step (some (.leased q.attemptCount token expiry false)) s (some ((f q).delivery false)))
    (hb : b = (db.outbox.countP (holdsLease db.ambiguities messageId token (momentText now)) == 1))
    (hdb : db' = { db with
      outbox := updateWhere (holdsLease db.ambiguities messageId token (momentText now)) f
        db.outbox }) :
    OutboxInv cfg db' ∧
      ∀ m, Run life (view db m) (if b = true ∧ m = messageId then [s] else []) (view db' m) := by
  rcases fenced_update f hi.ids (fun q =>
    @holdsLease_messageId _ db.ambiguities messageId token (momentText now) q) with
    ⟨r, hr, hp, hcount, hupdate⟩ | ⟨hcount, hupdate⟩
  · rw [hcount] at hb
    rw [hupdate] at hdb
    subst hb hdb
    obtain ⟨hmem, rfl⟩ := findOutbox_some hr
    obtain ⟨expiry, hlive, hview, hopen⟩ := holdsLease_view hi hnow hr hp
    refine ⟨hi.rewrite hf hr (hok r (hi.rows r hmem)) hopen, fun m => ?_⟩
    by_cases hm : m = r.messageId
    · subst hm
      rw [if_pos ⟨rfl, rfl⟩, hview, view_rewrite_self hf hr, hopen]
      exact .single (hstep r expiry hlive)
    · rw [if_neg (fun e => hm e.2), view_rewrite_other hf hm]
      exact .done _
  · rw [hcount] at hb
    rw [hupdate] at hdb
    subst hb hdb
    exact ⟨hi, fun m => by simpa using Run.done _⟩

/-- **An acknowledgement is one step of the message it names, and only if it
returned true.** -/
theorem acknowledge_life {cfg : StoreConfig} {messageId token clock : String}
    {publishedAt : Option String} {b : Bool} {db db' : Db} (hi : OutboxInv cfg db)
    (h : acknowledgeOutbox cfg messageId token publishedAt clock db = (.ok b, db')) :
    OutboxInv cfg db' ∧ ∃ now : Int, timestampMoment cfg.py clock "clock" = .ok now ∧
      ∀ m, Run life (view db m) (if b = true ∧ m = messageId then [.acknowledged token (SqliteTime.keep now)] else [])
        (view db' m) := by
  obtain ⟨now, at_, hnow, hat, hclock, hb, hdb⟩ := acknowledgeOutbox_ok h
  obtain ⟨hinv, hlife⟩ := fenced_life (f := (·.published (momentText at_)))
    (s := .acknowledged token (SqliteTime.keep now)) hi hnow (fun _ => rfl)
    (fun q hq => outboxRowOk_published hq hat)
    (fun q expiry hlive => .acknowledge _ _ _ _ hlive) hb hdb
  exact ⟨hinv, now, hclock, hlife⟩

/-- **A rejection is one step of the message it names, and only if it returned
true.** -/
theorem reject_life {cfg : StoreConfig} {messageId token error clock : String}
    {retryAt : Option String} {dead b : Bool} {db db' : Db} (hi : OutboxInv cfg db)
    (h : rejectOutbox cfg messageId token error retryAt dead clock db = (.ok b, db')) :
    OutboxInv cfg db' ∧ ∃ now : Int, timestampMoment cfg.py clock "clock" = .ok now ∧
      ∀ m, Run life (view db m) (if b = true ∧ m = messageId then [.rejected token dead (SqliteTime.keep now)]
        else [])
        (view db' m) := by
  obtain ⟨now, at_, hnow, hat, hclock, hb, hdb⟩ := rejectOutbox_ok h
  obtain ⟨hinv, hlife⟩ := fenced_life (f := (·.released dead (momentText at_) error))
    (s := .rejected token dead (SqliteTime.keep now)) hi hnow (fun _ => rfl)
    (fun q hq => outboxRowOk_released hq hat dead error)
    (fun q expiry hlive => by
      have hstep := Step.reject q.attemptCount token expiry (SqliteTime.keep now) dead hlive
      cases dead <;> exact hstep) hb hdb
  exact ⟨hinv, now, hclock, hlife⟩

/-! ## Claiming -/

/-- The signals of a claim's reply for one message. -/
def claimSignals {py : PyVersion} (now : Rat) (m : String) (ms : List (StoredOutboxMessage py)) :
    List (Signal String Rat) :=
  (ms.filter (fun x => x.message.messageId = m)).map
    (fun x => .claimed (x.leaseToken.getD "") (timeOf (x.leaseExpiresAt.getD "")) now)

theorem leaseTokenOf_nonBlank {workerId suffix : String} (h : isBlank workerId = false) :
    isBlank (leaseTokenOf workerId suffix) = false := by
  simp only [isBlank, leaseTokenOf, String.toList_append, List.all_append] at h ⊢
  simp [h]

/-- A claimable row is viewed as an item a worker may claim. -/
theorem claimable_step {cfg : StoreConfig} {db : Db} {r : OutboxRow} {now : Int} (token : String)
    (expiry : Rat) (hi : OutboxInv cfg db) (hnow : InRange now)
    (hr : findOutbox db.outbox r.messageId = some r)
    (h : isClaimable db.ambiguities (momentText now) r = true) :
    Step (view db r.messageId) (.claimed token expiry (SqliteTime.keep now))
        (some (.leased (r.attemptCount + 1) token expiry false)) ∧
      hasOpenAmbiguity db.ambiguities r.messageId = false := by
  simp only [isClaimable, Bool.and_eq_true, Bool.not_eq_true', Bool.or_eq_true,
    decide_eq_true_eq] at h
  obtain ⟨hdue, hopen⟩ := h
  refine ⟨?_, hopen⟩
  rcases hdue with ⟨hs, -⟩ | ⟨hs, hexpired⟩
  · have hview : view db r.messageId = some (.waiting r.attemptCount) := by
      simp [view, hr, OutboxRow.delivery, hs]
    rw [hview]
    exact .claim _ _ _ _
  · obtain ⟨token', e, hlease⟩ := (hi.rows r (findOutbox_some hr).1).leased hs
    obtain ⟨x, hx, rfl⟩ := hlease.moment
    rw [hlease.view_eq hr hs, hopen, timeOf_momentText hx]
    refine .reclaim _ _ _ _ _ _ ?_
    simpa [leaseExpired, hlease.expires, atOrBefore, julianday_momentText hx,
      julianday_momentText hnow] using hexpired

/-- One turn of the claim's loop is one step of the row's message. -/
theorem claimRow_life {cfg : StoreConfig} {workerId suffix : String} {expiry now : Int}
    {r : OutboxRow} {x : StoredOutboxMessage cfg.py} {db db' : Db} (hi : OutboxInv cfg db)
    (hworker : isBlank workerId = false) (hnow : InRange now) (hexpiry : InRange expiry)
    (hr : findOutbox db.outbox r.messageId = some r)
    (hclaimable : isClaimable db.ambiguities (momentText now) r = true)
    (h : claimRow cfg workerId (momentText expiry) suffix r db = (.ok x, db')) :
    OutboxInv cfg db' ∧
      db' = rewriteRow db r.messageId (·.leased (leaseTokenOf workerId suffix) (momentText expiry)) ∧
      ShowsRow x (r.leased (leaseTokenOf workerId suffix) (momentText expiry)) ∧
      ∀ m, Run life (view db m) (claimSignals (SqliteTime.keep now) m [x]) (view db' m) := by
  obtain ⟨-, hdb, updated, hfind, hread⟩ := claimRow_ok.mp h
  have hf : ∀ q : OutboxRow,
      (q.leased (leaseTokenOf workerId suffix) (momentText expiry)).messageId = q.messageId :=
    fun _ => rfl
  have hdb' : db' = rewriteRow db r.messageId
      (·.leased (leaseTokenOf workerId suffix) (momentText expiry)) := hdb
  have hupdated : updated = r.leased (leaseTokenOf workerId suffix) (momentText expiry) := by
    rw [hdb', find_rewriteRow hf, if_pos rfl, hr] at hfind
    simpa using hfind.symm
  subst hupdated
  obtain ⟨hreadable, hshows⟩ := rowToOutbox_inversion hread
  obtain ⟨hstep, hopen⟩ := claimable_step (leaseTokenOf workerId suffix) (SqliteTime.keep expiry) hi hnow hr
    hclaimable
  have hinv := hi.rewrite hf hr
    (outboxRowOk_leased hreadable (leaseTokenOf_nonBlank hworker) ⟨expiry, hexpiry, rfl⟩) hopen
  refine ⟨by rw [hdb']; exact hinv, hdb', hshows, fun m => ?_⟩
  by_cases hm : m = r.messageId
  · subst hm
    have hsignals : claimSignals (SqliteTime.keep now) r.messageId [x] =
        [.claimed (leaseTokenOf workerId suffix) (SqliteTime.keep expiry) (SqliteTime.keep now)] := by
      have hid : x.message.messageId = r.messageId := hshows.messageId
      have ht : x.leaseToken = some (leaseTokenOf workerId suffix) := hshows.leaseToken
      have he : x.leaseExpiresAt = some (momentText expiry) := hshows.leaseExpiresAt
      simp [claimSignals, hid, ht, he, timeOf_momentText hexpiry]
    have hview : view db' r.messageId =
        some (.leased (r.attemptCount + 1) (leaseTokenOf workerId suffix) (SqliteTime.keep expiry)
          false) := by
      rw [hdb', view_rewrite_self hf hr, hopen]
      simp [OutboxRow.delivery, OutboxRow.leased, timeOf_momentText hexpiry]
    rw [hsignals, hview]
    exact .single hstep
  · have hne : x.message.messageId ≠ m := by
      rw [hshows.messageId]
      exact fun e => hm e.symm
    rw [hdb', view_rewrite_other hf hm]
    simpa [claimSignals, hne] using Run.done _

/-- **The claim's loop, over rows that are claimable and belong to different
messages.** -/
theorem claimRows_life {cfg : StoreConfig} {workerId : String} {supply : Nat → String}
    {expiry now : Int} {rows : List OutboxRow} {i : Nat} {ms : List (StoredOutboxMessage cfg.py)}
    {db db' : Db} (hi : OutboxInv cfg db) (hworker : isBlank workerId = false) (hnow : InRange now)
    (hexpiry : InRange expiry) (hpair : rows.Pairwise (fun a b => a.messageId ≠ b.messageId))
    (hrows : ∀ r ∈ rows, findOutbox db.outbox r.messageId = some r ∧
      isClaimable db.ambiguities (momentText now) r = true)
    (h : claimRows cfg workerId (momentText expiry) supply i rows db = (.ok ms, db')) :
    OutboxInv cfg db' ∧ db' = { db with outbox := db'.outbox } ∧
      ms.map (·.message.messageId) = rows.map (·.messageId) ∧
      ∀ m, Run life (view db m) (claimSignals (SqliteTime.keep now) m ms) (view db' m) := by
  induction rows generalizing i ms db with
  | nil =>
    obtain ⟨rfl, rfl⟩ := Txn.pure_ok.mp h
    exact ⟨hi, rfl, rfl, fun m => .done _⟩
  | cons r rest ih =>
    simp only [claimRows, Txn.bind_ok, Txn.pure_ok] at h
    obtain ⟨x, db₁, hone, xs, _, hrest, rfl, rfl⟩ := h
    obtain ⟨hhead, htail⟩ := List.pairwise_cons.mp hpair
    obtain ⟨hfind, hclaimable⟩ := hrows r (by simp)
    obtain ⟨hi₁, hdb₁, hshows, hlife₁⟩ :=
      claimRow_life hi hworker hnow hexpiry hfind hclaimable hone
    have hrows₁ : ∀ q ∈ rest, findOutbox db₁.outbox q.messageId = some q ∧
        isClaimable db₁.ambiguities (momentText now) q = true := by
      intro q hq
      obtain ⟨hqf, hqc⟩ := hrows q (List.mem_cons_of_mem _ hq)
      have hne : q.messageId ≠ r.messageId := fun e => hhead q hq e.symm
      have hf : ∀ p : OutboxRow, (p.leased (leaseTokenOf workerId (supply i))
          (momentText expiry)).messageId = p.messageId := fun _ => rfl
      rw [hdb₁, find_rewriteRow hf, if_neg hne]
      exact ⟨hqf, hqc⟩
    obtain ⟨hi', hsame, hids, hlife⟩ := ih hi₁ htail hrows₁ hrest
    have hdb₁' : db₁ = { db with outbox := db₁.outbox } := by rw [hdb₁]; rfl
    refine ⟨hi', by rw [hsame, hdb₁'], ?_, fun m => ?_⟩
    · have hid : x.message.messageId = r.messageId := hshows.messageId
      simp [hids, hid]
    · have happend : claimSignals (SqliteTime.keep now) m (x :: xs) =
          claimSignals (SqliteTime.keep now) m [x] ++ claimSignals (SqliteTime.keep now) m xs := by
        simp only [claimSignals, ← List.map_append, ← List.filter_append, List.singleton_append]
      rw [happend]
      exact (hlife₁ m).append (hlife m)

theorem claimableRows_mem {db : Db} {now : String} {limit : Int} {r : OutboxRow}
    (h : r ∈ claimableRows db now limit) :
    r ∈ db.outbox ∧ isClaimable db.ambiguities now r = true := by
  have hmem := mem_orderBy.mp (List.mem_of_mem_take h)
  exact List.mem_filter.mp hmem

theorem claimableRows_pairwise {db : Db} {now : String} {limit : Int}
    (hids : db.outbox.Pairwise (fun a b => a.messageId ≠ b.messageId)) :
    (claimableRows db now limit).Pairwise (fun a b => a.messageId ≠ b.messageId) := by
  have hsort : (orderBy (·.outboxPosition) (db.outbox.filter (isClaimable db.ambiguities now))).Perm
      (db.outbox.filter (isClaimable db.ambiguities now)) := List.perm_insertionSort _ _
  have hfilter := hids.filter (isClaimable db.ambiguities now)
  exact ((hsort.pairwise_iff (fun hab hba => hab hba.symm)).mpr hfilter).take

/-- **A claim is one step of each message it returned.** -/
theorem claim_life {cfg : StoreConfig} {workerId : String} {limit : Int} {lease : Nat}
    {clock : String} {supply : Nat → String} {ms : List (StoredOutboxMessage cfg.py)} {db db' : Db}
    (hi : OutboxInv cfg db)
    (h : claimOutbox cfg workerId limit lease clock supply db = (.ok ms, db')) :
    OutboxInv cfg db' ∧ db' = { db with outbox := db'.outbox } ∧
      (∀ x ∈ ms, hasOpenAmbiguity db.ambiguities x.message.messageId = false) ∧
      ∃ now : Int, timestampMoment cfg.py clock "clock" = .ok now ∧
        ∀ m, Run life (view db m) (claimSignals (SqliteTime.keep now) m ms) (view db' m) := by
  obtain ⟨hworker, -, now, hnow, hclock, hdeadline, hloop⟩ := claimOutbox_ok.mp h
  obtain ⟨hinv, hsame, hids, hlife⟩ := claimRows_life hi hworker hnow hdeadline
    (claimableRows_pairwise hi.ids) (fun r hr => by
      obtain ⟨hmem, hc⟩ := claimableRows_mem hr
      exact ⟨findOutbox_of_mem hi.ids hmem, hc⟩) hloop
  refine ⟨hinv, hsame, fun x hx => ?_, now, hclock, hlife⟩
  have hid : x.message.messageId ∈ (claimableRows db (momentText now) limit).map (·.messageId) := by
    rw [← hids]
    exact List.mem_map.mpr ⟨x, hx, rfl⟩
  obtain ⟨r, hr, hrid⟩ := List.mem_map.mp hid
  have hc := (claimableRows_mem hr).2
  simp only [isClaimable, Bool.and_eq_true, Bool.not_eq_true'] at hc
  rw [← hrid]
  exact hc.2

/-! ## Quarantine and resolution -/

/-- **Marking quarantines the lease it names, or leaves everything as it is.**
It also answers true when the ambiguity is already on record. -/
theorem mark_life {cfg : StoreConfig} {messageId token : String} {reason : AmbiguityReason}
    {markedAt : Option String} {now : UtcMoment} {b : Bool} {db db' : Db} (hi : OutboxInv cfg db)
    (h : markOutboxAmbiguous cfg messageId token reason markedAt now db = (.ok b, db')) :
    OutboxInv cfg db' ∧
      ∀ m, ∃ ls, (ls = [] ∨ ls = [.quarantined token]) ∧ Run life (view db m) ls (view db' m) := by
  have hnothing : OutboxInv cfg db ∧ ∀ m, ∃ ls, (ls = [] ∨ ls = [.quarantined token]) ∧
      Run life (view db m) ls (view db m) := ⟨hi, fun m => ⟨[], .inl rfl, .done _⟩⟩
  rcases markOutboxAmbiguous_ok h with
    ⟨-, rfl⟩ | ⟨-, row, a, hrow, hs, ht, haid, hadigest, haopen, hins⟩
  · exact hnothing
  rcases insertAmbiguity_ok hins with ⟨-, rfl⟩ | ⟨hnone, rfl⟩
  · exact hnothing
  rw [haid] at hnone
  obtain ⟨hmem, hid⟩ := findOutbox_some hrow
  obtain ⟨token', expiry, hlease⟩ := (hi.rows row hmem).leased hs
  obtain rfl : token' = token := by simpa [hlease.holds] using ht
  refine ⟨⟨hi.rows, hi.ids, ?_, ?_⟩, fun m => ?_⟩
  · intro x hx hxnone
    rcases List.mem_append.mp hx with hx | hx
    · exact hi.openLeased x hx hxnone
    · rw [List.mem_singleton] at hx
      subst hx
      exact ⟨row, token', by rw [haid]; exact hrow, hs, ht, hadigest⟩
  · refine List.pairwise_append.mpr ⟨hi.oneOpen, List.pairwise_singleton _ _, fun x hx y hy => ?_⟩
    rw [List.mem_singleton] at hy
    subst hy
    rintro ⟨hxid, hxnone, -⟩
    have hopen := hasOpenAmbiguity_iff.mpr ⟨x, hx, hxid.trans haid, hxnone⟩
    simp [hnone] at hopen
  · by_cases hm : m = messageId
    · subst hm
      have hopen : hasOpenAmbiguity (db.ambiguities ++ [a]) m = true :=
        hasOpenAmbiguity_iff.mpr ⟨a, by simp, haid, haopen⟩
      refine ⟨[.quarantined token'], .inr rfl, ?_⟩
      have hview :=
        @LeaseOk.view_eq _ { db with ambiguities := db.ambiguities ++ [a] } _ _ _ _ hlease hrow hs
      rw [hlease.view_eq hrow hs, hview, hopen]
      exact .single (.quarantine _ _ _ _)
    · refine ⟨[], .inl rfl, ?_⟩
      have hsame : hasOpenAmbiguity (db.ambiguities ++ [a]) m = hasOpenAmbiguity db.ambiguities m := by
        have hne : a.messageId ≠ m := by rw [haid]; exact fun e => hm e.symm
        simp [hasOpenAmbiguity, isOpenFor, hne]
      exact life_same rfl hsame

/-- A resolution as the item knows it. -/
def AmbiguityResolution.toResolution : AmbiguityResolution → Resolution
  | .published => .published
  | .retry => .retry
  | .deadLetter => .dead

theorem resolveRow_delivery (res : AmbiguityResolution) (decided available : String) (r : OutboxRow) :
    (resolveRow res decided available r).delivery false =
      .resolveTo r.attemptCount res.toResolution := by
  cases res <;> rfl

theorem outboxRowOk_resolved {cfg : StoreConfig} {r : OutboxRow} (h : OutboxRowOk cfg r)
    (res : AmbiguityResolution) {decided available : Int} (hd : InRange decided)
    (ha : InRange available) :
    OutboxRowOk cfg (resolveRow res (momentText decided) (momentText available) r) := by
  cases res with
  | published => exact outboxRowOk_published h hd
  | retry => exact outboxRowOk_released h ha false _
  | deadLetter => exact outboxRowOk_released h ha true _

theorem resolveRow_messageId (res : AmbiguityResolution) (decided available : String)
    (r : OutboxRow) : (resolveRow res decided available r).messageId = r.messageId := by
  cases res <;> rfl

/-- The ambiguities of a message once its open one was closed. -/
theorem closed_ambiguities {rows : List AmbiguityRow} {messageId digest : String}
    {close : AmbiguityRow → AmbiguityRow} (hclosed : ∀ a, (close a).resolvedAt ≠ none)
    (hdigest : ∀ a ∈ rows, a.messageId = messageId → a.resolvedAt = none →
      a.leaseTokenDigest = digest) (a : AmbiguityRow)
    (ha : a ∈ updateWhere (isAmbiguityOf messageId digest) close rows) (hnone : a.resolvedAt = none) :
    a ∈ rows ∧ a.messageId ≠ messageId := by
  obtain ⟨q, hq, rfl⟩ := mem_updateWhere.mp ha
  by_cases hp : isAmbiguityOf messageId digest q = true
  · rw [if_pos hp] at hnone
    exact absurd hnone (hclosed q)
  · rw [if_neg hp] at hnone ⊢
    refine ⟨hq, fun e => hp ?_⟩
    simp [isAmbiguityOf, isOpenFor, e, hnone, hdigest q hq e hnone]

/-- **A resolution is one step of the message it names, and only if it
returned true.** -/
theorem resolve_life {cfg : StoreConfig} {messageId digest : String}
    {resolution : AmbiguityResolution} {resolvedAt retryAt : Option String} {now : UtcMoment}
    {b : Bool} {db db' : Db} (hi : OutboxInv cfg db)
    (h : resolveOutboxAmbiguity cfg messageId digest resolution resolvedAt retryAt now db =
      (.ok b, db')) :
    OutboxInv cfg db' ∧
      ∀ m, Run life (view db m)
        (if b = true ∧ m = messageId then [.resolved resolution.toResolution] else [])
        (view db' m) := by
  rcases resolveOutboxAmbiguity_ok h with
    ⟨rfl, rfl⟩ | ⟨rfl, row, token, a, decided, available, hdin, hain, ha, hamb, hrow, hs, ht, hdigest,
      rfl⟩
  · exact ⟨hi, fun m => by simpa using Run.done _⟩
  obtain ⟨hmem, rfl⟩ := findOutbox_some hrow
  obtain ⟨token', expiry, hlease⟩ := (hi.rows row hmem).leased hs
  obtain rfl : token' = token := by simpa [hlease.holds] using ht
  have hf := resolveRow_messageId resolution (momentText decided) (momentText available)
  have hrewrite : updateWhere (isLeasedAs row.messageId token')
      (resolveRow resolution (momentText decided) (momentText available)) db.outbox =
      (rewriteRow db row.messageId
        (resolveRow resolution (momentText decided) (momentText available))).outbox :=
    (updateWhere_of_find hi.ids (fun q hq => by
      simp only [isLeasedAs, Bool.and_eq_true, decide_eq_true_eq] at hq
      exact hq.1.1) hrow (by simp [isLeasedAs, hs, ht])).1
  rw [hrewrite]
  -- every open ambiguity of the message is on the lease it holds, so all of them close
  have hclosed := @closed_ambiguities _ db.ambiguities row.messageId digest
    (fun a => { a with
      resolution := some resolution, resolvedAt := some (momentText decided) })
    (fun _ => by simp) (fun x hx hxid hxnone => by
      obtain ⟨r, t, hr, -, hrt, hxd⟩ := hi.openLeased x hx hxnone
      rw [hxid, hrow, Option.some.injEq] at hr
      subst hr
      rw [ht, Option.some.injEq] at hrt
      rw [hxd, hdigest, hrt])
  have hopen : hasOpenAmbiguity db.ambiguities row.messageId = true := by
    simp only [isAmbiguityOf, isOpenFor, Bool.and_eq_true, decide_eq_true_eq,
      Option.isNone_iff_eq_none] at hamb
    exact hasOpenAmbiguity_iff.mpr ⟨a, ha, hamb.1.1, hamb.1.2⟩
  refine ⟨⟨?_, ?_, ?_, ?_⟩, fun m => ?_⟩
  · intro q hq
    obtain ⟨q', hq', rfl⟩ := mem_updateWhere.mp hq
    split
    · exact outboxRowOk_resolved (hi.rows q' hq') resolution hdin hain
    · exact hi.rows q' hq'
  · exact rewrite_ids hf hi.ids
  · intro x hx hxnone
    obtain ⟨hx, hne⟩ := hclosed x hx hxnone
    obtain ⟨r, t, hr, hrest⟩ := hi.openLeased x hx hxnone
    refine ⟨r, t, ?_, hrest⟩
    rw [find_rewriteRow hf, if_neg hne]
    exact hr
  · refine List.pairwise_map.mpr (hi.oneOpen.imp fun {x y} hxy => ?_)
    rintro ⟨hid, hx, hy⟩
    refine hxy ⟨?_, ?_, ?_⟩
    · split at hid <;> split at hid <;> exact hid
    · split at hx
      · simp at hx
      · exact hx
    · split at hy
      · simp at hy
      · exact hy
  · have hnone : ∀ x ∈ updateWhere (isAmbiguityOf row.messageId digest)
        (fun a => { a with resolution := some resolution, resolvedAt := some (momentText decided) })
        db.ambiguities, x.resolvedAt = none → x ∈ db.ambiguities ∧ x.messageId ≠ row.messageId :=
      hclosed
    by_cases hm : m = row.messageId
    · subst hm
      have hshut : hasOpenAmbiguity (updateWhere (isAmbiguityOf row.messageId digest)
          (fun a => { a with resolution := some resolution, resolvedAt := some (momentText decided) })
          db.ambiguities) row.messageId = false := by
        rw [← Bool.not_eq_true, hasOpenAmbiguity_iff]
        rintro ⟨x, hx, hxid, hxnone⟩
        exact (hnone x hx hxnone).2 hxid
      rw [if_pos ⟨rfl, rfl⟩, hlease.view_eq hrow hs, hopen]
      have hview : view { db with
          outbox := (rewriteRow db row.messageId
            (resolveRow resolution (momentText decided) (momentText available))).outbox
          ambiguities := updateWhere (isAmbiguityOf row.messageId digest)
            (fun a => { a with
              resolution := some resolution, resolvedAt := some (momentText decided) })
            db.ambiguities } row.messageId =
          some (.resolveTo row.attemptCount resolution.toResolution) := by
        rw [view, find_rewriteRow hf, if_pos rfl, hrow, hshut]
        exact congrArg some (resolveRow_delivery resolution _ _ row)
      rw [hview]
      exact .single (.resolve _ _ _ _)
    · rw [if_neg (fun e => hm e.2)]
      have hsame : hasOpenAmbiguity (updateWhere (isAmbiguityOf row.messageId digest)
          (fun a => { a with resolution := some resolution, resolvedAt := some (momentText decided) })
          db.ambiguities) m = hasOpenAmbiguity db.ambiguities m := by
        rw [Bool.eq_iff_iff, hasOpenAmbiguity_iff, hasOpenAmbiguity_iff]
        constructor
        · rintro ⟨x, hx, hxid, hxnone⟩
          exact ⟨x, (hnone x hx hxnone).1, hxid, hxnone⟩
        · rintro ⟨x, hx, hxid, hxnone⟩
          refine ⟨x, mem_updateWhere.mpr ⟨x, hx, ?_⟩, hxid, hxnone⟩
          rw [if_neg]
          intro hp
          simp only [isAmbiguityOf, isOpenFor, Bool.and_eq_true, decide_eq_true_eq] at hp
          exact hm (hxid.symm.trans hp.1.1)
      exact life_same (by rw [find_rewriteRow hf, if_neg hm]) hsame

/-! ## Enqueueing -/

/-- **Enqueueing starts the life of each message it adds.** -/
theorem enqueue_life {cfg : StoreConfig} {event : DomainEvent}
    {messages : List (OutboxMessage cfg.py)} {ev : Option Int}
    {reply : StoredEvent × List (StoredOutboxMessage cfg.py)} {db db' : Db} (hi : OutboxInv cfg db)
    (h : appendWithOutbox cfg event messages ev db = (.ok reply, db')) :
    OutboxInv cfg db' ∧
      ∀ m, ∃ ls, (ls = [] ∨ ls = [.enqueued]) ∧ Run life (view db m) ls (view db' m) := by
  obtain ⟨snap, inserted, db₁, -, -, hcases⟩ := appendWithOutbox_ok hi.ids h
  rcases hcases with ⟨-, rfl⟩ | ⟨-, new, rfl, hnew, hids, -⟩
  · exact ⟨hi, fun m => ⟨[], .inl rfl, .done _⟩⟩
  refine ⟨⟨?_, hids, ?_, hi.oneOpen⟩, fun m => ?_⟩
  · intro r hr
    rcases List.mem_append.mp hr with hr | hr
    · exact hi.rows r hr
    · obtain ⟨hn, hread⟩ := hnew r hr
      exact ⟨hread, by simp [hn.status], fun _ => hn.noLease⟩
  · intro a ha hnone
    obtain ⟨r, t, hr, hrest⟩ := hi.openLeased a ha hnone
    exact ⟨r, t, by simp [findOutbox_append, hr], hrest⟩
  · cases hold : findOutbox db.outbox m with
    | some r =>
      exact ⟨[], .inl rfl, life_same (by simp [findOutbox_append, hold]) rfl⟩
    | none =>
      have hbefore : view db m = none := by simp [view, hold]
      cases hfind : findOutbox new m with
      | none =>
        have hafter : view { db with events := db₁.events, outbox := db.outbox ++ new } m = none := by
          simp [view, findOutbox_append, hold, hfind]
        refine ⟨[], .inl rfl, ?_⟩
        rw [hbefore, hafter]
        exact .done _
      | some r =>
        obtain ⟨hn, -⟩ := hnew r (findOutbox_some hfind).1
        have hafter : view { db with events := db₁.events, outbox := db.outbox ++ new } m =
            some (.waiting 0) := by
          simp [view, findOutbox_append, hold, hfind, OutboxRow.delivery, hn.status, hn.attempts]
        refine ⟨[.enqueued], .inr rfl, ?_⟩
        rw [hbefore, hafter]
        exact .single .enqueue

end QuantumEntanglement
