import QuantumEntanglement.Lib.TransitionSystem

/-
  Leased delivery — one item that workers lease, finish or give back

  An item waits, is leased under a token until an expiry, and ends published
  or dead. A leased item whose worker lost track of what it did can be
  quarantined; it then keeps its lease until somebody resolves it. The states
  carry what a lease needs, so there is no leased item without a token and an
  expiry and no quarantine without a lease.

  Tokens and times are arbitrary; times are compared by `≤` and `<`.

  What is proved, for every run that starts with no item:
    1. `attempts_eq` — an item was claimed as often as its state counts.
    2. `published_count` — it was published once if it is published and not at
       all otherwise, whoever asked.
    3. `leased_lastClaim` — a lease is that of the latest claim.
    4. `Run.published_stays`, `Run.dead_stays` — a finished item stays as it
       is, and takes no step.
  And for every run, wherever it starts:
    5. `Run.attempts` — it adds one attempt for each claim.
    6. `Run.leased_from` — a lease is an old one, kept, or one it claimed.
    7. `Step.shut` — a quarantined or finished item is claimed by nobody, until
       an operator asks for a retry.
-/

namespace LeasedDelivery

open TransitionSystem

variable {α τ : Type}

/-- The state of one item. -/
inductive Delivery (α τ : Type) where
  | waiting (attempts : Nat)
  | leased (attempts : Nat) (token : α) (expiry : τ) (quarantined : Bool)
  | published (attempts : Nat)
  | dead (attempts : Nat)
  deriving DecidableEq

/-- How an operator resolves a quarantine. -/
inductive Resolution where
  | published
  | retry
  | dead
  deriving DecidableEq

/-- What happens to an item. -/
inductive Signal (α τ : Type) where
  | enqueued
  | claimed (token : α) (expiry now : τ)
  | acknowledged (token : α) (now : τ)
  | rejected (token : α) (dead : Bool) (now : τ)
  | quarantined (token : α)
  | resolved (resolution : Resolution)
  deriving DecidableEq

namespace Delivery

def attempts : Delivery α τ → Nat
  | waiting n | leased n _ _ _ | published n | dead n => n

def isPublished : Delivery α τ → Bool
  | published _ => true
  | _ => false

/-- The state a resolution leads to. -/
def resolveTo (n : Nat) : Resolution → Delivery α τ
  | .published => .published n
  | .retry => .waiting n
  | .dead => .dead n

/-- The state a rejection leads to. -/
def rejectTo (n : Nat) (isDead : Bool) : Delivery α τ := if isDead then .dead n else .waiting n

end Delivery

/-! ## Counting signals -/

def Signal.isClaim : Signal α τ → Bool
  | .claimed .. => true
  | _ => false

/-- A signal that publishes the item: an acknowledgement or a resolution. -/
def Signal.publishes : Signal α τ → Bool
  | .acknowledged .. => true
  | .resolved .published => true
  | _ => false

/-- The token and expiry of the latest claim. -/
def lastClaim : List (Signal α τ) → Option (α × τ)
  | [] => none
  | s :: rest =>
    match lastClaim rest with
    | some c => some c
    | none =>
      match s with
      | .claimed t e _ => some (t, e)
      | _ => none

/-- The lease a signal grants. -/
def Signal.claim? : Signal α τ → Option (α × τ)
  | .claimed t e _ => some (t, e)
  | _ => none

/-- What a signal does to the item, whenever it happens; an enqueueing and a
quarantine are no deeds. -/
inductive Deed (α τ : Type) where
  | claimed (token : α) (expiry : τ)
  | acknowledged
  | rejected (token : α) (dead : Bool)
  | resolved (resolution : Resolution)
  deriving DecidableEq

def Signal.deed? : Signal α τ → Option (Deed α τ)
  | .claimed t e _ => some (.claimed t e)
  | .acknowledged _ _ => some .acknowledged
  | .rejected t dead _ => some (.rejected t dead)
  | .resolved r => some (.resolved r)
  | _ => none

def Deed.lease? : Deed α τ → Option (α × τ)
  | .claimed t e => some (t, e)
  | _ => none

def Deed.publishes : Deed α τ → Bool
  | .acknowledged => true
  | .resolved .published => true
  | _ => false

def Deed.resolution? : Deed α τ → Option Resolution
  | .resolved r => some r
  | _ => none

theorem deeds_lease (l : List (Signal α τ)) :
    (l.filterMap (·.deed?)).filterMap (·.lease?) = l.filterMap (·.claim?) := by
  induction l with
  | nil => rfl
  | cons s rest ih =>
    rw [List.filterMap_cons, List.filterMap_cons, ← ih]
    cases s <;> rfl

theorem deeds_publishes (l : List (Signal α τ)) :
    (l.filterMap (·.deed?)).countP (·.publishes) = l.countP (·.publishes) := by
  induction l with
  | nil => rfl
  | cons s rest ih =>
    rw [List.filterMap_cons, List.countP_cons, ← ih]
    cases s with
    | resolved r => cases r <;> simp [Signal.deed?, Deed.publishes, Signal.publishes]
    | _ => simp [Signal.deed?, Deed.publishes, Signal.publishes]

theorem countP_isClaim (l : List (Signal α τ)) :
    l.countP (·.isClaim) = (l.filterMap (·.claim?)).length := by
  induction l with
  | nil => rfl
  | cons s rest ih =>
    rw [List.countP_cons, List.filterMap_cons, ih]
    cases s <;> rfl

theorem lastClaim_append (l m : List (Signal α τ)) :
    lastClaim (l ++ m) = (lastClaim m).or (lastClaim l) := by
  induction l with
  | nil => simp [lastClaim]
  | cons s rest ih =>
    simp only [List.cons_append, lastClaim, ih]
    cases lastClaim m <;> simp

theorem lastClaim_eq (l : List (Signal α τ)) :
    lastClaim l = (l.filterMap (·.claim?)).getLast? := by
  induction l with
  | nil => rfl
  | cons s rest ih =>
    have hor : lastClaim (s :: rest) = (lastClaim rest).or s.claim? := by
      cases s <;> cases hlast : lastClaim rest <;> simp [lastClaim, Signal.claim?, hlast]
    rw [hor, ih, List.filterMap_cons]
    cases s.claim? with
    | none => simp
    | some c =>
      rw [List.getLast?_cons]
      cases (rest.filterMap (·.claim?)).getLast? <;> rfl

/-- The facts that tie a state to the signals that led to it. -/
structure Accounts (ls : List (Signal α τ)) (d : Option (Delivery α τ)) : Prop where
  absent : d = none → ls = []
  attempts : ∀ x, d = some x → ls.countP (·.isClaim) = x.attempts
  published : ls.countP (·.publishes) = if d.any (·.isPublished) then 1 else 0
  lastClaim : ∀ n t e q, d = some (.leased n t e q) → lastClaim ls = some (t, e)

theorem accounts_nil : Accounts ([] : List (Signal α τ)) none :=
  ⟨fun _ => rfl, by simp, by simp, by simp⟩

/-! ## Steps -/

variable [LE τ] [LT τ]

/-- **The steps of one item.** Only a quarantined lease is resolved, and only
one that is not quarantined is claimed again, acknowledged or rejected. -/
inductive Step : Option (Delivery α τ) → Signal α τ → Option (Delivery α τ) → Prop where
  | enqueue : Step none .enqueued (some (.waiting 0))
  | claim (n : Nat) (t : α) (e now : τ) :
      Step (some (.waiting n)) (.claimed t e now) (some (.leased (n + 1) t e false))
  | reclaim (n : Nat) (t t' : α) (e e' now : τ) (expired : e ≤ now) :
      Step (some (.leased n t e false)) (.claimed t' e' now) (some (.leased (n + 1) t' e' false))
  | acknowledge (n : Nat) (t : α) (e now : τ) (live : now < e) :
      Step (some (.leased n t e false)) (.acknowledged t now) (some (.published n))
  | reject (n : Nat) (t : α) (e now : τ) (isDead : Bool) (live : now < e) :
      Step (some (.leased n t e false)) (.rejected t isDead now) (some (.rejectTo n isDead))
  | quarantine (n : Nat) (t : α) (e : τ) (q : Bool) :
      Step (some (.leased n t e q)) (.quarantined t) (some (.leased n t e true))
  | resolve (n : Nat) (t : α) (e : τ) (r : Resolution) :
      Step (some (.leased n t e true)) (.resolved r) (some (.resolveTo n r))

/-- The life of one item, from no item. -/
def life : System (Option (Delivery α τ)) (Signal α τ) := ⟨fun d => d = none, Step⟩

/-! ## What every life keeps -/

/-- One step keeps the accounts. -/
theorem Accounts.step {ls : List (Signal α τ)} {d d' : Option (Delivery α τ)} {s : Signal α τ}
    (h : Accounts ls d) (hs : Step d s d') : Accounts (ls ++ [s]) d' := by
  have hpub := h.published
  cases hs with
  | enqueue =>
    have hnil := h.absent rfl
    subst hnil
    exact ⟨by simp, by simp [Signal.isClaim, Delivery.attempts], by
      simp [Signal.publishes, Delivery.isPublished], by simp⟩
  | claim n t e now =>
    have hn := h.attempts _ rfl
    refine ⟨by simp, ?_, ?_, ?_⟩
    · rintro _ ⟨rfl⟩
      simpa [Signal.isClaim, Delivery.attempts] using hn
    · simpa [Signal.publishes, Delivery.isPublished] using hpub
    · rintro _ _ _ _ ⟨rfl⟩
      simp [lastClaim_append, LeasedDelivery.lastClaim]
  | reclaim n t t' e e' now _ =>
    have hn := h.attempts _ rfl
    refine ⟨by simp, ?_, ?_, ?_⟩
    · rintro _ ⟨rfl⟩
      simpa [Signal.isClaim, Delivery.attempts] using hn
    · simpa [Signal.publishes, Delivery.isPublished] using hpub
    · rintro _ _ _ _ ⟨rfl⟩
      simp [lastClaim_append, LeasedDelivery.lastClaim]
  | acknowledge n t e now _ =>
    have hn := h.attempts _ rfl
    refine ⟨by simp, ?_, ?_, by simp⟩
    · rintro _ ⟨rfl⟩
      simpa [Signal.isClaim, Delivery.attempts] using hn
    · simpa [Signal.publishes, Delivery.isPublished] using hpub
  | reject n t e now isDead _ =>
    have hn := h.attempts _ rfl
    refine ⟨by simp, ?_, ?_, ?_⟩
    · rintro _ ⟨rfl⟩
      cases isDead <;> simpa [Signal.isClaim, Delivery.attempts, Delivery.rejectTo] using hn
    · cases isDead <;>
        simpa [Signal.publishes, Delivery.isPublished, Delivery.rejectTo] using hpub
    · cases isDead <;> simp [Delivery.rejectTo]
  | quarantine n t e q =>
    have hn := h.attempts _ rfl
    have hlast := h.lastClaim _ _ _ _ rfl
    refine ⟨by simp, ?_, ?_, ?_⟩
    · rintro _ ⟨rfl⟩
      simpa [Signal.isClaim, Delivery.attempts] using hn
    · simpa [Signal.publishes, Delivery.isPublished] using hpub
    · rintro _ _ _ _ ⟨rfl⟩
      simp [lastClaim_append, LeasedDelivery.lastClaim, hlast]
  | resolve n t e r =>
    have hn := h.attempts _ rfl
    refine ⟨by simp, ?_, ?_, ?_⟩
    · rintro _ ⟨rfl⟩
      cases r <;> simpa [Signal.isClaim, Delivery.attempts, Delivery.resolveTo] using hn
    · cases r <;> simpa [Signal.publishes, Delivery.isPublished, Delivery.resolveTo] using hpub
    · cases r <;> simp [Delivery.resolveTo]

/-- A run keeps the accounts. -/
theorem Accounts.run {d d' : Option (Delivery α τ)} {ls more : List (Signal α τ)}
    (h : Accounts ls d) (hr : Run life d more d') : Accounts (ls ++ more) d' := by
  induction hr generalizing ls with
  | done d => simpa using h
  | next hs _ ih =>
    rw [List.append_cons]
    exact ih (h.step hs)

theorem Run.accounts {d : Option (Delivery α τ)} {ls : List (Signal α τ)}
    (h : Run life none ls d) : Accounts ls d := by
  simpa using accounts_nil.run h

/-- **An item was claimed as often as its state counts.** -/
theorem attempts_eq {d : Delivery α τ} {ls : List (Signal α τ)} (h : Run life none ls (some d)) :
    ls.countP (·.isClaim) = d.attempts :=
  (Run.accounts h).attempts d rfl

/-- **An item was published once if it is published, and not at all
otherwise.** -/
theorem published_count {d : Option (Delivery α τ)} {ls : List (Signal α τ)}
    (h : Run life none ls d) :
    ls.countP (·.publishes) = if d.any (·.isPublished) then 1 else 0 :=
  (Run.accounts h).published

/-- **A lease is that of the latest claim.** -/
theorem leased_lastClaim {n : Nat} {t : α} {e : τ} {q : Bool} {ls : List (Signal α τ)}
    (h : Run life none ls (some (.leased n t e q))) : lastClaim ls = some (t, e) :=
  (Run.accounts h).lastClaim n t e q rfl

/-! ## Finished items -/

theorem no_step_published {n : Nat} {s : Signal α τ} {d : Option (Delivery α τ)} :
    ¬Step (some (.published n)) s d := by
  intro h
  cases h

theorem no_step_dead {n : Nat} {s : Signal α τ} {d : Option (Delivery α τ)} :
    ¬Step (some (.dead n)) s d := by
  intro h
  cases h

/-- **A published item stays as it is.** -/
theorem Run.published_stays {n : Nat} {ls : List (Signal α τ)} {d : Option (Delivery α τ)}
    (h : Run life (some (.published n)) ls d) : ls = [] ∧ d = some (.published n) := by
  cases h with
  | done => exact ⟨rfl, rfl⟩
  | next hs _ => exact absurd hs no_step_published

theorem Step.leased {d d' : Option (Delivery α τ)} {s : Signal α τ} {n : Nat} {t : α} {e : τ}
    {q : Bool} (h : Step d s d') (hd : d' = some (.leased n t e q)) :
    (s.claim? = none ∧ ∃ q', d = some (.leased n t e q')) ∨ s.claim? = some (t, e) := by
  cases h with
  | claim n' t' e' now =>
    cases hd
    exact .inr rfl
  | reclaim n' t' t'' e' e'' now _ =>
    cases hd
    exact .inr rfl
  | reject n' t' e' now isDead _ => cases isDead <;> simp [Delivery.rejectTo] at hd
  | quarantine n' t' e' q' =>
    cases hd
    exact .inl ⟨rfl, q', rfl⟩
  | resolve n' t' e' r => cases r <;> simp [Delivery.resolveTo] at hd
  | _ => simp at hd

/-- **A lease is an old one, kept, or one the run claimed.** -/
theorem Run.leased_from {n : Nat} {t : α} {e : τ} {q : Bool} {ls : List (Signal α τ)}
    {d d' : Option (Delivery α τ)} (h : Run life d ls d') (hd : d' = some (.leased n t e q)) :
    (ls.filterMap (·.claim?) = [] ∧ ∃ q', d = some (.leased n t e q')) ∨
      (t, e) ∈ ls.filterMap (·.claim?) := by
  induction h with
  | done d => exact .inl ⟨rfl, q, hd⟩
  | @next d d₁ d₂ s rest hs _ ih =>
    rcases ih hd with ⟨hnone, q', hd₁⟩ | hmem
    · rcases Step.leased hs hd₁ with ⟨hclaim, hbefore⟩ | hclaim
      · exact .inl ⟨by rw [List.filterMap_cons, hclaim, hnone], hbefore⟩
      · exact .inr (by simp [hclaim])
    · refine .inr ?_
      rw [List.filterMap_cons]
      cases s.claim? with
      | none => exact hmem
      | some c => exact List.mem_cons_of_mem _ hmem

/-- The attempts a state counts; an item that is not there counts none. -/
def attemptsOf (d : Option (Delivery α τ)) : Nat := d.elim 0 (·.attempts)

theorem Step.attempts {d d' : Option (Delivery α τ)} {s : Signal α τ} (h : Step d s d') :
    attemptsOf d' = attemptsOf d + (if s.isClaim then 1 else 0) ∧ d'.isSome = true := by
  cases h with
  | reject n t e now isDead _ => cases isDead <;> exact ⟨rfl, rfl⟩
  | resolve n t e r => cases r <;> exact ⟨rfl, rfl⟩
  | _ => exact ⟨rfl, rfl⟩

/-- **A run adds one attempt for each claim**, and an item that is there stays. -/
theorem Run.attempts {d d' : Option (Delivery α τ)} {ls : List (Signal α τ)}
    (h : Run life d ls d') :
    attemptsOf d' = attemptsOf d + ls.countP (·.isClaim) ∧ (d.isSome = true → d'.isSome = true) := by
  induction h with
  | done d => exact ⟨rfl, id⟩
  | next hs _ ih =>
    obtain ⟨hstep, hsome⟩ := Step.attempts hs
    obtain ⟨hrest, hstays⟩ := ih
    rw [List.countP_cons]
    exact ⟨by omega, fun _ => hstays hsome⟩

/-- **A dead item stays as it is.** -/
theorem Run.dead_stays {n : Nat} {ls : List (Signal α τ)} {d : Option (Delivery α τ)}
    (h : Run life (some (.dead n)) ls d) : ls = [] ∧ d = some (.dead n) := by
  cases h with
  | done => exact ⟨rfl, rfl⟩
  | next hs _ => exact absurd hs no_step_dead

/-- An item that no claim takes: quarantined, or finished. -/
def Delivery.isShut : Delivery α τ → Bool
  | .leased _ _ _ q => q
  | .published _ | .dead _ => true
  | .waiting _ => false

/-- **A shut item stays shut and unclaimed**, unless it is given back. -/
theorem Step.shut {d d' : Option (Delivery α τ)} {s : Signal α τ} (h : Step d s d')
    (hshut : d.any (·.isShut) = true) (hretry : s ≠ .resolved .retry) :
    d'.any (·.isShut) = true ∧ s.claim? = none := by
  cases h with
  | quarantine => exact ⟨rfl, rfl⟩
  | resolve n t e r =>
    cases r with
    | retry => exact absurd rfl hretry
    | _ => exact ⟨rfl, rfl⟩
  | _ => exact absurd hshut (by simp [Delivery.isShut])

end LeasedDelivery
