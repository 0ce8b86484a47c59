import QuantumEntanglement.Tenancy.Scopes

/-
  Wildcards — one action is within another exactly if it covers no more

  `actionIsSubset` compares two grants by their texts. What it should decide is
  about requests: whether every concrete action the child covers is one the
  parent covers. The one direction is `covers_of_subset`. For the other, a pair
  it rejects is told apart by a request: below a child's wildcard there is
  always an action with one more segment, and a prefix that is no dotted
  ancestor does not reach it.

  What is proved:
    1. `isAction_below` — a wildcard's stem with one more segment is an action.
    2. `separated` — a rejected pair is told apart by a request.
    3. `subset_exact` — **the comparison is exact**, and so reflexive and
       transitive.
-/

namespace QuantumEntanglement.Tenancy

/-! ## Actions below a wildcard -/

theorem isDotted_dot {c : Char} {rest : List Char} (h : isActionChar c = true) :
    isDotted ('.' :: c :: rest) = isDotted rest := by
  rw [isDotted, h, Bool.true_and]
  intro hstar _
  rw [hstar] at h
  cases h

theorem isActionChar_of_dot {c : Char} {rest : List Char} (hrest : rest ≠ [])
    (h : isDotted ('.' :: c :: rest) = true) : isActionChar c = true := by
  rw [isDotted, Bool.and_eq_true] at h
  · exact h.1
  · intro _ hnil
    exact absurd hnil hrest

theorem isDotted_char {c : Char} {rest : List Char} (h : c ≠ '.') :
    isDotted (c :: rest) = (isActionChar c && isDotted rest) := by
  rw [isDotted]
  · intro hc _
    exact h hc
  · intro hc _
    exact h hc
  · intro _ _ hc _
    exact h hc

/-- What stands before `.*` has no star, and any other ending may stand after
it. -/
theorem isDotted_stem : ∀ (n : Nat) (s t : List Char), s.length ≤ n →
    isDotted (s ++ ['.', '*']) = true → isDotted t = true →
    '*' ∉ s ∧ isDotted (s ++ t) = true
  | _, [], _, _, _, ht => ⟨List.not_mem_nil, ht⟩
  | n + 1, c :: rest, t, hn, h, ht => by
    by_cases hdot : c = '.'
    · subst hdot
      cases rest with
      | nil => simp [isDotted, isActionChar] at h
      | cons c rest =>
        rw [List.cons_append, List.cons_append] at h
        have hc := isActionChar_of_dot (by simp) h
        rw [isDotted_dot hc] at h
        obtain ⟨hstar, hrest⟩ := isDotted_stem n rest t (by simp at hn; omega) h ht
        refine ⟨?_, ?_⟩
        · intro hmem
          rcases List.mem_cons.mp hmem with heq | hmem
          · simp at heq
          · rcases List.mem_cons.mp hmem with heq | hmem
            · rw [← heq] at hc
              cases hc
            · exact hstar hmem
        · rw [List.cons_append, List.cons_append, isDotted_dot hc]
          exact hrest
    · rw [List.cons_append, isDotted_char hdot, Bool.and_eq_true] at h
      obtain ⟨hstar, hrest⟩ := isDotted_stem n rest t (by simpa using hn) h.2 ht
      refine ⟨?_, ?_⟩
      · intro hmem
        rcases List.mem_cons.mp hmem with heq | hmem
        · rw [← heq] at h
          cases h.1
        · exact hstar hmem
      · rw [List.cons_append, isDotted_char hdot, Bool.and_eq_true]
        exact ⟨h.1, hrest⟩

/-- A wildcard's stem is an action, without a star. -/
theorem stem_of_wildcard {value : String} {stem : List Char} (h : isAction value = true)
    (hstem : value.toList = stem ++ ['.', '*']) :
    ∃ c rest, stem = c :: rest ∧ ('a' ≤ c && c ≤ 'z') = true ∧ '*' ∉ stem ∧
      isDotted (rest ++ ['.', '*']) = true := by
  have hne : value ≠ "*" := by
    intro heq
    rw [heq] at hstem
    have hlen := congrArg List.length hstem
    simp at hlen
  rw [isAction, Bool.or_eq_true, hstem] at h
  have hlist := h.resolve_left (fun heq => hne (by simpa using heq))
  cases stem with
  | nil => simp at hlist
  | cons c rest =>
    simp only [List.cons_append, Bool.and_eq_true] at hlist
    have hstar := (isDotted_stem rest.length rest ['a'] (Nat.le_refl _) hlist.2 (by decide)).1
    refine ⟨c, rest, rfl, by simpa using hlist.1, ?_, hlist.2⟩
    intro hmem
    rcases List.mem_cons.mp hmem with heq | hmem
    · rw [← heq] at hlist
      simp at hlist
    · exact hstar hmem

/-- An action of this text, if it ends in no star, can be requested. -/
theorem isRequested_of {cs : List Char} (hstar : '*' ∉ cs) {c : Char} {rest : List Char}
    (hcs : cs = c :: rest) (hc : ('a' ≤ c && c ≤ 'z') = true) (hd : isDotted rest = true) :
    isRequestedAction (String.ofList cs) = true := by
  have haction : isAction (String.ofList cs) = true := by
    rw [isAction, String.toList_ofList, hcs]
    simp [hc, hd]
  have hnstar : ∀ value : String, '*' ∈ value.toList → String.ofList cs ≠ value := by
    intro value hmem heq
    rw [← heq, String.toList_ofList] at hmem
    exact hstar hmem
  have hwild : isWildcard (String.ofList cs) = false := by
    rw [Bool.eq_false_iff]
    intro hw
    obtain ⟨stem, hstem⟩ := isWildcard_iff.mp hw
    rw [String.toList_ofList] at hstem
    rw [hstem] at hstar
    simp at hstar
  simp [isRequestedAction, haction, hwild, hnstar "*" (by simp)]

/-- **A wildcard's stem, with nothing after it or with one more segment, is an
action that can be requested.** -/
theorem exists_request {value : String} {stem : List Char} (h : isAction value = true)
    (hstem : value.toList = stem ++ ['.', '*']) (more : List Char) (hd : isDotted more = true)
    (hstar : '*' ∉ more) :
    ∃ requested : RequestedAction, requested.text.toList = stem ++ more := by
  obtain ⟨c, rest, hcons, hc, hnone, hdotted⟩ := stem_of_wildcard h hstem
  have hbelow := (isDotted_stem rest.length rest more (Nat.le_refl _) hdotted hd).2
  have hvalid := @isRequested_of (stem ++ more) (by simp [hnone, hstar]) c (rest ++ more)
    (by rw [hcons]; rfl) hc hbelow
  exact ⟨⟨_, hvalid⟩, String.toList_ofList⟩

/-! ## Requests that tell grants apart -/

/-- An action that is neither `*` nor a wildcard can be requested. -/
theorem isRequested_of_exact {a : Action} (hstar : a.text ≠ "*")
    (hwild : isWildcard a.text = false) : isRequestedAction a.text = true := by
  rw [isRequestedAction, a.valid, hwild]
  simp [hstar]

/-- An exact grant covers one request. -/
theorem covers_exact {a : Action} {requested : RequestedAction} (hstar : a.text ≠ "*")
    (hwild : isWildcard a.text = false) (h : actionCovers a requested = true) :
    a.text = requested.text := by
  rcases actionCovers_iff.mp h with heq | heq | ⟨stem, hstem, -⟩
  · exact absurd heq hstar
  · exact heq
  · rw [isWildcard_iff.mpr ⟨stem, hstem⟩] at hwild
    cases hwild

/-- Of two requests an exact grant does not cover both. -/
theorem not_both {a : Action} {r r' : RequestedAction} (hstar : a.text ≠ "*")
    (hwild : isWildcard a.text = false) (hne : r.text ≠ r'.text) :
    actionCovers a r = false ∨ actionCovers a r' = false := by
  by_cases hr : actionCovers a r = true
  · right
    rw [Bool.eq_false_iff]
    intro hr'
    exact hne ((covers_exact hstar hwild hr).symm.trans (covers_exact hstar hwild hr'))
  · exact .inl (Bool.eq_false_iff.mpr hr)

/-- Two requests that differ. -/
theorem two_requests : ∃ r r' : RequestedAction, r.text ≠ r'.text :=
  ⟨⟨"a", by decide⟩, ⟨"b", by decide⟩, by decide⟩

/-- A wildcard covers what begins with its stem and a dot, and nothing else. -/
theorem covers_wildcard {a : Action} {requested : RequestedAction} {stem : List Char}
    (hstem : a.text.toList = stem ++ ['.', '*']) :
    actionCovers a requested = true ↔ (stem ++ ['.']) <+: requested.text.toList := by
  have hwild : isWildcard a.text = true := isWildcard_iff.mpr ⟨stem, hstem⟩
  rw [actionCovers_iff]
  constructor
  · intro h
    rcases h with htop | hsame | ⟨stem', hstem', hp⟩
    · rw [htop] at hstem
      have hlen := congrArg List.length hstem
      simp at hlen
    · have hvalid := requested.valid
      rw [isRequestedAction, Bool.and_eq_true, ← hsame, hwild] at hvalid
      simp at hvalid
    · rw [hstem] at hstem'
      rw [List.append_cancel_right hstem']
      exact hp
  · intro hp
    exact .inr (.inr ⟨stem, hstem, hp⟩)

/-- A child that `*` stands for, below a parent that is not. -/
theorem separated_top {parent child : Action} (hchild : child.text = "*")
    (hparent : parent.text ≠ "*") :
    ∃ requested, actionCovers child requested = true ∧ actionCovers parent requested = false := by
  have hall : ∀ requested, actionCovers child requested = true :=
    fun _ => actionCovers_iff.mpr (.inl hchild)
  by_cases hwild : isWildcard parent.text = true
  · obtain ⟨stem, hstem⟩ := isWildcard_iff.mp hwild
    obtain ⟨requested, htext⟩ := exists_request parent.valid hstem [] rfl List.not_mem_nil
    refine ⟨requested, hall requested, Bool.eq_false_iff.mpr (fun hcovers => ?_)⟩
    -- the stem itself is too short to lie below the stem
    have hlen := ((covers_wildcard hstem).mp hcovers).length_le
    rw [htext] at hlen
    simp at hlen
  · obtain ⟨r, r', hne⟩ := two_requests
    rcases not_both hparent (Bool.eq_false_iff.mpr hwild) hne with h | h
    · exact ⟨r, hall r, h⟩
    · exact ⟨r', hall r', h⟩

/-- A child wildcard that is not below the parent. -/
theorem separated_wildcard {parent child : Action} {stem : List Char}
    (hstem : child.text.toList = stem ++ ['.', '*']) (hparent : parent.text ≠ "*")
    (hbelow : ∀ stem', parent.text.toList = stem' ++ ['.', '*'] →
      stem ≠ stem' ∧ ¬ (stem' ++ ['.']) <+: stem) :
    ∃ requested, actionCovers child requested = true ∧ actionCovers parent requested = false := by
  obtain ⟨r, hr⟩ := exists_request child.valid hstem ['.', 'a'] (by decide) (by decide)
  obtain ⟨r', hr'⟩ := exists_request child.valid hstem ['.', 'b'] (by decide) (by decide)
  have hcovers : ∀ {requested : RequestedAction} {c : Char},
      requested.text.toList = stem ++ ['.', c] → actionCovers child requested = true := by
    intro requested c htext
    rw [covers_wildcard hstem, htext]
    exact ⟨[c], by simp⟩
  by_cases hwild : isWildcard parent.text = true
  · obtain ⟨stem', hstem'⟩ := isWildcard_iff.mp hwild
    obtain ⟨hne, hnot⟩ := hbelow stem' hstem'
    refine ⟨r, hcovers hr, Bool.eq_false_iff.mpr (fun h => ?_)⟩
    rw [covers_wildcard hstem', hr] at h
    -- `stem'.` begins `stem.a`: it is all of it, ends at its dot, or ends before
    rw [show stem ++ ['.', 'a'] = (stem ++ ['.']) ++ ['a'] by simp, List.prefix_concat_iff] at h
    rcases h with hwhole | h
    · have hlast := (List.append_inj' hwhole rfl).2
      simp at hlast
    · rcases List.prefix_concat_iff.mp h with hdot | hin
      · exact hne (List.append_inj' hdot rfl).1.symm
      · exact hnot hin
  · have hne : r.text ≠ r'.text := by
      intro heq
      rw [← String.toList_inj, hr, hr'] at heq
      simp at heq
    rcases not_both hparent (Bool.eq_false_iff.mpr hwild) hne with h | h
    · exact ⟨r, hcovers hr, h⟩
    · exact ⟨r', hcovers hr', h⟩

/-- **A pair that is rejected is told apart by a request.** -/
theorem separated {parent child : Action} (h : actionIsSubset parent child = false) :
    ∃ requested, actionCovers child requested = true ∧ actionCovers parent requested = false := by
  unfold actionIsSubset at h
  split at h
  · cases h
  next hparent =>
    split at h
    next htop => exact separated_top htop hparent
    next hchild =>
      split at h
      · cases h
      next hne =>
        by_cases hcw : isWildcard child.text = true
        · obtain ⟨stem, hstem⟩ := isWildcard_iff.mp hcw
          refine separated_wildcard hstem hparent (fun stem' hstem' => ?_)
          have hpw : isWildcard parent.text = true := isWildcard_iff.mpr ⟨stem', hstem'⟩
          rw [hpw, hcw, (wildcard_stem hstem).1, (wildcard_stem hstem').1] at h
          simp only [Bool.not_true, Bool.false_eq_true, if_false, if_true, Bool.or_eq_false_iff,
            beq_eq_false_iff_ne] at h
          refine ⟨h.1, fun hp => ?_⟩
          rw [List.isPrefixOf_iff_prefix.mpr hp] at h
          cases h.2
        · rw [Bool.not_eq_true] at hcw
          -- the child is a request itself
          refine ⟨⟨child.text, isRequested_of_exact hchild hcw⟩,
            actionCovers_iff.mpr (.inr (.inl rfl)), Bool.eq_false_iff.mpr (fun hcovers => ?_)⟩
          rcases actionCovers_iff.mp hcovers with heq | heq | ⟨stem, hstem, hp⟩
          · exact hparent heq
          · exact hne heq
          · rw [isWildcard_iff.mpr ⟨stem, hstem⟩, hcw, (wildcard_stem hstem).1] at h
            simp only [Bool.not_true, Bool.false_eq_true, if_false] at h
            rw [List.isPrefixOf_iff_prefix.mpr hp] at h
            cases h

theorem subset_iff_covers {parent child : Action} :
    actionIsSubset parent child = true ↔
      ∀ requested, actionCovers child requested = true → actionCovers parent requested = true := by
  constructor
  · intro h requested hcovers
    exact covers_of_subset h hcovers
  · intro h
    by_contra hnot
    obtain ⟨requested, hchild, hparent⟩ := separated (Bool.eq_false_iff.mpr hnot)
    rw [h requested hchild] at hparent
    cases hparent

/-- **The comparison of actions is exact**: the child is within the parent
exactly if the parent covers every request the child covers; so it is reflexive
and transitive. -/
theorem subset_exact :
    (∀ parent child : Action, actionIsSubset parent child = true ↔
      ∀ requested, actionCovers child requested = true →
        actionCovers parent requested = true) ∧
    (∀ a : Action, actionIsSubset a a = true) ∧
    (∀ a b c : Action, actionIsSubset a b = true → actionIsSubset b c = true →
      actionIsSubset a c = true) := by
  refine ⟨fun _ _ => subset_iff_covers, fun _ => ?_, fun _ _ _ hab hbc => ?_⟩
  · exact subset_iff_covers.mpr (fun _ h => h)
  · exact subset_iff_covers.mpr (fun requested h => covers_of_subset hab (covers_of_subset hbc h))

-- A prefix that is no dotted ancestor: `ab` is not below `a.*`.
example : actionIsSubset ⟨"a.*", by decide⟩ ⟨"a.b.*", by decide⟩ = true ∧
    actionIsSubset ⟨"a.*", by decide⟩ ⟨"ab.*", by decide⟩ = false := by decide

end QuantumEntanglement.Tenancy
