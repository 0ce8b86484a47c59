import QuantumEntanglement.Lib.PyJson

/-
  Actions and resource scopes — what a grant covers, and when one grant is
  within another

  A grant names an action, exactly or with a trailing wildcard, and selects
  resources of a tenant. A request names one action and one resource.
  `actionIsSubset` and `ResourceScope.contains` compare two grants, and the
  point of the comparison is `covers_of_subset`: what the smaller one covers
  the larger one covers.

  A value of these types has passed the constructor's checks, which are its
  proof fields, so a function that checks its arguments again does not raise.
-/

namespace QuantumEntanglement.Tenancy

open PyJson PyText

/-! ## Identifiers and texts -/

def isIdChar (c : Char) : Bool := c.isAlphanum || c == '.' || c == '_' || c == ':' || c == '-'

/-- `_OPAQUE_ID`, which `_KID` repeats. -/
def isOpaqueId (value : String) : Bool :=
  match value.toList with
  | [] => false
  | c :: rest => c.isAlphanum && rest.all isIdChar && rest.length ≤ 127

/-- `_require_text` accepts the value. -/
def isText (maximum : Nat) (value : String) : Bool :=
  !isBlank value && strip value == value && value.length ≤ maximum

structure TenantId where
  value : String
  valid : isOpaqueId value = true
  deriving DecidableEq

structure WorkspaceId where
  value : String
  valid : isOpaqueId value = true
  deriving DecidableEq

/-! ## Actions -/

def isActionChar (c : Char) : Bool := ('a' ≤ c && c ≤ 'z') || c.isDigit || c == '_' || c == '-'

/-- `[a-z0-9_-]*(?:\.[a-z0-9_-]+)*(?:\.\*)?` -/
def isDotted : List Char → Bool
  | [] => true
  | ['.'] => false
  | ['.', '*'] => true
  | '.' :: c :: rest => isActionChar c && isDotted rest
  | c :: rest => isActionChar c && isDotted rest

/-- `_ACTION`. -/
def isAction (value : String) : Bool :=
  value == "*" ||
    match value.toList with
    | [] => false
    | c :: rest => ('a' ≤ c && c ≤ 'z') && isDotted rest

/-- `value.endswith(".*")`. -/
def isWildcard (value : String) : Bool := ".*".toList.isSuffixOf value.toList

/-- `_require_requested_action` accepts the value. -/
def isRequestedAction (value : String) : Bool :=
  isAction value && value != "*" && !isWildcard value

structure Action where
  text : String
  valid : isAction text = true
  deriving DecidableEq

structure RequestedAction where
  text : String
  valid : isRequestedAction text = true
  deriving DecidableEq

/-- `action_covers`. -/
def actionCovers (granted : Action) (requested : RequestedAction) : Bool :=
  granted.text == "*" || granted.text == requested.text ||
    (isWildcard granted.text && granted.text.toList.dropLast.isPrefixOf requested.text.toList)

/-- A wildcard without its `.*`. -/
def actionPrefix (value : String) : List Char := value.toList.dropLast.dropLast

/-- `action_is_subset`. -/
def actionIsSubset (parent child : Action) : Bool :=
  if parent.text = "*" then true
  else if child.text = "*" then false
  else if parent.text = child.text then true
  else if !isWildcard parent.text then false
  else if isWildcard child.text then
    actionPrefix child.text == actionPrefix parent.text ||
      (actionPrefix parent.text ++ ['.']).isPrefixOf (actionPrefix child.text)
  else (actionPrefix parent.text ++ ['.']).isPrefixOf child.text.toList

/-! ## Resources -/

/-- What a scope and a reference both name. -/
structure Selector where
  tenantId : TenantId
  workspaceId : Option WorkspaceId
  resourceType : String
  resourceId : String
  deriving DecidableEq

/-- Concrete resource targeted by an access request. -/
structure ResourceRef extends Selector where
  typed : isOpaqueId resourceType = true
  named : isText 512 resourceId = true
  concrete : resourceId ≠ "*"
  deriving DecidableEq

/-- Tenant, optional workspace, and resource selector; `none` is tenant-wide. -/
structure ResourceScope extends Selector where
  typed : resourceType = "*" ∨ isOpaqueId resourceType = true
  named : isText 512 resourceId = true
  selects : resourceType = "*" → resourceId = "*"
  deriving DecidableEq

/-- `ResourceScope.contains`. -/
def ResourceScope.contains (scope : ResourceScope) (candidate : Selector) : Bool :=
  if scope.tenantId ≠ candidate.tenantId then false
  else if scope.workspaceId ≠ none ∧ scope.workspaceId ≠ candidate.workspaceId then false
  else if scope.resourceType ≠ "*" ∧ scope.resourceType ≠ candidate.resourceType then false
  else if scope.resourceId ≠ "*" ∧ scope.resourceId ≠ candidate.resourceId then false
  else true

/-- `to_dict` of both. -/
def Selector.toDict (s : Selector) : Value :=
  .dict
    [("tenantId", .str s.tenantId.value),
      ("workspaceId", match s.workspaceId with
        | some w => .str w.value
        | none => .null),
      ("resourceType", .str s.resourceType),
      ("resourceId", .str s.resourceId)]

/-! ## One grant within another -/

theorem isWildcard_iff {value : String} :
    isWildcard value = true ↔ ∃ stem, value.toList = stem ++ ['.', '*'] := by
  rw [isWildcard, List.isSuffixOf_iff_suffix]
  exact ⟨fun ⟨stem, h⟩ => ⟨stem, h.symm⟩, fun ⟨stem, h⟩ => ⟨stem, h.symm⟩⟩

/-- A wildcard's stem, and what requests have to begin with. -/
theorem wildcard_stem {value : String} {stem : List Char} (h : value.toList = stem ++ ['.', '*']) :
    actionPrefix value = stem ∧ value.toList.dropLast = stem ++ ['.'] := by
  have hdrop : value.toList.dropLast = stem ++ ['.'] := by
    rw [h, show stem ++ ['.', '*'] = (stem ++ ['.']) ++ ['*'] by simp, List.dropLast_concat]
  exact ⟨by rw [actionPrefix, hdrop, List.dropLast_concat], hdrop⟩

theorem actionCovers_iff {granted : Action} {requested : RequestedAction} :
    actionCovers granted requested = true ↔ granted.text = "*" ∨ granted.text = requested.text ∨
      ∃ stem, granted.text.toList = stem ++ ['.', '*'] ∧ (stem ++ ['.']) <+: requested.text.toList := by
  simp only [actionCovers, Bool.or_eq_true, Bool.and_eq_true, beq_iff_eq, isWildcard_iff,
    List.isPrefixOf_iff_prefix, or_assoc]
  refine or_congr_right (or_congr_right ⟨?_, ?_⟩)
  · rintro ⟨⟨stem, h⟩, hp⟩
    exact ⟨stem, h, (wildcard_stem h).2 ▸ hp⟩
  · rintro ⟨stem, h, hp⟩
    exact ⟨⟨stem, h⟩, (wildcard_stem h).2 ▸ hp⟩

/-- What is within a grant, other than the grant itself, begins with its stem. -/
theorem actionIsSubset_cases {parent child : Action} (h : actionIsSubset parent child = true) :
    parent.text = "*" ∨ parent.text = child.text ∨
      ∃ stem, parent.text.toList = stem ++ ['.', '*'] ∧ child.text ≠ "*" ∧
        ((∃ more, child.text.toList = more ++ ['.', '*'] ∧ (more = stem ∨ (stem ++ ['.']) <+: more)) ∨
          (isWildcard child.text = false ∧ (stem ++ ['.']) <+: child.text.toList)) := by
  unfold actionIsSubset at h
  split at h
  next htop => exact .inl htop
  · split at h
    · simp at h
    next hchild =>
      split at h
      next hsame => exact .inr (.inl hsame)
      · split at h
        · simp at h
        next hwild =>
          simp only [Bool.not_eq_true', Bool.not_eq_false] at hwild
          obtain ⟨stem, hstem⟩ := isWildcard_iff.mp hwild
          rw [(wildcard_stem hstem).1] at h
          refine .inr (.inr ⟨stem, hstem, hchild, ?_⟩)
          split at h
          next hcw =>
            obtain ⟨more, hmore⟩ := isWildcard_iff.mp hcw
            rw [(wildcard_stem hmore).1] at h
            simp only [Bool.or_eq_true, beq_iff_eq, List.isPrefixOf_iff_prefix] at h
            exact .inl ⟨more, hmore, h⟩
          next hcw =>
            exact .inr ⟨by simpa using hcw, List.isPrefixOf_iff_prefix.mp h⟩

/-- **What the smaller action covers, the larger covers.** -/
theorem covers_of_subset {parent child : Action} {requested : RequestedAction}
    (hsub : actionIsSubset parent child = true) (h : actionCovers child requested = true) :
    actionCovers parent requested = true := by
  rw [actionCovers_iff] at h ⊢
  rcases actionIsSubset_cases hsub with htop | hsame | ⟨stem, hstem, hchild, hbelow⟩
  · exact .inl htop
  · rw [hsame]
    exact h
  · refine .inr (.inr ⟨stem, hstem, ?_⟩)
    have hrequest := requested.valid
    simp only [isRequestedAction, Bool.and_eq_true, Bool.not_eq_true'] at hrequest
    rcases h with h | h | ⟨more, hmore, hp⟩
    · exact absurd h hchild
    · -- the child is the request itself, so it is no wildcard
      rcases hbelow with ⟨more, hmore, -⟩ | ⟨-, hp⟩
      · have hwild : isWildcard requested.text = true := isWildcard_iff.mpr ⟨more, h ▸ hmore⟩
        rw [hrequest.2] at hwild
        exact absurd hwild (by simp)
      · exact h ▸ hp
    · rcases hbelow with ⟨more', hmore', hcases⟩ | ⟨hnot, -⟩
      · obtain rfl : more' = more := by
          have := (wildcard_stem hmore').1.symm.trans (wildcard_stem hmore).1
          exact this
        rcases hcases with rfl | hbelow'
        · exact hp
        · exact (hbelow'.trans (List.prefix_append _ _)).trans hp
      · rw [isWildcard_iff.mpr ⟨more, hmore⟩] at hnot
        exact absurd hnot (by simp)

theorem contains_iff {scope : ResourceScope} {candidate : Selector} :
    scope.contains candidate = true ↔ scope.tenantId = candidate.tenantId ∧
      (scope.workspaceId = none ∨ scope.workspaceId = candidate.workspaceId) ∧
      (scope.resourceType = "*" ∨ scope.resourceType = candidate.resourceType) ∧
      (scope.resourceId = "*" ∨ scope.resourceId = candidate.resourceId) := by
  unfold ResourceScope.contains
  by_cases h₁ : scope.tenantId = candidate.tenantId <;>
    by_cases h₂ : scope.workspaceId = none ∨ scope.workspaceId = candidate.workspaceId <;>
    by_cases h₃ : scope.resourceType = "*" ∨ scope.resourceType = candidate.resourceType <;>
    by_cases h₄ : scope.resourceId = "*" ∨ scope.resourceId = candidate.resourceId <;>
    simp_all [← not_or]

/-- **What the smaller scope contains, the larger contains.** -/
theorem contains_trans {parent child : ResourceScope} {candidate : Selector}
    (h : parent.contains child.toSelector = true) (h' : child.contains candidate = true) :
    parent.contains candidate = true := by
  rw [contains_iff] at *
  obtain ⟨ht, hw, hr, hi⟩ := h
  obtain ⟨ht', hw', hr', hi'⟩ := h'
  refine ⟨ht.trans ht', ?_, ?_, ?_⟩
  · rcases hw with hw | hw
    · exact .inl hw
    · rw [hw]
      exact hw'
  · rcases hr with hr | hr
    · exact .inl hr
    · rw [hr]
      exact hr'
  · rcases hi with hi | hi
    · exact .inl hi
    · rw [hi]
      exact hi'

end QuantumEntanglement.Tenancy
