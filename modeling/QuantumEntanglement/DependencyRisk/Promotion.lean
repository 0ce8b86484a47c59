import QuantumEntanglement.DependencyRisk.RiskRecords

/-
  Promotion — a scan against a policy, violations against exceptions

  A scan is promoted if its bindings agree with the evidence and with the
  policy and the exceptions excuse its violations, one each and none left over.
  The exceptions are put into a dictionary under the violation they excuse, the
  violations are gathered and looked up there, and what was used is compared
  with what there is. That no exception is left over is part of the decision:
  a policy that excuses what is not found is refused.

  What is proved:
    1. `exceptionByKey_ok`, `gather_ok`, `useExceptions_ok` — the three loops.
    2. `promotes_iff` — the decision.
    3. `dependency_risk_laws` — the decision, and what a promotion does not survive.
    4. `removal_promotes` — a refusal that the removal of an exception ends.
-/

namespace QuantumEntanglement.DependencyRisk

open PyJson PyText Checked IsoTime Calendar

/-! ## Policies, results and evidence -/

structure ScannerIdentity where
  name : String
  version : String
  sha256 : String
  deriving DecidableEq

structure ApprovedDatabase where
  source : String
  revision : String
  sha256 : String
  deriving DecidableEq

structure DependencyRiskPolicy where
  promotionEnabled : Bool
  allowedScanners : List ScannerIdentity
  approvedDatabases : List ApprovedDatabase
  maximumDatabaseAgeSeconds : Int
  maximumDatabaseValiditySeconds : Int
  maximumResultAgeSeconds : Int
  blockAtOrAbove : Severity
  blockWhenFixAvailableAtOrAbove : Severity
  allowedLicenseExpressions : List String
  exceptions : ExceptionRecords
  sha256 : String

structure ArtifactBinding where
  kind : String
  filename : String
  byteSize : Nat
  sha256 : String
  deriving DecidableEq

structure FileBinding where
  byteSize : Nat
  sha256 : String
  deriving DecidableEq

structure LockTargetBinding where
  scope : String
  pythonVersion : String
  platform : String
  inputSha256 : String
  lockSha256 : String
  deriving DecidableEq

structure LockInventoryBinding where
  inventorySha256 : String
  lockPolicySha256 : String
  packageRecordCount : Nat
  targetCount : Nat
  targets : List LockTargetBinding
  deriving DecidableEq

structure SbomBinding where
  kind : String
  filename : String
  byteSize : Nat
  sha256 : String
  deriving DecidableEq

/-- `_INTEGRITY_STATUSES`. -/
inductive IntegrityStatus where
  | verified
  | unverified
  | failed
  deriving DecidableEq

structure DatabaseEvidence where
  filename : String
  byteSize : Nat
  sha256 : String
  source : String
  revision : String
  fetchedAt : Moment
  expiresAt : Moment
  integrityStatus : IntegrityStatus

structure DependencyRiskResult where
  projectName : String
  projectVersion : String
  commitSha : String
  treeSha : String
  artifacts : List ArtifactBinding
  distributionManifest : FileBinding
  lockInventory : LockInventoryBinding
  sboms : List SbomBinding
  scanner : ScannerIdentity
  database : DatabaseEvidence
  completedAt : Moment
  scanStatus : ScanStatus
  components : ComponentScans
  promotionPolicySha256 : String
  sha256 : String

structure ExpectedComponent where
  purl : String
  artifactSha256 : List String
  deriving DecidableEq

structure RiskEvidenceContext where
  projectName : String
  projectVersion : String
  commitSha : String
  treeSha : String
  artifacts : List ArtifactBinding
  distributionManifest : FileBinding
  lockInventory : LockInventoryBinding
  sboms : List SbomBinding
  components : List ExpectedComponent
  promotionPolicySha256 : String

structure RiskVerificationSummary where
  componentCount : Nat
  findingCount : Nat
  appliedExceptionCount : Nat
  policySha256 : String
  resultSha256 : String
  databaseSha256 : String
  lockInventorySha256 : String
  evaluationTime : String

/-! ## The checks -/

/-- `if not condition: _fail(code)`. -/
def require (condition : Prop) [Decidable condition] (code : String) : Except RiskError Unit :=
  if condition then .ok () else fail code

theorem require_ok {condition : Prop} [Decidable condition] {code : String} {u : Unit} :
    require condition code = .ok u ↔ condition := by
  rw [require]
  split
  next h => exact ⟨fun _ => h, fun _ => rfl⟩
  next h => exact ⟨(fun heq => nomatch heq), (fun hc => absurd hc h)⟩

/-- `_context_matches`. -/
def contextMatches (result : DependencyRiskResult) (context : RiskEvidenceContext) : Except RiskError Unit := do
  require (result.projectName = context.projectName ∧ result.projectVersion = context.projectVersion ∧
    result.commitSha = context.commitSha ∧ result.treeSha = context.treeSha) "risk_source_drift"
  require (result.artifacts = context.artifacts ∧ result.distributionManifest = context.distributionManifest)
    "risk_manifest_drift"
  require (result.lockInventory = context.lockInventory) "risk_lock_drift"
  require (result.sboms = context.sboms) "risk_sbom_drift"
  require (result.promotionPolicySha256 = context.promotionPolicySha256) "risk_policy_drift"

/-- The database a result was made with. -/
def DatabaseEvidence.approved (database : DatabaseEvidence) : ApprovedDatabase :=
  ⟨database.source, database.revision, database.sha256⟩

/-- `_approved_identity`. -/
def approvedIdentity (policy : DependencyRiskPolicy) (result : DependencyRiskResult) : Except RiskError Unit := do
  require (result.scanner ∈ policy.allowedScanners) "risk_scanner_unapproved"
  require (result.database.approved ∈ policy.approvedDatabases) "risk_database_unapproved"
  require (result.database.integrityStatus = .verified) "risk_database_integrity_unverified"

/-- `_verify_time_window`. -/
def verifyTimeWindow (policy : DependencyRiskPolicy) (result : DependencyRiskResult) (evaluationTime : Moment) :
    Except RiskError Unit := do
  require (result.completedAt ≤ evaluationTime) "risk_result_from_future"
  require (result.completedAt < result.database.expiresAt) "risk_result_stale"
  let databaseAge := wholeSeconds evaluationTime result.database.fetchedAt
  let resultAge := wholeSeconds evaluationTime result.completedAt
  let validity := wholeSeconds result.database.expiresAt result.database.fetchedAt
  require (0 ≤ databaseAge ∧ evaluationTime < result.database.expiresAt ∧
    databaseAge ≤ policy.maximumDatabaseAgeSeconds ∧ validity ≤ policy.maximumDatabaseValiditySeconds)
    "risk_database_stale"
  require (0 ≤ resultAge ∧ resultAge ≤ policy.maximumResultAgeSeconds) "risk_result_stale"

def ComponentScan.expected (component : ComponentScan) : ExpectedComponent :=
  ⟨component.purl, component.artifactSha256⟩

/-- `_verify_component_coverage`. -/
def verifyComponentCoverage (result : DependencyRiskResult) (context : RiskEvidenceContext) :
    Except RiskError Unit := do
  require (result.components.scans.map ComponentScan.expected = context.components)
    "risk_component_coverage_mismatch"
  require (result.scanStatus = .complete ∧ ∀ c ∈ result.components.scans, c.scanStatus = .complete)
    "risk_scan_incomplete"

/-! ## Violations and exceptions -/

structure Violation where
  kind : Kind
  purl : String
  subject : Option String
  findingSha256 : String
  deriving DecidableEq

/-- `_exception_key`. -/
def exceptionKey (e : RiskException) : Violation := ⟨e.kind, e.purl, e.subject, e.findingSha256⟩

/-- `exception_by_key`. -/
abbrev ExceptionIndex : Type := Violation → Option RiskException

def ExceptionIndex.insert (index : ExceptionIndex) (e : RiskException) : ExceptionIndex :=
  fun v => if v = exceptionKey e then some e else index v

/-- The loop over the exceptions. -/
def exceptionByKey (databaseSha256 : String) (evaluationTime : Moment) (index : ExceptionIndex) :
    List RiskException → Except RiskError ExceptionIndex
  | [] => .ok index
  | e :: rest => do
    require (e.databaseSha256 = databaseSha256) "risk_exception_database_mismatch"
    require (e.issuedAt ≤ evaluationTime) "risk_exception_inactive"
    require (evaluationTime < e.expiresAt) "risk_exception_expired"
    exceptionByKey databaseSha256 evaluationTime (index.insert e) rest

def licenseViolation (component : ComponentScan) : Violation :=
  ⟨.license, component.purl, component.license.expression, licenseFindingSha256 component⟩

/-- The violation of a component's licence, where there is one. -/
def licenseViolations (policy : DependencyRiskPolicy) (component : ComponentScan) : List Violation :=
  match component.license.expression with
  | none => [licenseViolation component]
  | some expression =>
    if expression ∈ policy.allowedLicenseExpressions then [] else [licenseViolation component]

def findingViolation (component : ComponentScan) (finding : VulnerabilityFinding) : Violation :=
  ⟨.vulnerability, component.purl, some finding.findingId, vulnerabilityFindingSha256 component finding⟩

/-- `denied or denied_with_fix`. -/
def isDenied (policy : DependencyRiskPolicy) (finding : VulnerabilityFinding) (severity : Severity) : Bool :=
  decide (policy.blockAtOrAbove.rank ≤ severity.rank) ||
    (decide (finding.fixStatus = .available) &&
      decide (policy.blockWhenFixAvailableAtOrAbove.rank ≤ severity.rank))

/-- The loop over the findings of a component. -/
def findingViolations (policy : DependencyRiskPolicy) (component : ComponentScan) :
    List VulnerabilityFinding → Except RiskError (List Violation)
  | [] => .ok []
  | finding :: rest =>
    match finding.severity with
    | none => fail "risk_severity_unknown"
    | some severity => do
      require (finding.fixStatus ≠ .unknown) "risk_fix_status_unknown"
      let more ← findingViolations policy component rest
      .ok (if isDenied policy finding severity then findingViolation component finding :: more else more)

/-- The loop over the components. -/
def gather (policy : DependencyRiskPolicy) : List ComponentScan → Except RiskError (List Violation)
  | [] => .ok []
  | component :: rest => do
    let found ← findingViolations policy component component.vulnerabilities.found
    let more ← gather policy rest
    .ok (licenseViolations policy component ++ found ++ more)

/-- The loop over the violations, and its `used_exception_ids`. -/
def useExceptions (index : ExceptionIndex) : List String → List Violation → Except RiskError (List String)
  | used, [] => .ok used
  | used, v :: rest =>
    match index v with
    | none => fail "risk_policy_denied"
    | some e =>
      if e.exceptionId ∈ used then fail "risk_exception_reused"
      else useExceptions index (e.exceptionId :: used) rest

/-- `_timestamp_text`. -/
def timestampText (moment : Moment) : String :=
  let date := dateOfDay (moment / dayMicros).toNat
  let second := (moment % dayMicros / 1000000).toNat
  String.ofList (natText date.year ++ '-' :: pad2 date.month ++ '-' :: pad2 date.day ++ 'T' :: pad2 (second / 3600) ++
    ':' :: pad2 (second / 60 % 60) ++ ':' :: pad2 (second % 60) ++ ['Z'])

/-- `verify_dependency_risk`. -/
def verifyDependencyRisk (policy : DependencyRiskPolicy) (result : DependencyRiskResult)
    (context : RiskEvidenceContext) (databaseSnapshot : List UInt8) (evaluationTime : Moment) :
    Except RiskError RiskVerificationSummary := do
  contextMatches result context
  require (result.promotionPolicySha256 = policy.sha256) "risk_policy_drift"
  require (databaseSnapshot.length = result.database.byteSize ∧
    Sha256.hexDigestBytes (databaseSnapshot.map UInt8.toNat) = result.database.sha256) "risk_database_drift"
  require (policy.promotionEnabled = true) "risk_promotion_disabled"
  approvedIdentity policy result
  verifyTimeWindow policy result evaluationTime
  verifyComponentCoverage result context
  let index ← exceptionByKey result.database.sha256 evaluationTime (fun _ => none) policy.exceptions.records
  let violations ← gather policy result.components.scans
  let used ← useExceptions index [] violations
  let ids := policy.exceptions.records.map RiskException.exceptionId
  require ((∀ i ∈ used, i ∈ ids) ∧ ∀ i ∈ ids, i ∈ used) "risk_exception_unused"
  .ok ⟨result.components.scans.length, (result.components.scans.map (fun c => c.vulnerabilities.found.length)).sum,
    used.length, policy.sha256, result.sha256, result.database.sha256, result.lockInventory.inventorySha256,
    timestampText evaluationTime⟩

/-! ## What the decision is -/

/-- The bindings of a result: the evidence, the policy, the database, the scanner. -/
structure BindingsAgree (policy : DependencyRiskPolicy) (result : DependencyRiskResult)
    (context : RiskEvidenceContext) (databaseSnapshot : List UInt8) : Prop where
  source : result.projectName = context.projectName ∧ result.projectVersion = context.projectVersion ∧
    result.commitSha = context.commitSha ∧ result.treeSha = context.treeSha
  manifest : result.artifacts = context.artifacts ∧ result.distributionManifest = context.distributionManifest
  lock : result.lockInventory = context.lockInventory
  sboms : result.sboms = context.sboms
  rules : result.promotionPolicySha256 = context.promotionPolicySha256 ∧ result.promotionPolicySha256 = policy.sha256
  snapshot : databaseSnapshot.length = result.database.byteSize ∧
    Sha256.hexDigestBytes (databaseSnapshot.map UInt8.toNat) = result.database.sha256
  scanner : result.scanner ∈ policy.allowedScanners
  database : result.database.approved ∈ policy.approvedDatabases ∧ result.database.integrityStatus = .verified

/-- The windows of a result and of its database, in whole seconds. -/
structure WindowsHold (policy : DependencyRiskPolicy) (result : DependencyRiskResult) (evaluationTime : Moment) :
    Prop where
  completed : result.completedAt ≤ evaluationTime ∧ result.completedAt < result.database.expiresAt
  fresh : 0 ≤ wholeSeconds evaluationTime result.completedAt ∧
    wholeSeconds evaluationTime result.completedAt ≤ policy.maximumResultAgeSeconds
  fetched : 0 ≤ wholeSeconds evaluationTime result.database.fetchedAt ∧
    wholeSeconds evaluationTime result.database.fetchedAt ≤ policy.maximumDatabaseAgeSeconds
  valid : evaluationTime < result.database.expiresAt ∧
    wholeSeconds result.database.expiresAt result.database.fetchedAt ≤ policy.maximumDatabaseValiditySeconds

/-- Every expected component was scanned, completely. -/
structure Covered (result : DependencyRiskResult) (context : RiskEvidenceContext) : Prop where
  expected : result.components.scans.map ComponentScan.expected = context.components
  complete : result.scanStatus = .complete ∧ ∀ c ∈ result.components.scans, c.scanStatus = .complete

/-- No finding is of unknown severity or fix status. -/
def AllKnown (result : DependencyRiskResult) : Prop :=
  ∀ c ∈ result.components.scans, ∀ f ∈ c.vulnerabilities.found, f.severity ≠ none ∧ f.fixStatus ≠ .unknown

/-- A severity at or above the one that blocks, or, with a fix, the lower one. -/
def Denied (policy : DependencyRiskPolicy) (finding : VulnerabilityFinding) : Prop :=
  ∃ severity, finding.severity = some severity ∧ (policy.blockAtOrAbove.rank ≤ severity.rank ∨
    finding.fixStatus = .available ∧ policy.blockWhenFixAvailableAtOrAbove.rank ≤ severity.rank)

/-- The violations of a policy in a scan. -/
inductive IsViolation (policy : DependencyRiskPolicy) (scans : List ComponentScan) : Violation → Prop
  | license {c : ComponentScan} : c ∈ scans →
      (∀ e, c.license.expression = some e → e ∉ policy.allowedLicenseExpressions) →
      IsViolation policy scans (licenseViolation c)
  | vulnerability {c : ComponentScan} {f : VulnerabilityFinding} : c ∈ scans → f ∈ c.vulnerabilities.found →
      Denied policy f → IsViolation policy scans (findingViolation c f)

/-- An exception is active, and bound to the database of the result. -/
def Active (result : DependencyRiskResult) (evaluationTime : Moment) (e : RiskException) : Prop :=
  e.databaseSha256 = result.database.sha256 ∧ e.issuedAt ≤ evaluationTime ∧ evaluationTime < e.expiresAt

/-- **A result that may be promoted.** -/
structure Promotable (policy : DependencyRiskPolicy) (result : DependencyRiskResult) (context : RiskEvidenceContext)
    (databaseSnapshot : List UInt8) (evaluationTime : Moment) : Prop where
  bindings : BindingsAgree policy result context databaseSnapshot
  enabled : policy.promotionEnabled = true
  windows : WindowsHold policy result evaluationTime
  covered : Covered result context
  known : AllKnown result
  active : ∀ e ∈ policy.exceptions.records, Active result evaluationTime e
  excused : Set.BijOn exceptionKey {e | e ∈ policy.exceptions.records}
    {v | IsViolation policy result.components.scans v}

/-- The decision is to promote. -/
def Promotes (policy : DependencyRiskPolicy) (result : DependencyRiskResult) (context : RiskEvidenceContext)
    (databaseSnapshot : List UInt8) (evaluationTime : Moment) : Prop :=
  ∃ summary, verifyDependencyRisk policy result context databaseSnapshot evaluationTime = .ok summary

section Decision

variable {policy : DependencyRiskPolicy} {result : DependencyRiskResult} {context : RiskEvidenceContext}
  {index : ExceptionIndex} {evaluationTime : Moment} {databaseSha256 : String}

/-! ## The dictionary -/

/-- **The loop over the exceptions.** -/
theorem exceptionByKey_ok {es : List RiskException} {index' : ExceptionIndex} :
    exceptionByKey databaseSha256 evaluationTime index es = .ok index' ↔
      (∀ e ∈ es, e.databaseSha256 = databaseSha256 ∧ e.issuedAt ≤ evaluationTime ∧ evaluationTime < e.expiresAt) ∧
        es.foldl ExceptionIndex.insert index = index' := by
  induction es generalizing index with
  | nil =>
    rw [exceptionByKey, Except.ok.injEq]
    exact ⟨fun h => ⟨fun e he => absurd he List.not_mem_nil, h⟩, fun h => h.2⟩
  | cons e rest ih =>
    rw [exceptionByKey, List.forall_mem_cons, List.foldl_cons]
    constructor
    · intro h
      obtain ⟨u, hdatabase, h⟩ := except_bind_ok.mp h
      obtain ⟨u, hissued, h⟩ := except_bind_ok.mp h
      obtain ⟨u, hexpires, h⟩ := except_bind_ok.mp h
      obtain ⟨hrest, hindex⟩ := ih.mp h
      exact ⟨⟨⟨require_ok.mp hdatabase, require_ok.mp hissued, require_ok.mp hexpires⟩, hrest⟩, hindex⟩
    · rintro ⟨⟨⟨hdatabase, hissued, hexpires⟩, hrest⟩, hindex⟩
      rw [require, if_pos hdatabase, except_ok_bind, require, if_pos hissued, except_ok_bind, require,
        if_pos hexpires, except_ok_bind]
      exact ih.mpr ⟨hrest, hindex⟩

/-- What is found under a violation, where no two exceptions excuse one. -/
theorem foldl_insert {es : List RiskException} (hkeys : (es.map exceptionKey).Nodup) (index : ExceptionIndex)
    {v : Violation} {e : RiskException} :
    es.foldl ExceptionIndex.insert index v = some e ↔
      (e ∈ es ∧ exceptionKey e = v) ∨ (v ∉ es.map exceptionKey ∧ index v = some e) := by
  induction es generalizing index with
  | nil => simp
  | cons e' rest ih =>
    rw [List.map_cons, List.nodup_cons] at hkeys
    rw [List.foldl_cons, ih hkeys.2, ExceptionIndex.insert, List.map_cons, List.mem_cons, List.mem_cons, not_or]
    by_cases hv : v = exceptionKey e'
    · subst hv
      rw [if_pos rfl, Option.some.injEq]
      constructor
      · rintro (⟨hmem, heq⟩ | ⟨hnot, rfl⟩)
        · exact .inl ⟨.inr hmem, heq⟩
        · exact .inl ⟨.inl rfl, rfl⟩
      · rintro (⟨rfl | hmem, heq⟩ | ⟨⟨hne, -⟩, -⟩)
        · exact .inr ⟨hkeys.1, rfl⟩
        · exact .inl ⟨hmem, heq⟩
        · exact absurd rfl hne
    · rw [if_neg hv]
      constructor
      · rintro (⟨hmem, heq⟩ | ⟨hnot, heq⟩)
        · exact .inl ⟨.inr hmem, heq⟩
        · exact .inr ⟨⟨hv, hnot⟩, heq⟩
      · rintro (⟨rfl | hmem, heq⟩ | ⟨⟨-, hnot⟩, heq⟩)
        · exact absurd heq.symm hv
        · exact .inl ⟨hmem, heq⟩
        · exact .inr ⟨hnot, heq⟩

/-- Exceptions bound to one database excuse different violations. -/
theorem exceptionKey_nodup {es : List RiskException} (hscopes : (es.map RiskException.exactScope).Nodup)
    (hdatabase : ∀ e ∈ es, e.databaseSha256 = databaseSha256) : (es.map exceptionKey).Nodup := by
  have hinj : ∀ e ∈ es, ∀ e' ∈ es, exceptionKey e = exceptionKey e' → e.exactScope = e'.exactScope := by
    intro e he e' he' heq
    rw [exceptionKey, exceptionKey, Violation.mk.injEq] at heq
    obtain ⟨hkind, hpurl, hsubject, hfinding⟩ := heq
    rw [RiskException.exactScope, RiskException.exactScope, hdatabase e he, hdatabase e' he', hkind, hpurl, hsubject,
      hfinding]
  rw [List.Nodup, List.pairwise_map] at hscopes ⊢
  exact hscopes.imp_of_mem (fun he he' hne heq => hne (hinj _ he _ he' heq))

/-! ## The violations -/

theorem isDenied_iff {finding : VulnerabilityFinding} {severity : Severity} (h : finding.severity = some severity) :
    isDenied policy finding severity = true ↔ Denied policy finding := by
  rw [isDenied, Bool.or_eq_true, Bool.and_eq_true, decide_eq_true_eq, decide_eq_true_eq, decide_eq_true_eq, Denied]
  constructor
  · exact fun hd => ⟨severity, h, hd⟩
  · rintro ⟨s, hs, hd⟩
    obtain rfl := Option.some.inj (h.symm.trans hs)
    exact hd

/-- The loop over findings: what it raises, and what it gathers. -/
theorem findingViolations_ok {component : ComponentScan} {found : List VulnerabilityFinding} :
    (∃ vs, findingViolations policy component found = .ok vs) ↔
      ∀ f ∈ found, f.severity ≠ none ∧ f.fixStatus ≠ .unknown := by
  induction found with
  | nil => exact ⟨fun _ f hf => absurd hf List.not_mem_nil, fun _ => ⟨[], rfl⟩⟩
  | cons f rest ih =>
    rw [List.forall_mem_cons, ← ih, findingViolations]
    cases hseverity : f.severity with
    | none =>
      constructor
      · rintro ⟨vs, h⟩
        cases h
      · exact fun h => absurd rfl h.1.1
    | some severity =>
      dsimp only
      constructor
      · rintro ⟨vs, h⟩
        obtain ⟨u, hfix, h⟩ := except_bind_ok.mp h
        obtain ⟨more, hmore, -⟩ := except_bind_ok.mp h
        exact ⟨⟨Option.some_ne_none severity, require_ok.mp hfix⟩, more, hmore⟩
      · rintro ⟨⟨-, hfix⟩, more, hmore⟩
        rw [require, if_pos hfix, except_ok_bind, hmore]
        exact ⟨_, rfl⟩

theorem findingViolations_mem {component : ComponentScan} {found : List VulnerabilityFinding} {vs : List Violation}
    (h : findingViolations policy component found = .ok vs) (v : Violation) :
    v ∈ vs ↔ ∃ f ∈ found, Denied policy f ∧ v = findingViolation component f := by
  induction found generalizing vs with
  | nil =>
    obtain rfl := Except.ok.inj h
    simp
  | cons f rest ih =>
    rw [findingViolations] at h
    cases hseverity : f.severity with
    | none =>
      rw [hseverity] at h
      cases h
    | some severity =>
      rw [hseverity] at h
      obtain ⟨u, -, h⟩ := except_bind_ok.mp h
      obtain ⟨more, hmore, h⟩ := except_bind_ok.mp h
      obtain rfl := Except.ok.inj h
      rw [List.exists_mem_cons_iff, ← ih hmore, ← isDenied_iff hseverity]
      split
      next hdenied => simp [hdenied]
      next hdenied => simp [hdenied]

/-- A violation of a component's findings comes once. -/
theorem findingViolations_nodup {component : ComponentScan} {found : List VulnerabilityFinding} {vs : List Violation}
    (hnames : (found.map VulnerabilityFinding.findingId).Nodup)
    (h : findingViolations policy component found = .ok vs) : vs.Nodup := by
  induction found generalizing vs with
  | nil =>
    obtain rfl := Except.ok.inj h
    exact List.nodup_nil
  | cons f rest ih =>
    rw [List.map_cons, List.nodup_cons] at hnames
    rw [findingViolations] at h
    cases hseverity : f.severity with
    | none =>
      rw [hseverity] at h
      cases h
    | some severity =>
      rw [hseverity] at h
      obtain ⟨u, -, h⟩ := except_bind_ok.mp h
      obtain ⟨more, hmore, h⟩ := except_bind_ok.mp h
      obtain rfl := Except.ok.inj h
      split
      · rw [List.nodup_cons, findingViolations_mem hmore]
        refine ⟨?_, ih hnames.2 hmore⟩
        rintro ⟨g, hg, -, heq⟩
        rw [findingViolation, findingViolation, Violation.mk.injEq, Option.some.injEq] at heq
        exact hnames.1 (List.mem_map.mpr ⟨g, hg, heq.2.2.1.symm⟩)
      · exact ih hnames.2 hmore

theorem licenseViolations_mem {component : ComponentScan} (v : Violation) :
    v ∈ licenseViolations policy component ↔
      (∀ e, component.license.expression = some e → e ∉ policy.allowedLicenseExpressions) ∧
        v = licenseViolation component := by
  rw [licenseViolations]
  cases component.license.expression with
  | none => simp
  | some expression =>
    dsimp only
    split
    next hallowed => simp [hallowed]
    next hdenied => simp [hdenied]

/-- **The loop over the components**: what it raises. -/
theorem gather_ok {scans : List ComponentScan} :
    (∃ vs, gather policy scans = .ok vs) ↔
      ∀ c ∈ scans, ∀ f ∈ c.vulnerabilities.found, f.severity ≠ none ∧ f.fixStatus ≠ .unknown := by
  induction scans with
  | nil => exact ⟨fun _ c hc => absurd hc List.not_mem_nil, fun _ => ⟨[], rfl⟩⟩
  | cons c rest ih =>
    rw [List.forall_mem_cons, ← ih, gather, ← @findingViolations_ok policy c c.vulnerabilities.found]
    constructor
    · rintro ⟨vs, h⟩
      obtain ⟨found, hfound, h⟩ := except_bind_ok.mp h
      obtain ⟨more, hmore, -⟩ := except_bind_ok.mp h
      exact ⟨⟨found, hfound⟩, more, hmore⟩
    · rintro ⟨⟨found, hfound⟩, more, hmore⟩
      rw [hfound, except_ok_bind, hmore]
      exact ⟨_, rfl⟩

theorem isViolation_cons {c : ComponentScan} {rest : List ComponentScan} {v : Violation} :
    IsViolation policy (c :: rest) v ↔
      (v ∈ licenseViolations policy c ∨ ∃ f ∈ c.vulnerabilities.found, Denied policy f ∧ v = findingViolation c f) ∨
        IsViolation policy rest v := by
  rw [licenseViolations_mem]
  constructor
  · intro h
    cases h with
    | @license c' hc hdenied =>
      obtain rfl | hc := List.mem_cons.mp hc
      · exact .inl (.inl ⟨hdenied, rfl⟩)
      · exact .inr (.license hc hdenied)
    | @vulnerability c' f hc hf hdenied =>
      obtain rfl | hc := List.mem_cons.mp hc
      · exact .inl (.inr ⟨f, hf, hdenied, rfl⟩)
      · exact .inr (.vulnerability hc hf hdenied)
  · rintro ((⟨hdenied, rfl⟩ | ⟨f, hf, hdenied, rfl⟩) | h)
    · exact .license List.mem_cons_self hdenied
    · exact .vulnerability List.mem_cons_self hf hdenied
    · cases h with
      | license hc hdenied => exact .license (List.mem_cons_of_mem _ hc) hdenied
      | vulnerability hc hf hdenied => exact .vulnerability (List.mem_cons_of_mem _ hc) hf hdenied

/-- What it gathers are the violations. -/
theorem gather_mem {scans : List ComponentScan} {vs : List Violation} (h : gather policy scans = .ok vs)
    (v : Violation) : v ∈ vs ↔ IsViolation policy scans v := by
  induction scans generalizing vs with
  | nil =>
    obtain rfl := Except.ok.inj h
    constructor
    · exact fun hv => absurd hv List.not_mem_nil
    · intro hv
      cases hv with
      | license hc => exact absurd hc List.not_mem_nil
      | vulnerability hc => exact absurd hc List.not_mem_nil
  | cons c rest ih =>
    obtain ⟨found, hfound, h⟩ := except_bind_ok.mp h
    obtain ⟨more, hmore, h⟩ := except_bind_ok.mp h
    obtain rfl := Except.ok.inj h
    rw [List.mem_append, List.mem_append, findingViolations_mem hfound, ih hmore, isViolation_cons]

theorem isViolation_purl {scans : List ComponentScan} {v : Violation} (h : IsViolation policy scans v) :
    v.purl ∈ scans.map ComponentScan.purl := by
  cases h with
  | license hc => exact List.mem_map_of_mem hc
  | vulnerability hc => exact List.mem_map_of_mem hc

/-- Each violation is gathered once. -/
theorem gather_nodup {scans : List ComponentScan} {vs : List Violation} (hpurls : (scans.map ComponentScan.purl).Nodup)
    (h : gather policy scans = .ok vs) : vs.Nodup := by
  induction scans generalizing vs with
  | nil =>
    obtain rfl := Except.ok.inj h
    exact List.nodup_nil
  | cons c rest ih =>
    rw [List.map_cons, List.nodup_cons] at hpurls
    obtain ⟨found, hfound, h⟩ := except_bind_ok.mp h
    obtain ⟨more, hmore, h⟩ := except_bind_ok.mp h
    obtain rfl := Except.ok.inj h
    have hlicense : (licenseViolations policy c).Nodup := by
      rw [licenseViolations]
      split
      · exact List.nodup_singleton _
      · split
        · exact List.nodup_nil
        · exact List.nodup_singleton _
    rw [List.nodup_append', List.nodup_append']
    refine ⟨⟨hlicense, findingViolations_nodup c.vulnerabilities.names hfound, ?_⟩, ih hpurls.2 hmore, ?_⟩
    · intro v hv hv'
      obtain ⟨f, -, -, heq⟩ := (findingViolations_mem hfound v).mp hv'
      rw [((licenseViolations_mem v).mp hv).2] at heq
      exact Kind.noConfusion (congrArg Violation.kind heq)
    · intro v hv hv'
      have hpurl : v.purl = c.purl := by
        obtain hv | hv := List.mem_append.mp hv
        · rw [((licenseViolations_mem v).mp hv).2]
          rfl
        · obtain ⟨f, -, -, rfl⟩ := (findingViolations_mem hfound v).mp hv
          rfl
      exact hpurls.1 (hpurl ▸ isViolation_purl ((gather_mem hmore v).mp hv'))

/-! ## The exceptions that are used -/

/-- The loop over the violations: each is found, and what is used is what is found. -/
theorem useExceptions_ok {used used' : List String} {vs : List Violation}
    (h : useExceptions index used vs = .ok used') :
    (∀ v ∈ vs, ∃ e, index v = some e) ∧
      ∀ i, i ∈ used' ↔ i ∈ used ∨ ∃ v ∈ vs, ∃ e, index v = some e ∧ e.exceptionId = i := by
  induction vs generalizing used with
  | nil =>
    obtain rfl := Except.ok.inj h
    exact ⟨fun v hv => absurd hv List.not_mem_nil, fun i => by simp⟩
  | cons v rest ih =>
    rw [useExceptions] at h
    cases hindex : index v with
    | none =>
      rw [hindex] at h
      cases h
    | some e =>
      rw [hindex] at h
      dsimp only at h
      split at h
      · cases h
      · obtain ⟨hfound, hused⟩ := ih h
        refine ⟨List.forall_mem_cons.mpr ⟨⟨e, hindex⟩, hfound⟩, fun i => ?_⟩
        rw [hused, List.exists_mem_cons_iff, hindex, List.mem_cons]
        constructor
        · rintro ((rfl | hold) | hrest)
          · exact .inr (.inl ⟨e, rfl, rfl⟩)
          · exact .inl hold
          · exact .inr (.inr hrest)
        · rintro (hold | ⟨e', he', rfl⟩ | hrest)
          · exact .inl (.inr hold)
          · obtain rfl := Option.some.inj he'
            exact .inl (.inl rfl)
          · exact .inr hrest

/-- It raises nothing where different violations have exceptions of different names. -/
theorem useExceptions_total {used : List String} {vs : List Violation} (hnodup : vs.Nodup)
    (hfound : ∀ v ∈ vs, ∃ e, index v = some e ∧ e.exceptionId ∉ used)
    (hdistinct : ∀ v ∈ vs, ∀ v' ∈ vs, ∀ e e', index v = some e → index v' = some e' →
      e.exceptionId = e'.exceptionId → v = v') : ∃ used', useExceptions index used vs = .ok used' := by
  induction vs generalizing used with
  | nil => exact ⟨used, rfl⟩
  | cons v rest ih =>
    rw [List.nodup_cons] at hnodup
    rw [List.forall_mem_cons] at hfound
    obtain ⟨⟨e, hindex, hnew⟩, hrest⟩ := hfound
    rw [useExceptions, hindex]
    dsimp only
    rw [if_neg hnew]
    refine ih hnodup.2 ?_ (fun v hv v' hv' => hdistinct v (List.mem_cons_of_mem _ hv) v' (List.mem_cons_of_mem _ hv'))
    intro v' hv'
    obtain ⟨e', he', hnew'⟩ := hrest v' hv'
    refine ⟨e', he', ?_⟩
    rw [List.mem_cons, not_or]
    refine ⟨fun heq => ?_, hnew'⟩
    have hsame := hdistinct v' (List.mem_cons_of_mem _ hv') v List.mem_cons_self e' e he' hindex heq
    exact hnodup.1 (hsame ▸ hv')

/-! ## The decision -/

theorem contextMatches_ok {u : Unit} : contextMatches result context = .ok u ↔
    (result.projectName = context.projectName ∧ result.projectVersion = context.projectVersion ∧
      result.commitSha = context.commitSha ∧ result.treeSha = context.treeSha) ∧
    (result.artifacts = context.artifacts ∧ result.distributionManifest = context.distributionManifest) ∧
    result.lockInventory = context.lockInventory ∧ result.sboms = context.sboms ∧
    result.promotionPolicySha256 = context.promotionPolicySha256 := by
  simp only [contextMatches, except_bind_ok, require_ok, exists_const]

theorem approvedIdentity_ok {u : Unit} : approvedIdentity policy result = .ok u ↔
    result.scanner ∈ policy.allowedScanners ∧ result.database.approved ∈ policy.approvedDatabases ∧
      result.database.integrityStatus = .verified := by
  simp only [approvedIdentity, except_bind_ok, require_ok, exists_const]

theorem verifyTimeWindow_ok {u : Unit} :
    verifyTimeWindow policy result evaluationTime = .ok u ↔ WindowsHold policy result evaluationTime := by
  simp only [verifyTimeWindow, except_bind_ok, require_ok, exists_const]
  constructor
  · rintro ⟨hcompleted, hexpired, ⟨hage, hvalid, hmax, hvalidity⟩, hresult⟩
    exact ⟨⟨hcompleted, hexpired⟩, hresult, ⟨hage, hmax⟩, hvalid, hvalidity⟩
  · rintro ⟨⟨hcompleted, hexpired⟩, hresult, ⟨hage, hmax⟩, hvalid, hvalidity⟩
    exact ⟨hcompleted, hexpired, ⟨hage, hvalid, hmax, hvalidity⟩, hresult⟩

theorem verifyComponentCoverage_ok {u : Unit} :
    verifyComponentCoverage result context = .ok u ↔ Covered result context := by
  simp only [verifyComponentCoverage, except_bind_ok, require_ok, exists_const]
  exact ⟨fun h => ⟨h.1, h.2⟩, fun h => ⟨h.expected, h.complete⟩⟩

/-- **The bookkeeping is a correspondence.** The loops end, and nothing is left
over, exactly if the exceptions excuse the violations one to one. -/
theorem excused_iff (hdatabase : ∀ e ∈ policy.exceptions.records, e.databaseSha256 = databaseSha256)
    {vs : List Violation} (hvs : gather policy result.components.scans = .ok vs) :
    (∃ used, useExceptions (policy.exceptions.records.foldl ExceptionIndex.insert (fun _ => none)) [] vs = .ok used ∧
      (∀ i ∈ used, i ∈ policy.exceptions.records.map RiskException.exceptionId) ∧
      ∀ i ∈ policy.exceptions.records.map RiskException.exceptionId, i ∈ used) ↔
    Set.BijOn exceptionKey {e | e ∈ policy.exceptions.records} {v | IsViolation policy result.components.scans v} := by
  have hkeys := exceptionKey_nodup policy.exceptions.scopes hdatabase
  have hlookup : ∀ {v e}, policy.exceptions.records.foldl ExceptionIndex.insert (fun _ => none) v = some e ↔
      e ∈ policy.exceptions.records ∧ exceptionKey e = v := by
    intro v e
    rw [foldl_insert hkeys]
    exact ⟨fun h => h.elim id (fun hnone => nomatch hnone.2), .inl⟩
  have hids : ∀ e ∈ policy.exceptions.records, ∀ e' ∈ policy.exceptions.records,
      e.exceptionId = e'.exceptionId → e = e' :=
    fun e he e' he' heq => List.inj_on_of_nodup_map policy.exceptions.ids he he' heq
  constructor
  · rintro ⟨used, hused, -, hall⟩
    obtain ⟨hfound, hmem⟩ := useExceptions_ok hused
    refine ⟨?_, ?_, ?_⟩
    · intro e he
      obtain hnil | ⟨v, hv, e', he', heq⟩ := (hmem e.exceptionId).mp (hall _ (List.mem_map_of_mem he))
      · exact absurd hnil List.not_mem_nil
      · obtain ⟨hrecord, rfl⟩ := hlookup.mp he'
        rw [← hids e' hrecord e he heq]
        exact (gather_mem hvs _).mp hv
    · intro e he e' he' heq
      exact List.inj_on_of_nodup_map hkeys he he' heq
    · intro v hv
      obtain ⟨e, he⟩ := hfound v ((gather_mem hvs v).mpr hv)
      exact ⟨e, (hlookup.mp he).1, (hlookup.mp he).2⟩
  · rintro ⟨hmaps, -, hsurj⟩
    have hfound : ∀ v ∈ vs, ∃ e, policy.exceptions.records.foldl ExceptionIndex.insert (fun _ => none) v = some e ∧
        e.exceptionId ∉ ([] : List String) := by
      intro v hv
      obtain ⟨e, he, heq⟩ := hsurj ((gather_mem hvs v).mp hv)
      exact ⟨e, hlookup.mpr ⟨he, heq⟩, List.not_mem_nil⟩
    obtain ⟨used, hused⟩ := useExceptions_total (gather_nodup result.components.purls hvs) hfound (by
      intro v _ v' _ e e' he he' heq
      obtain ⟨hrecord, rfl⟩ := hlookup.mp he
      obtain ⟨hrecord', rfl⟩ := hlookup.mp he'
      rw [hids e hrecord e' hrecord' heq])
    obtain ⟨-, hmem⟩ := useExceptions_ok hused
    refine ⟨used, hused, fun i hi => ?_, fun i hi => ?_⟩
    · obtain hnil | ⟨v, -, e, he, rfl⟩ := (hmem i).mp hi
      · exact absurd hnil List.not_mem_nil
      · exact List.mem_map_of_mem (hlookup.mp he).1
    · obtain ⟨e, he, rfl⟩ := List.mem_map.mp hi
      exact (hmem _).mpr (.inr ⟨exceptionKey e, (gather_mem hvs _).mpr (hmaps he), e, hlookup.mpr ⟨he, rfl⟩, rfl⟩)

/-- **The decision.** -/
theorem promotes_iff {databaseSnapshot : List UInt8} :
    Promotes policy result context databaseSnapshot evaluationTime ↔
      Promotable policy result context databaseSnapshot evaluationTime := by
  constructor
  · rintro ⟨summary, h⟩
    obtain ⟨u, hcontext, h⟩ := except_bind_ok.mp h
    obtain ⟨u, hpolicy, h⟩ := except_bind_ok.mp h
    obtain ⟨u, hsnapshot, h⟩ := except_bind_ok.mp h
    obtain ⟨u, henabled, h⟩ := except_bind_ok.mp h
    obtain ⟨u, hidentity, h⟩ := except_bind_ok.mp h
    obtain ⟨u, hwindow, h⟩ := except_bind_ok.mp h
    obtain ⟨u, hcoverage, h⟩ := except_bind_ok.mp h
    obtain ⟨index, hindex, h⟩ := except_bind_ok.mp h
    obtain ⟨vs, hvs, h⟩ := except_bind_ok.mp h
    obtain ⟨used, hused, h⟩ := except_bind_ok.mp h
    obtain ⟨u, hall, -⟩ := except_bind_ok.mp h
    obtain ⟨hsource, hmanifest, hlock, hsboms, hrules⟩ := contextMatches_ok.mp hcontext
    obtain ⟨hscanner, happroved⟩ := approvedIdentity_ok.mp hidentity
    obtain ⟨hactive, rfl⟩ := exceptionByKey_ok.mp hindex
    exact {
      bindings := ⟨hsource, hmanifest, hlock, hsboms, ⟨hrules, require_ok.mp hpolicy⟩, require_ok.mp hsnapshot,
        hscanner, happroved⟩
      enabled := require_ok.mp henabled
      windows := verifyTimeWindow_ok.mp hwindow
      covered := verifyComponentCoverage_ok.mp hcoverage
      known := gather_ok.mp ⟨vs, hvs⟩
      active := hactive
      excused := (excused_iff (fun e he => (hactive e he).1) hvs).mp ⟨used, hused, require_ok.mp hall⟩ }
  · intro h
    obtain ⟨vs, hvs⟩ := gather_ok.mpr h.known
    obtain ⟨used, hused, hall⟩ := (excused_iff (fun e he => (h.active e he).1) hvs).mpr h.excused
    have hb := h.bindings
    have hcontext : contextMatches result context = .ok () :=
      contextMatches_ok.mpr ⟨hb.source, hb.manifest, hb.lock, hb.sboms, hb.rules.1⟩
    have hidentity : approvedIdentity policy result = .ok () := approvedIdentity_ok.mpr ⟨hb.scanner, hb.database⟩
    have hindex : exceptionByKey result.database.sha256 evaluationTime (fun _ => none) policy.exceptions.records =
        .ok (policy.exceptions.records.foldl ExceptionIndex.insert (fun _ => none)) :=
      exceptionByKey_ok.mpr ⟨h.active, rfl⟩
    have hwindow : verifyTimeWindow policy result evaluationTime = .ok () := verifyTimeWindow_ok.mpr h.windows
    have hcoverage : verifyComponentCoverage result context = .ok () := verifyComponentCoverage_ok.mpr h.covered
    rw [Promotes, verifyDependencyRisk, hcontext, except_ok_bind, require, if_pos hb.rules.2, except_ok_bind, require,
      if_pos hb.snapshot, except_ok_bind, require, if_pos h.enabled, except_ok_bind, hidentity, except_ok_bind,
      hwindow, except_ok_bind, hcoverage, except_ok_bind,
      hindex, except_ok_bind, hvs, except_ok_bind, hused, except_ok_bind]
    dsimp only
    rw [require, if_pos hall]
    exact ⟨_, rfl⟩

end Decision

/-- **The decision, and what a promotion does not survive.** From a promotion, no
violation may be added while the exceptions stay, and no exception may be taken
away or made to excuse something else while the violations stay; an exception
that is not active is never promoted over. -/
theorem dependency_risk_laws (policy : DependencyRiskPolicy) (result : DependencyRiskResult)
    (context : RiskEvidenceContext) (databaseSnapshot : List UInt8) (evaluationTime : Moment) :
    (Promotes policy result context databaseSnapshot evaluationTime ↔
      Promotable policy result context databaseSnapshot evaluationTime) ∧
    (Promotes policy result context databaseSnapshot evaluationTime →
      ∀ policy' result' context' databaseSnapshot' evaluationTime',
        (∀ v, IsViolation policy result.components.scans v → IsViolation policy' result'.components.scans v) →
        (∃ v, IsViolation policy' result'.components.scans v ∧ ¬IsViolation policy result.components.scans v ∧
            ∀ e ∈ policy'.exceptions.records, ∃ e' ∈ policy.exceptions.records, exceptionKey e' = exceptionKey e) ∨
          (∃ e ∈ policy.exceptions.records, ∀ e' ∈ policy'.exceptions.records, exceptionKey e' ≠ exceptionKey e) →
        ¬Promotes policy' result' context' databaseSnapshot' evaluationTime') ∧
    ((∃ e ∈ policy.exceptions.records, ¬Active result evaluationTime e) →
      ¬Promotes policy result context databaseSnapshot evaluationTime) := by
  refine ⟨promotes_iff, ?_, ?_⟩
  · intro h policy' result' context' databaseSnapshot' evaluationTime' hmore hcase h'
    obtain ⟨hmaps, -, -⟩ := (promotes_iff.mp h).excused
    obtain ⟨-, -, hsurj'⟩ := (promotes_iff.mp h').excused
    obtain ⟨v, hv, hnew, hkeys⟩ | ⟨e, he, hgone⟩ := hcase
    · obtain ⟨e, he, rfl⟩ := hsurj' hv
      obtain ⟨e', he', heq⟩ := hkeys e he
      exact hnew (heq ▸ hmaps he')
    · obtain ⟨e', he', heq⟩ := hsurj' (hmore _ (hmaps he))
      exact hgone e' he' heq
  · rintro ⟨e, he, hinactive⟩ h
    exact hinactive ((promotes_iff.mp h).active e he)

/-! ## A policy, a scan -/

namespace DemoScan

def databaseSha256 : String := Sha256.hexDigestBytes [100, 98]

def artifactSha256 : String := String.ofList (List.replicate 64 'a')

/-- An exception for a finding that is not there. -/
def unusedException : RiskException where
  exceptionId := "EX-1"
  kind := .vulnerability
  purl := "pkg:pypi/demo@1.0"
  subject := some "CVE-2025-1"
  findingSha256 := artifactSha256
  databaseSha256 := databaseSha256
  owner := "security"
  rationale := "accepted until the next release"
  issuedAt := 0
  expiresAt := 86400000000

def noExceptions : ExceptionRecords := ⟨[], List.nodup_nil, List.nodup_nil⟩

def oneException : ExceptionRecords := ⟨[unusedException], List.nodup_singleton _, List.nodup_singleton _⟩

def policy (exceptions : ExceptionRecords) (sha256 : String) : DependencyRiskPolicy where
  promotionEnabled := true
  allowedScanners := [⟨"scanner", "1.0", artifactSha256⟩]
  approvedDatabases := [⟨"https://database.example/", "r1", databaseSha256⟩]
  maximumDatabaseAgeSeconds := 3600
  maximumDatabaseValiditySeconds := 86400
  maximumResultAgeSeconds := 3600
  blockAtOrAbove := .high
  blockWhenFixAvailableAtOrAbove := .medium
  allowedLicenseExpressions := ["MIT"]
  exceptions := exceptions
  sha256 := sha256

def component : ComponentScan :=
  ⟨"pkg:pypi/demo@1.0", [artifactSha256], .complete, ⟨some "MIT"⟩, ⟨[], List.nodup_nil⟩⟩

def artifacts : List ArtifactBinding :=
  [⟨"sdist", "demo-1.0.tar.gz", 1, artifactSha256⟩, ⟨"wheel", "demo-1.0-py3-none-any.whl", 1, artifactSha256⟩]

def lockInventory : LockInventoryBinding := ⟨artifactSha256, artifactSha256, 0, 0, []⟩

def result (policySha256 : String) : DependencyRiskResult where
  projectName := "demo"
  projectVersion := "1.0"
  commitSha := artifactSha256
  treeSha := artifactSha256
  artifacts := artifacts
  distributionManifest := ⟨1, artifactSha256⟩
  lockInventory := lockInventory
  sboms := []
  scanner := ⟨"scanner", "1.0", artifactSha256⟩
  database := ⟨"snapshot.db", 2, databaseSha256, "https://database.example/", "r1", 0, 86400000000, .verified⟩
  completedAt := 1000000
  scanStatus := .complete
  components := ⟨[component], List.nodup_singleton _⟩
  promotionPolicySha256 := policySha256
  sha256 := artifactSha256

def context (policySha256 : String) : RiskEvidenceContext :=
  ⟨"demo", "1.0", artifactSha256, artifactSha256, artifacts, ⟨1, artifactSha256⟩, lockInventory, [],
    [⟨"pkg:pypi/demo@1.0", [artifactSha256]⟩], policySha256⟩

theorem no_violation {exceptions : ExceptionRecords} {sha256 : String} {v : Violation} :
    ¬IsViolation (policy exceptions sha256) [component] v := by
  intro h
  cases h with
  | license hc hdenied =>
    obtain rfl := List.mem_singleton.mp hc
    exact hdenied "MIT" rfl List.mem_cons_self
  | vulnerability hc hf =>
    obtain rfl := List.mem_singleton.mp hc
    exact absurd hf List.not_mem_nil

/-- Without exceptions the scan is promoted. -/
theorem promotable (sha256 : String) :
    Promotable (policy noExceptions sha256) (result sha256) (context sha256) [100, 98] 2000000 where
  bindings := ⟨⟨rfl, rfl, rfl, rfl⟩, ⟨rfl, rfl⟩, rfl, rfl, ⟨rfl, rfl⟩, ⟨rfl, rfl⟩, List.mem_cons_self,
    List.mem_cons_self, rfl⟩
  enabled := rfl
  windows := {
    completed := ⟨(by decide : (1000000 : Int) ≤ 2000000), (by decide : (1000000 : Int) < 86400000000)⟩
    fresh := (by decide : 0 ≤ wholeSeconds 2000000 1000000 ∧ wholeSeconds 2000000 1000000 ≤ 3600)
    fetched := (by decide : 0 ≤ wholeSeconds 2000000 0 ∧ wholeSeconds 2000000 0 ≤ 3600)
    valid := (by decide : (2000000 : Int) < 86400000000 ∧ wholeSeconds 86400000000 0 ≤ 86400) }
  covered := ⟨rfl, rfl, fun c hc => by rw [List.mem_singleton.mp hc]; rfl⟩
  known := by
    intro c hc f hf
    rw [List.mem_singleton.mp hc] at hf
    exact absurd hf List.not_mem_nil
  active := fun e he => absurd he List.not_mem_nil
  excused := ⟨fun e he => absurd he List.not_mem_nil, fun e he => absurd he List.not_mem_nil,
    fun v hv => absurd hv no_violation⟩

/-- The component, its licence unknown. -/
def unlicensed : ComponentScan := { component with license := ⟨none⟩ }

def unlicensedResult : DependencyRiskResult :=
  { result "p" with components := ⟨[unlicensed], List.nodup_singleton _⟩ }

end DemoScan

theorem dependency_risk_laws_demo :
    Promotes (DemoScan.policy DemoScan.noExceptions "p") (DemoScan.result "p") (DemoScan.context "p") [100, 98] 2000000 ∧
      ¬Promotes (DemoScan.policy DemoScan.noExceptions "p") DemoScan.unlicensedResult (DemoScan.context "p") [100, 98]
        2000000 ∧
      ¬Promotes (DemoScan.policy DemoScan.oneException "p") (DemoScan.result "p") (DemoScan.context "p") [100, 98]
        86400000000 := by
  obtain ⟨hiff, hadded, -⟩ := dependency_risk_laws (DemoScan.policy DemoScan.noExceptions "p") (DemoScan.result "p")
    (DemoScan.context "p") [100, 98] 2000000
  obtain ⟨-, -, hinactive⟩ := dependency_risk_laws (DemoScan.policy DemoScan.oneException "p") (DemoScan.result "p")
    (DemoScan.context "p") [100, 98] 86400000000
  have hpromotes := hiff.mpr (DemoScan.promotable "p")
  refine ⟨hpromotes, hadded hpromotes _ _ _ _ _ (fun v hv => absurd hv DemoScan.no_violation) (.inl ?_),
    hinactive ⟨DemoScan.unusedException, List.mem_cons_self, fun h => absurd h.2.2 (by decide)⟩⟩
  exact ⟨licenseViolation DemoScan.unlicensed, .license List.mem_cons_self (fun e he => nomatch he),
    DemoScan.no_violation, fun e he => absurd he List.not_mem_nil⟩

/-- **A refusal that the removal of an exception ends.** The exception excuses a
finding that is not there; without it, and bound to the policy without it, the
same scan is promoted at the same time. -/
theorem removal_promotes :
    ¬Promotes (DemoScan.policy DemoScan.oneException "p") (DemoScan.result "p") (DemoScan.context "p") [100, 98]
        2000000 ∧
      Promotes (DemoScan.policy DemoScan.noExceptions "q") (DemoScan.result "q") (DemoScan.context "q") [100, 98]
        2000000 := by
  refine ⟨fun h => ?_, promotes_iff.mpr (DemoScan.promotable "q")⟩
  obtain ⟨hmaps, -, -⟩ := (promotes_iff.mp h).excused
  have hunused : DemoScan.unusedException ∈ {e | e ∈ (DemoScan.policy DemoScan.oneException "p").exceptions.records} :=
    List.mem_cons_self
  exact DemoScan.no_violation (hmaps hunused)

end QuantumEntanglement.DependencyRisk
