import QuantumEntanglement.Lib.ByteLines
import QuantumEntanglement.Lib.IsoTime
import QuantumEntanglement.Lib.PercentEncoding
import QuantumEntanglement.Lib.Sha256
import QuantumEntanglement.DependencyRisk.LicenseExpression

/-
  Risk records — the exceptions of a policy, the components of a scan

  Both documents are read strictly, record by record, and each list is checked
  as a whole once its records are read: exceptions have identifiers of their
  own and no two of them excuse one finding, components have package URLs of
  their own and the findings of a component have names of their own. What the
  decision needs of these checks is a part of what is read.

  What is proved: `findings_distinct` — the names of the findings of a component.
-/

namespace QuantumEntanglement.DependencyRisk

open PyJson PyText Checked IsoTime Calendar

/-! ## Fields -/

/-- A character class at both ends of a text of at most 128 characters, another
one between them. -/
def edged (edge inner : Char → Bool) (text : List Char) : Bool :=
  match text with
  | [] => false
  | c :: rest =>
    edge c && (rest.isEmpty ||
      (rest.dropLast.all inner && decide (rest.dropLast.length ≤ 126) && rest.getLast?.any edge))

def oneOf (letters : String) (c : Char) : Bool := c.isAlphanum || letters.toList.contains c

/-- `_NAME_PATTERN`, `_VERSION_PATTERN`, `_IDENTIFIER_PATTERN` and `_FINDING_ID_PATTERN`. -/
def isName (text : String) : Bool :=
  edged (fun c => c.isAlphanum && !c.isUpper) (fun c => oneOf "._-" c && !c.isUpper) text.toList

def isVersion (text : String) : Bool := edged Char.isAlphanum (oneOf ".!+_-") text.toList

def isIdentifier (text : String) : Bool := edged Char.isAlphanum (oneOf "._:@/+-") text.toList

def isFindingId (text : String) : Bool := edged Char.isAlphanum (oneOf "._:-") text.toList

/-- `_HASH_PATTERN`. -/
def isHash (text : String) : Bool := decide (text.toList.length = 64) && text.toList.all Sha256.isLowerHex

/-- `_exact_keys`. -/
def exactKeys (value : Value) (expected : List String) (code : String) :
    Except RiskError (List (String × Value)) :=
  match value with
  | .dict record =>
    if (expected.all fun k => (record.map Prod.fst).contains k) ∧ (record.all fun p => expected.contains p.1) then
      .ok record
    else fail code
  | _ => fail code

/-- `record[name]`. -/
def field (record : List (String × Value)) (name : String) : Value := (lookup name record).getD .null

/-- `_digest`. -/
def digest (value : Value) (code : String) : Except RiskError String :=
  safeString value code 1 64 >>= fun text => if isHash text then .ok text else fail code

/-- `_identifier`, of either pattern. -/
def identifier (matches? : String → Bool) (value : Value) (code : String) : Except RiskError String :=
  safeString value code 1 128 >>= fun text => if matches? text then .ok text else fail code

def listOf (value : Value) (maximum : Nat) (code : String) : Except RiskError (List Value) :=
  match value with
  | .list items => if maximum < items.length then fail code else .ok items
  | _ => fail code

/-- `urllib.parse.unquote` of an ASCII text, strictly decoded. -/
def unquoteBytes : List Char → List UInt8
  | [] => []
  | '%' :: high :: low :: rest =>
    match hexValue high, hexValue low with
    | some h, some l => UInt8.ofNat (16 * h + l) :: unquoteBytes rest
    | _, _ => UInt8.ofNat '%'.toNat :: unquoteBytes (high :: low :: rest)
  | c :: rest => UInt8.ofNat c.toNat :: unquoteBytes rest

/-- `quote(text, safe="-._~")`. -/
def quote (text : String) : List Char := PercentEncoding.escapeText (oneOf "-._~") text.toList

/-- `canonical_pypi_purl`. -/
def canonicalPypiPurl (value : Value) (code : String) : Except RiskError String :=
  safeString value code 1 512 >>= fun text =>
  let rest := text.toList.drop 9
  if text.toList.take 9 ≠ "pkg:pypi/".toList ∨ text.toList.count '@' ≠ 1 then fail code
  else
    match ByteLines.decode (unquoteBytes (rest.takeWhile (· ≠ '@'))),
        ByteLines.decode (unquoteBytes (rest.dropWhile (· ≠ '@')).tail) with
    | some name, some version =>
      if ¬(isName name ∧ isVersion version) then fail code
      else if "pkg:pypi/".toList ++ quote name ++ '@' :: quote version ≠ text.toList then fail code
      else .ok text
    | _, _ => fail code

/-- A moment in microseconds. -/
abbrev Moment : Type := Int

/-- `_TIMESTAMP_PATTERN`, and the fields of the moment. -/
def scanTimestamp (text : List Char) : Option Reading := do
  let (date, s) ← scanDate text
  let s ← dropChar (· == 'T') s
  let (hour, s) ← twoDigits s
  let s ← dropChar (· == ':') s
  let (minute, s) ← twoDigits s
  let s ← dropChar (· == ':') s
  let (second, s) ← twoDigits s
  if s = ['Z'] then some ⟨date, hour, minute, second, [], some 0⟩ else none

/-- `parse_timestamp`. -/
def parseTimestamp (value : Value) (code : String) : Except RiskError Moment :=
  safeString value code 1 20 >>= fun text =>
  match scanTimestamp text.toList with
  | none => fail code
  | some reading => if reading.Valid then .ok reading.wholeMicros else fail code

/-- `int((later - earlier).total_seconds())`. -/
def wholeSeconds (later earlier : Moment) : Int := (later - earlier).tdiv 1000000

/-! ## Exceptions -/

inductive Kind where
  | license
  | vulnerability
  deriving DecidableEq

structure RiskException where
  exceptionId : String
  kind : Kind
  purl : String
  subject : Option String
  findingSha256 : String
  databaseSha256 : String
  owner : String
  rationale : String
  issuedAt : Moment
  expiresAt : Moment

/-- What an exception excuses, with the database it was found with. -/
def RiskException.exactScope (e : RiskException) : String × String × Kind × String × Option String :=
  (e.databaseSha256, e.findingSha256, e.kind, e.purl, e.subject)

/-- The exceptions of a policy. -/
structure ExceptionRecords where
  records : List RiskException
  ids : (records.map RiskException.exceptionId).Nodup
  scopes : (records.map RiskException.exactScope).Nodup

def vulnerabilityExceptionKeys : List String :=
  ["exceptionId", "databaseSha256", "expiresAt", "findingSha256", "findingId", "issuedAt", "kind", "owner", "purl",
    "rationale"]

def licenseExceptionKeys : List String :=
  ["exceptionId", "databaseSha256", "expiresAt", "findingSha256", "issuedAt", "kind", "licenseExpression", "owner",
    "purl", "rationale"]

/-- The kind of a record. An empty record has no kind and all of the no keys
that are expected then, and its first field is missing. -/
def exceptionKind (item : Value) : Except RiskError Kind :=
  match item with
  | .dict [] => .error (.key "exceptionId")
  | .dict record =>
    match lookup "kind" record with
    | some (.str "vulnerability") => .ok .vulnerability
    | some (.str "license") => .ok .license
    | _ => fail "risk_policy_exception_invalid"
  | _ => fail "risk_policy_exception_invalid"

/-- One record of `_risk_exceptions`; `levels` is the room for nested licences. -/
def riskException (levels : Nat) (maximumDurationSeconds : Int) (minimumRationaleLength : Nat) (item : Value) :
    Except RiskError RiskException := do
  let invalid := "risk_policy_exception_invalid"
  let kind ← exceptionKind item
  let keys := match kind with
    | .vulnerability => vulnerabilityExceptionKeys
    | .license => licenseExceptionKeys
  let record ← exactKeys item keys invalid
  let exceptionId ← identifier isIdentifier (field record "exceptionId") invalid
  let purl ← canonicalPypiPurl (field record "purl") invalid
  let findingSha256 ← digest (field record "findingSha256") invalid
  let databaseSha256 ← digest (field record "databaseSha256") invalid
  let owner ← safeString (field record "owner") "risk_policy_exception_owner_invalid" 3 128
  if isIdentifier owner = false then fail "risk_policy_exception_owner_invalid"
  let rationale ← safeString (field record "rationale") "risk_policy_exception_rationale_invalid"
    minimumRationaleLength 2048
  let issuedAt ← parseTimestamp (field record "issuedAt") "risk_policy_exception_time_invalid"
  let expiresAt ← parseTimestamp (field record "expiresAt") "risk_policy_exception_time_invalid"
  let duration := wholeSeconds expiresAt issuedAt
  if duration ≤ 0 ∨ maximumDurationSeconds < duration then fail "risk_policy_exception_time_invalid"
  let subject ← match kind with
    | .vulnerability => (identifier isFindingId (field record "findingId") invalid).map some
    | .license =>
      match field record "licenseExpression" with
      | .null => .ok none
      | expression => (canonicalLicenseExpression levels expression invalid).map some
  .ok ⟨exceptionId, kind, purl, subject, findingSha256, databaseSha256, owner, rationale, issuedAt, expiresAt⟩

/-- No text before a smaller one. -/
def ascending (texts : List String) : Bool := decide (texts.Pairwise (fun a b => a.toList ≤ b.toList))

/-- `_risk_exceptions`. -/
def riskExceptions (levels : Nat) (value : Value) (maximumDurationSeconds : Int) (minimumRationaleLength : Nat) :
    Except RiskError ExceptionRecords := do
  let items ← listOf value 256 "risk_policy_exception_invalid"
  let records ← items.mapM (riskException levels maximumDurationSeconds minimumRationaleLength)
  if ascending (records.map RiskException.exceptionId) = false then fail "risk_policy_exception_invalid"
  else if ids : (records.map RiskException.exceptionId).Nodup then
    if scopes : (records.map RiskException.exactScope).Nodup then .ok ⟨records, ids, scopes⟩
    else fail "risk_policy_exception_scope_invalid"
  else fail "risk_policy_exception_invalid"

/-! ## Components -/

structure LicenseObservation where
  /-- Nothing, where the status is `unknown`. -/
  expression : Option String
  deriving DecidableEq

/-- `_license_observation`. -/
def licenseObservation (levels : Nat) (value : Value) : Except RiskError LicenseObservation := do
  let invalid := "risk_result_license_invalid"
  let record ← exactKeys value ["expression", "status"] invalid
  match field record "status", field record "expression" with
  | .str "known", .null => fail invalid
  | .str "known", expression => (canonicalLicenseExpression levels expression invalid).map (fun e => ⟨some e⟩)
  | .str "unknown", .null => .ok ⟨none⟩
  | _, _ => fail invalid

/-- A severity of the policy, as `_SEVERITY_RANK` ranks it. -/
inductive Severity where
  | low
  | medium
  | high
  | critical
  deriving DecidableEq

def Severity.rank : Severity → Nat
  | .low => 1
  | .medium => 2
  | .high => 3
  | .critical => 4

def Severity.text : Severity → String
  | .low => "low"
  | .medium => "medium"
  | .high => "high"
  | .critical => "critical"

/-- `_RESULT_SEVERITIES`: a severity, or nothing where it is `unknown`. -/
def resultSeverity (value : Value) (code : String) : Except RiskError (Option Severity) :=
  match value with
  | .str "low" => .ok (some .low)
  | .str "medium" => .ok (some .medium)
  | .str "high" => .ok (some .high)
  | .str "critical" => .ok (some .critical)
  | .str "unknown" => .ok none
  | _ => fail code

/-- `_FIX_STATUSES`. -/
inductive FixStatus where
  | available
  | none
  | unknown
  deriving DecidableEq

def FixStatus.text : FixStatus → String
  | .available => "available"
  | .none => "none"
  | .unknown => "unknown"

def fixStatusOf (value : Value) (code : String) : Except RiskError FixStatus :=
  match value with
  | .str "available" => .ok .available
  | .str "none" => .ok .none
  | .str "unknown" => .ok .unknown
  | _ => fail code

/-- `_SCAN_STATUSES`. -/
inductive ScanStatus where
  | complete
  | partly
  | error
  deriving DecidableEq

def scanStatusOf (value : Value) (code : String) : Except RiskError ScanStatus :=
  match value with
  | .str "complete" => .ok .complete
  | .str "partial" => .ok .partly
  | .str "error" => .ok .error
  | _ => fail code

structure VulnerabilityFinding where
  findingId : String
  aliases : List String
  severity : Option Severity
  fixStatus : FixStatus
  fixedVersions : List String
  deriving DecidableEq

/-- A list of texts, each read on its own, in order and without a duplicate. -/
def textList (read : Value → Except RiskError String) (value : Value) (maximum : Nat) (code : String) :
    Except RiskError (List String) := do
  let items ← listOf value maximum code
  let texts ← items.mapM read
  if ascending texts = false ∨ ¬texts.Nodup then fail code else .ok texts

/-- `_identifier_list`. -/
def identifierList (value : Value) (code : String) (maximum : Nat) : Except RiskError (List String) :=
  textList (fun item => identifier isFindingId item code) value maximum code

/-- `_version_list`. -/
def versionList (value : Value) (code : String) : Except RiskError (List String) :=
  textList (fun item => identifier isVersion item code) value 64 code

/-- One record of `_vulnerability_findings`, with the identities before it. -/
def vulnerabilityFinding (identities : List String) (item : Value) : Except RiskError VulnerabilityFinding := do
  let invalid := "risk_result_finding_invalid"
  let record ← exactKeys item ["aliases", "fixedVersions", "fixStatus", "id", "severity"] invalid
  let findingId ← identifier isFindingId (field record "id") invalid
  let aliases ← identifierList (field record "aliases") invalid 64
  if findingId ∈ aliases ∨ findingId ∈ identities ∨ (identities.any fun i => i ∈ aliases) then
    fail "risk_result_finding_duplicate"
  else do
    let severity ← resultSeverity (field record "severity") invalid
    let fixStatus ← fixStatusOf (field record "fixStatus") invalid
    let fixedVersions ← versionList (field record "fixedVersions") invalid
    if (fixStatus = .available) ↔ fixedVersions = [] then fail invalid
    else .ok ⟨findingId, aliases, severity, fixStatus, fixedVersions⟩

/-- The findings of a component, and what they are known as before a name is new. -/
structure Findings where
  found : List VulnerabilityFinding
  names : (found.map VulnerabilityFinding.findingId).Nodup

/-- The loop of `_vulnerability_findings`. -/
def findingsFrom : List String → List Value → Except RiskError (List VulnerabilityFinding)
  | _, [] => .ok []
  | identities, item :: rest => do
    let finding ← vulnerabilityFinding identities item
    let more ← findingsFrom (finding.findingId :: finding.aliases ++ identities) rest
    .ok (finding :: more)

theorem vulnerabilityFinding_new {identities : List String} {item : Value} {f : VulnerabilityFinding}
    (h : vulnerabilityFinding identities item = .ok f) : f.findingId ∉ identities := by
  obtain ⟨record, -, h⟩ := except_bind_ok.mp h
  obtain ⟨findingId, -, h⟩ := except_bind_ok.mp h
  obtain ⟨aliases, -, h⟩ := except_bind_ok.mp h
  split at h
  · cases h
  next hnew =>
    obtain ⟨severity, -, h⟩ := except_bind_ok.mp h
    obtain ⟨fixStatus, -, h⟩ := except_bind_ok.mp h
    obtain ⟨fixedVersions, -, h⟩ := except_bind_ok.mp h
    split at h
    · cases h
    · obtain rfl := Except.ok.inj h
      exact fun hmem => hnew (.inr (.inl hmem))

/-- **The names of the findings of a component.** -/
theorem findings_distinct {identities : List String} {items : List Value} {found : List VulnerabilityFinding}
    (h : findingsFrom identities items = .ok found) :
    (found.map VulnerabilityFinding.findingId).Nodup ∧ ∀ f ∈ found, f.findingId ∉ identities := by
  induction items generalizing identities found with
  | nil =>
    obtain rfl := Except.ok.inj h
    exact ⟨List.nodup_nil, fun f hf => absurd hf List.not_mem_nil⟩
  | cons item rest ih =>
    obtain ⟨f, hf, h⟩ := except_bind_ok.mp h
    obtain ⟨more, hmore, h⟩ := except_bind_ok.mp h
    obtain rfl := Except.ok.inj h
    obtain ⟨hnodup, hnew⟩ := ih hmore
    rw [List.map_cons, List.nodup_cons, List.forall_mem_cons]
    refine ⟨⟨?_, hnodup⟩, vulnerabilityFinding_new hf, ?_⟩
    · intro hmem
      obtain ⟨g, hg, heq⟩ := List.mem_map.mp hmem
      exact hnew g hg (by rw [heq]; simp)
    · intro g hg hmem
      exact hnew g hg (List.mem_append_right _ hmem)

/-- `_vulnerability_findings`. -/
def vulnerabilityFindings (value : Value) : Except RiskError Findings :=
  listOf value 256 "risk_result_finding_invalid" >>= fun items =>
    match h : findingsFrom [] items with
    | .error e => .error e
    | .ok found =>
      if ascending (found.map VulnerabilityFinding.findingId) = false then fail "risk_result_finding_invalid"
      else .ok ⟨found, (findings_distinct h).1⟩

structure ComponentScan where
  purl : String
  artifactSha256 : List String
  scanStatus : ScanStatus
  license : LicenseObservation
  vulnerabilities : Findings

/-- The components of a scan. -/
structure ComponentScans where
  scans : List ComponentScan
  purls : (scans.map ComponentScan.purl).Nodup

/-- One record of `_component_scans`, with the findings before it. -/
def componentScan (levels : Nat) (totalFindings : Nat) (item : Value) : Except RiskError ComponentScan := do
  let invalid := "risk_result_component_invalid"
  let record ← exactKeys item ["artifactSha256", "license", "purl", "scanStatus", "vulnerabilities"] invalid
  let hashes ← textList (fun item => digest item invalid) (field record "artifactSha256") 512 invalid
  if hashes = [] then fail invalid
  else do
    let scanStatus ← scanStatusOf (field record "scanStatus") invalid
    let findings ← vulnerabilityFindings (field record "vulnerabilities")
    if 4096 < totalFindings + findings.found.length then fail "risk_result_finding_invalid"
    else do
      let purl ← canonicalPypiPurl (field record "purl") invalid
      let license ← licenseObservation levels (field record "license")
      .ok ⟨purl, hashes, scanStatus, license, findings⟩

/-- The loop of `_component_scans`. -/
def scansFrom (levels : Nat) : Nat → List Value → Except RiskError (List ComponentScan)
  | _, [] => .ok []
  | totalFindings, item :: rest => do
    let scan ← componentScan levels totalFindings item
    let more ← scansFrom levels (totalFindings + scan.vulnerabilities.found.length) rest
    .ok (scan :: more)

/-- `_component_scans`. -/
def componentScans (levels : Nat) (value : Value) : Except RiskError ComponentScans := do
  let invalid := "risk_result_component_invalid"
  let items ← listOf value 512 invalid
  if items = [] then fail invalid
  else do
    let scans ← scansFrom levels 0 items
    if ascending (scans.map ComponentScan.purl) = false then fail invalid
    else if purls : (scans.map ComponentScan.purl).Nodup then .ok ⟨scans, purls⟩
    else fail "risk_result_component_duplicate"

/-! ## Findings -/

def newline (depth : Nat) : List Char := '\n' :: List.replicate (2 * depth) ' '

mutual

/-- `json.dumps(value, indent=2, separators=(",", ": "))` of an ASCII document. -/
def indented (depth : Nat) : Value → List Char
  | .list [] => ['[', ']']
  | .list (v :: rest) =>
    '[' :: (newline (depth + 1) ++ indented (depth + 1) v ++ indentedItems (depth + 1) rest ++ newline depth ++ [']'])
  | .dict [] => ['{', '}']
  | .dict ((k, v) :: rest) =>
    '{' :: (newline (depth + 1) ++ renderString k ++ [':', ' '] ++ indented (depth + 1) v ++
      indentedPairs (depth + 1) rest ++ newline depth ++ ['}'])
  | v => render v

def indentedItems (depth : Nat) : List Value → List Char
  | [] => []
  | v :: rest => ',' :: (newline depth ++ indented depth v ++ indentedItems depth rest)

def indentedPairs (depth : Nat) : List (String × Value) → List Char
  | [] => []
  | (k, v) :: rest =>
    ',' :: (newline depth ++ renderString k ++ [':', ' '] ++ indented depth v ++ indentedPairs depth rest)

end

/-- `canonical_json`. -/
def canonicalJson (value : Value) : String := String.ofList (indented 0 (PyJson.normalize value) ++ ['\n'])

def Kind.text : Kind → String
  | .license => "license"
  | .vulnerability => "vulnerability"

def texts (items : List String) : Value := .list (items.map Value.str)

/-- The `vulnerability` member of a finding's document. -/
def VulnerabilityFinding.document (f : VulnerabilityFinding) : Value :=
  .dict [("aliases", texts f.aliases), ("fixedVersions", texts f.fixedVersions), ("fixStatus", .str f.fixStatus.text),
    ("id", .str f.findingId), ("severity", .str ((f.severity.map Severity.text).getD "unknown"))]

/-- `_finding_document`. -/
def findingDocument (component : ComponentScan) (kind : Kind) (subject : Option String)
    (finding : Option VulnerabilityFinding) : Value :=
  .dict ([("artifactSha256", texts component.artifactSha256), ("kind", .str kind.text), ("purl", .str component.purl),
    ("subject", (subject.map Value.str).getD .null)] ++
    (finding.map (fun f => ("vulnerability", f.document))).toList)

/-- `vulnerability_finding_sha256`. -/
def vulnerabilityFindingSha256 (component : ComponentScan) (finding : VulnerabilityFinding) : String :=
  Sha256.hexDigest (canonicalJson (findingDocument component .vulnerability (some finding.findingId) (some finding)))

/-- `license_finding_sha256`. -/
def licenseFindingSha256 (component : ComponentScan) : String :=
  Sha256.hexDigest (canonicalJson (findingDocument component .license component.license.expression none))

end QuantumEntanglement.DependencyRisk
