import QuantumEntanglement.Lib.Checked
import QuantumEntanglement.Lib.ObjectHeap
import QuantumEntanglement.Lib.Sha256

/-
  Result texts — the checks of one field of an invocation result

  Each field of a result is checked where it is taken over: an exact type, a
  byte limit, Unicode NFC, no control characters, a range. A value that passes
  is the value it was. `unicodedata.normalize("NFC", ·)` is the parameter
  `nfc`: nothing is assumed of it.

  What is proved: `text_ok`, `bodyText_ok`, `digest_ok`, `blobDigest_ok`,
  `positiveInteger_ok`, `nonnegativeInteger_ok` and `effectClass_ok` — which
  values pass each check, and that they pass unchanged.
-/

namespace QuantumEntanglement.Results

open PyJson PyHeap PyText

def maxSqliteInteger : Int := 9223372036854775807
def minSqliteInteger : Int := -9223372036854775808
def maxIdentityBytes : Nat := 4096
def maxMediaTypeBytes : Nat := 255

/-- What the codecs raise: a `TypeError`, a `ValueError`, a `KeyError` or
Python's own `RecursionError`. -/
inductive ResultError where
  | typeError (message : String)
  | valueError (message : String)
  | keyError (key : String)
  | recursion
  deriving DecidableEq

/-- `EffectClass`. -/
inductive EffectClass where
  | pure
  | idempotent
  | receiptReconciled
  | nonRetriable
  deriving DecidableEq

/-- `EffectClass(...).value`. -/
def EffectClass.value : EffectClass → String
  | .pure => "pure"
  | .idempotent => "idempotent"
  | .receiptReconciled => "receipt_reconciled"
  | .nonRetriable => "non_retriable"

/-- `EffectClass(value)`. -/
def EffectClass.ofValue (value : String) : Option EffectClass :=
  [EffectClass.pure, .idempotent, .receiptReconciled, .nonRetriable].find? (fun c => c.value = value)

theorem EffectClass.ofValue_iff {s : String} {c : EffectClass} :
    EffectClass.ofValue s = some c ↔ s = c.value := by
  constructor
  · intro h
    have hfound := List.find?_some h
    exact (decide_eq_true_eq.mp hfound).symm
  · intro h
    subst h
    cases c <;> decide

/-! ## Texts -/

/-- A C0 control character or DEL. -/
def isControl (c : Char) : Bool := decide (c.toNat < 0x20) || c.toNat == 0x7F

/-- A control character other than a tab or a line feed. -/
def isBodyControl (c : Char) : Bool :=
  (decide (c.toNat < 0x20) && c != '\t' && c != '\n') || c.toNat == 0x7F

/-- `str.strip` would shorten the text of these code points, or it is empty. -/
def hasLooseEnd (units : List Nat) : Bool :=
  units.isEmpty || (units.head?.any (fun u => isSpace (Char.ofNat u))) ||
    (units.getLast?.any (fun u => isSpace (Char.ofNat u)))

section Texts

variable (nfc : String → String)

/-- `_text`. -/
def text (value : Obj) (label : String) (maximumBytes : Nat) : Except ResultError String :=
  match value with
  | .surrogates units =>
    if hasLooseEnd units then
      .error (.valueError (label ++ " must be non-empty without surrounding whitespace"))
    else .error (.valueError (label ++ " must be valid UTF-8"))
  | .str s =>
    if s = "" ∨ s ≠ strip s then
      .error (.valueError (label ++ " must be non-empty without surrounding whitespace"))
    else if maximumBytes < s.utf8ByteSize then
      .error (.valueError (label ++ " exceeds its UTF-8 byte limit"))
    else if s.toList.any isControl then
      .error (.valueError (label ++ " contains a C0 or DEL control character"))
    else if nfc s ≠ s then .error (.valueError (label ++ " must use Unicode NFC"))
    else .ok s
  | _ => .error (.typeError (label ++ " must be a plain string"))

/-- `_body_text`. -/
def bodyText (value : Obj) (label : String) (maximumBytes : Nat) : Except ResultError String :=
  match value with
  | .surrogates _ => .error (.valueError (label ++ " must be valid UTF-8"))
  | .str s =>
    if maximumBytes < s.utf8ByteSize then
      .error (.valueError (label ++ " exceeds its UTF-8 byte limit"))
    else if nfc s ≠ s then .error (.valueError (label ++ " must use Unicode NFC"))
    else if s.toList.any isBodyControl then
      .error (.valueError (label ++ " contains a forbidden control character"))
    else .ok s
  | _ => .error (.typeError (label ++ " must be a plain string"))

/-- `_digest`. -/
def digest (value : Obj) (label : String) : Except ResultError String := do
  let digest ← text nfc value label 64
  if Sha256.IsHexDigest digest then .ok digest
  else .error (.valueError (label ++ " must be canonical lowercase SHA-256"))

/-- `sha256:` and 64 lowercase hexadecimal digits. -/
def IsBlobDigest (s : String) : Prop :=
  s.toList.take 7 = "sha256:".toList ∧ Sha256.IsHexDigest (String.ofList (s.toList.drop 7))

instance (s : String) : Decidable (IsBlobDigest s) := inferInstanceAs (Decidable (_ ∧ _))

/-- `_blob_digest`. -/
def blobDigest (value : Obj) : Except ResultError String := do
  let digest ← text nfc value "blobDigest" 71
  if IsBlobDigest digest then .ok digest
  else .error (.valueError "blobDigest must be canonical sha256:<lowercase-hex>")

end Texts

/-! ## Numbers and classes -/

/-- An exact integer of a range. -/
def integerFrom (least : Int) (value : Obj) (label : String) : Except ResultError Int :=
  match value with
  | .int n =>
    if n < least ∨ maxSqliteInteger < n then
      .error (.valueError (label ++ " is outside its supported range"))
    else .ok n
  | _ => .error (.typeError (label ++ " must be an exact integer"))

/-- `_positive_integer`. -/
def positiveInteger (value : Obj) (label : String) : Except ResultError Int :=
  integerFrom 1 value label

/-- `_nonnegative_integer`. -/
def nonnegativeInteger (value : Obj) (label : String) : Except ResultError Int :=
  integerFrom 0 value label

/-- `_effect_class`. -/
def effectClass (value : Obj) : Except ResultError EffectClass :=
  match value with
  | .str s =>
    match EffectClass.ofValue s with
    | some c => .ok c
    | none => .error (.valueError "effectClass is unsupported")
  | .surrogates _ => .error (.valueError "effectClass is unsupported")
  | _ => .error (.typeError "effectClass must be a plain string")

/-- The bytes of a text are those of its characters. -/
theorem utf8Size_ofList (l : List Char) :
    (String.ofList l).toUTF8.size = (l.map Char.utf8Size).sum := by
  induction l with
  | nil => rfl
  | cons c rest ih =>
    show (String.ofList (c :: rest)).utf8ByteSize = _
    rw [String.ofList_cons, String.utf8ByteSize_append, String.utf8ByteSize_singleton,
      List.map_cons, List.sum_cons, ← ih]
    rfl

/-! ## What passes -/

section Passing

variable {nfc : String → String}

/-- A text `text` accepts. -/
structure IsText (nfc : String → String) (maximumBytes : Nat) (s : String) : Prop where
  nonEmpty : s ≠ ""
  stripped : s = strip s
  bytes : s.utf8ByteSize ≤ maximumBytes
  controls : s.toList.any isControl = false
  normal : nfc s = s

/-- A text `bodyText` accepts. -/
structure IsBody (nfc : String → String) (maximumBytes : Nat) (s : String) : Prop where
  bytes : s.utf8ByteSize ≤ maximumBytes
  normal : nfc s = s
  controls : s.toList.any isBodyControl = false

instance (nfc : String → String) (maximumBytes : Nat) (s : String) :
    Decidable (IsText nfc maximumBytes s) :=
  decidable_of_iff (s ≠ "" ∧ s = strip s ∧ s.utf8ByteSize ≤ maximumBytes ∧
      s.toList.any isControl = false ∧ nfc s = s)
    ⟨fun h => ⟨h.1, h.2.1, h.2.2.1, h.2.2.2.1, h.2.2.2.2⟩,
      fun h => ⟨h.nonEmpty, h.stripped, h.bytes, h.controls, h.normal⟩⟩

instance (nfc : String → String) (maximumBytes : Nat) (s : String) :
    Decidable (IsBody nfc maximumBytes s) :=
  decidable_of_iff (s.utf8ByteSize ≤ maximumBytes ∧ nfc s = s ∧
      s.toList.any isBodyControl = false)
    ⟨fun h => ⟨h.1, h.2.1, h.2.2⟩, fun h => ⟨h.bytes, h.normal, h.controls⟩⟩

theorem text_ok {value : Obj} {label : String} {maximumBytes : Nat} {s : String} :
    text nfc value label maximumBytes = .ok s ↔ value = .str s ∧ IsText nfc maximumBytes s := by
  constructor
  · intro h
    cases value with
    | str t =>
      simp only [text] at h
      split at h
      · cases h
      next hends =>
        split at h
        · cases h
        next hbytes =>
          split at h
          · cases h
          next hcontrols =>
            split at h
            · cases h
            next hnormal =>
              cases h
              rw [not_or, not_not] at hends
              exact ⟨rfl, hends.1, hends.2, Nat.not_lt.mp hbytes, by simpa using hcontrols,
                not_not.mp hnormal⟩
    | surrogates units =>
      simp only [text] at h
      split at h <;> cases h
    | _ => cases h
  · intro h
    obtain ⟨rfl, hs⟩ := h
    have hends : ¬(s = "" ∨ s ≠ strip s) := by
      rw [not_or, not_not]
      exact ⟨hs.nonEmpty, hs.stripped⟩
    rw [text, if_neg hends, if_neg (Nat.not_lt.mpr hs.bytes), if_neg (by simp [hs.controls]),
      if_neg (not_not.mpr hs.normal)]

theorem bodyText_ok {value : Obj} {label : String} {maximumBytes : Nat} {s : String} :
    bodyText nfc value label maximumBytes = .ok s ↔
      value = .str s ∧ IsBody nfc maximumBytes s := by
  constructor
  · intro h
    cases value with
    | str t =>
      simp only [bodyText] at h
      split at h
      · cases h
      next hbytes =>
        split at h
        · cases h
        next hnormal =>
          split at h
          · cases h
          next hcontrols =>
            cases h
            exact ⟨rfl, Nat.not_lt.mp hbytes, not_not.mp hnormal, by simpa using hcontrols⟩
    | _ => cases h
  · intro h
    obtain ⟨rfl, hs⟩ := h
    rw [bodyText, if_neg (Nat.not_lt.mpr hs.bytes), if_neg (not_not.mpr hs.normal),
      if_neg (by simp [hs.controls])]

/-- A result of `if c then .ok a else .error e`. -/
theorem checked_ok {α : Type} {c : Prop} [Decidable c] {a b : α} {e : ResultError} :
    (if c then .ok a else .error e : Except ResultError α) = .ok b ↔ c ∧ a = b := by
  split
  next h => simp [h]
  next h => simp [h]

theorem digest_ok {value : Obj} {label : String} {s : String} :
    digest nfc value label = .ok s ↔
      value = .str s ∧ IsText nfc 64 s ∧ Sha256.IsHexDigest s := by
  simp only [digest, Checked.except_bind_ok, text_ok, checked_ok]
  constructor
  · intro h
    obtain ⟨_, ⟨hvalue, ht⟩, hhex, rfl⟩ := h
    exact ⟨hvalue, ht, hhex⟩
  · intro h
    exact ⟨s, ⟨h.1, h.2.1⟩, h.2.2, rfl⟩

theorem blobDigest_ok {value : Obj} {s : String} :
    blobDigest nfc value = .ok s ↔ value = .str s ∧ IsText nfc 71 s ∧ IsBlobDigest s := by
  simp only [blobDigest, Checked.except_bind_ok, text_ok, checked_ok]
  constructor
  · intro h
    obtain ⟨_, ⟨hvalue, ht⟩, hhex, rfl⟩ := h
    exact ⟨hvalue, ht, hhex⟩
  · intro h
    exact ⟨s, ⟨h.1, h.2.1⟩, h.2.2, rfl⟩

theorem integerFrom_ok {least : Int} {value : Obj} {label : String} {n : Int} :
    integerFrom least value label = .ok n ↔
      value = .int n ∧ least ≤ n ∧ n ≤ maxSqliteInteger := by
  cases value with
  | int m =>
    simp only [integerFrom, Obj.int.injEq]
    split
    next hout =>
      simp only [reduceCtorEq, false_iff]
      intro h
      omega
    next hin =>
      rw [Except.ok.injEq]
      constructor
      · intro h
        exact ⟨h, by omega⟩
      · intro h
        exact h.1
  | _ => simp [integerFrom]

theorem positiveInteger_ok {value : Obj} {label : String} {n : Int} :
    positiveInteger value label = .ok n ↔ value = .int n ∧ 1 ≤ n ∧ n ≤ maxSqliteInteger :=
  integerFrom_ok

theorem nonnegativeInteger_ok {value : Obj} {label : String} {n : Int} :
    nonnegativeInteger value label = .ok n ↔ value = .int n ∧ 0 ≤ n ∧ n ≤ maxSqliteInteger :=
  integerFrom_ok

theorem effectClass_ok {value : Obj} {c : EffectClass} :
    effectClass value = .ok c ↔ value = .str c.value := by
  cases value with
  | str s =>
    simp only [effectClass, Obj.str.injEq]
    split
    next c' hc =>
      rw [EffectClass.ofValue_iff] at hc
      rw [hc, Except.ok.injEq]
      cases c <;> cases c' <;> decide
    next hnone =>
      simp only [reduceCtorEq, false_iff]
      intro heq
      rw [EffectClass.ofValue_iff.mpr heq] at hnone
      cases hnone
  | _ => simp [effectClass]

end Passing

end QuantumEntanglement.Results
