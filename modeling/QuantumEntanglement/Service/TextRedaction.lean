import Mathlib

/-
  Text redaction — credentials of known shapes replaced in a bounded prefix

  A diagnostic text is cut at a scan limit, four patterns are replaced in what
  is left, one after the other, and the result is cut to the policy's length.

  A Python `str` is the list of its code points, lone surrogates among them.
  Each pattern is written as the matcher of the rest of the text that the
  regular expression is: every repetition in them runs to the end of its
  character class except where a word boundary has to follow, and there the
  longest run that ends at one is taken. `alnum` says which code points above
  ASCII `str.isalnum` accepts; nothing is assumed of it.
-/

namespace QuantumEntanglement.Redaction

/-- The code points of a `str`. -/
abbrev Text := List Nat

def lit (s : String) : Text := s.toList.map Char.toNat

/-- Hard bounds for one diagnostic sanitization operation. -/
structure RedactionPolicy where
  maximumDepth : Nat
  maximumItems : Nat
  maximumString : Nat
  maximumNodes : Nat
  depthRange : 1 ≤ maximumDepth ∧ maximumDepth ≤ 32
  itemsRange : 1 ≤ maximumItems ∧ maximumItems ≤ 1024
  stringRange : 1 ≤ maximumString ∧ maximumString ≤ 4096
  nodesRange : 1 ≤ maximumNodes ∧ maximumNodes ≤ 100000

/-! ## Characters -/

def isLower (n : Nat) : Bool := 97 ≤ n && n ≤ 122
def isUpper (n : Nat) : Bool := 65 ≤ n && n ≤ 90
def isDigit (n : Nat) : Bool := 48 ≤ n && n ≤ 57
def isLetter (n : Nat) : Bool := isLower n || isUpper n

/-- `\s`. -/
def isSpaceCode (n : Nat) : Bool :=
  (0x09 ≤ n && n ≤ 0x0D) || (0x1C ≤ n && n ≤ 0x20) || n == 0x85 || n == 0xA0 || n == 0x1680 ||
    (0x2000 ≤ n && n ≤ 0x200A) || n == 0x2028 || n == 0x2029 || n == 0x202F || n == 0x205F ||
    n == 0x3000

/-- The four code points outside ASCII that are a letter `i`, `s` or `k` when
case is ignored. -/
def foldedLetter (n : Nat) : Option Nat :=
  if n = 0x130 ∨ n = 0x131 then some 105
  else if n = 0x17F then some 115
  else if n = 0x212A then some 107
  else none

/-- A code point is the lower-case letter or the sign, case ignored. -/
def sameIgnoringCase (letter n : Nat) : Bool :=
  n == letter || (isLower letter && n + 32 == letter) || foldedLetter n == some letter

/-- `[A-Za-z0-9_-]`. -/
def isTokenCode (n : Nat) : Bool := isLetter n || isDigit n || n == 95 || n == 45

/-- A letter, a digit or one of `. _ ~ + / -`, case ignored. -/
def isCredentialCode (n : Nat) : Bool :=
  isLetter n || isDigit n || n == 46 || n == 95 || n == 126 || n == 43 || n == 47 || n == 45 ||
    (foldedLetter n).isSome

section Patterns

variable (alnum : Nat → Bool)

/-- `\w`. -/
def isWordCode (n : Nat) : Bool :=
  isLetter n || isDigit n || n == 95 || (128 ≤ n && alnum n)

/-- `\b` between two code points, or at an end of the text. -/
def isBoundary (before after : Option Nat) : Bool :=
  (before.any (isWordCode alnum)) != (after.any (isWordCode alnum))

/-! ## Patterns

What is left of a text after a match at its start. -/

/-- A literal, case ignored. -/
def skipWord : Text → Text → Option Text
  | [], s => some s
  | _ :: _, [] => none
  | letter :: word, n :: s => if sameIgnoringCase letter n then skipWord word s else none

/-- A literal. -/
def skipLiteral : Text → Text → Option Text
  | [], s => some s
  | _ :: _, [] => none
  | m :: word, n :: s => if m = n then skipLiteral word s else none

/-- A run of at least `minimum` code points of a class. -/
def skipRun (accepts : Nat → Bool) (minimum : Nat) (s : Text) : Option Text :=
  if (s.takeWhile accepts).length < minimum then none else some (s.dropWhile accepts)

/-- The longest part of a run that ends at a word boundary; the run is given
from its end. -/
def endAtBoundary (minimum : Nat) : List Nat → Text → Option Text
  | [], _ => none
  | n :: taken, rest =>
    if taken.length + 1 < minimum then none
    else if isBoundary alnum (some n) rest.head? then some rest
    else endAtBoundary minimum taken (n :: rest)

def skipBoundedRun (minimum : Nat) (s : Text) : Option Text :=
  endAtBoundary alnum minimum (s.takeWhile isTokenCode).reverse (s.dropWhile isTokenCode)

/-- `(?:bearer|basic)\s+`, four credential characters or more, `=*`. -/
def matchAuthorization (s : Text) : Option Text := do
  let s ← (skipWord (lit "bearer") s).orElse (fun _ => skipWord (lit "basic") s)
  let s ← skipRun isSpaceCode 1 s
  let s ← skipRun isCredentialCode 4 s
  pure (s.dropWhile (· == 61))

/-- `https?://[^\s/@:]+:[^\s/@]+@` -/
def matchUserinfo (s : Text) : Option Text := do
  let s ← skipWord (lit "http") s
  let s := (skipWord (lit "s") s).getD s
  let s ← skipWord (lit "://") s
  let s ← skipRun (fun n => !(isSpaceCode n || n == 47 || n == 64 || n == 58)) 1 s
  let s ← skipLiteral (lit ":") s
  let s ← skipRun (fun n => !(isSpaceCode n || n == 47 || n == 64)) 1 s
  skipLiteral (lit "@") s

/-- `sk-[A-Za-z0-9_-]{8,}\b` -/
def matchSecretKey (s : Text) : Option Text := do
  let s ← skipLiteral (lit "sk-") s
  skipBoundedRun alnum 8 s

/-- `[A-Za-z0-9_-]{16,}\.[A-Za-z0-9_-]{16,}\.[A-Za-z0-9_-]{16,}\b` -/
def matchJwt (s : Text) : Option Text := do
  let s ← skipRun isTokenCode 16 s
  let s ← skipLiteral (lit ".") s
  let s ← skipRun isTokenCode 16 s
  let s ← skipLiteral (lit ".") s
  skipBoundedRun alnum 16 s

/-- `_TEXT_PATTERNS`; each begins with `\b`. -/
def textPatterns : List ((Text → Option Text) × Text) :=
  [(matchAuthorization, lit "authorization <redacted>"),
    (matchUserinfo, lit "https://<redacted>@"),
    (matchSecretKey alnum, lit "sk-<redacted>"),
    (matchJwt alnum, lit "<redacted-jwt>")]

/-! ## Replacement -/

/-- The leftmost matches replaced, after the code point `before`. -/
def substituteFrom (matcher : Text → Option Text) (replacement : Text) :
    Nat → Option Nat → Text → Text
  | 0, _, s => s
  | _ + 1, _, [] => []
  | fuel + 1, before, n :: s =>
    match (if isBoundary alnum before (some n) then matcher (n :: s) else none) with
    | some rest =>
      replacement ++ substituteFrom matcher replacement fuel
        ((n :: s).take ((n :: s).length - rest.length)).getLast? rest
    | none => n :: substituteFrom matcher replacement fuel (some n) s

/-- `pattern.sub(replacement, s)`. -/
def substitute (pattern : (Text → Option Text) × Text) (s : Text) : Text :=
  substituteFrom alnum pattern.1 pattern.2 s.length none s

/-- Every pattern replaced, in their order. -/
def redactText (s : Text) : Text :=
  (textPatterns alnum).foldl (fun s pattern => substitute alnum pattern s) s

def scanLimit (policy : RedactionPolicy) : Nat := max 1024 (policy.maximumString * 4)

def truncatedMarker : Text := lit "<truncated>"

/-- `_sanitize_text`. -/
def sanitizeText (policy : RedactionPolicy) (value : Text) : Text :=
  let rendered := redactText alnum (value.take (scanLimit policy))
  if policy.maximumString < rendered.length then
    rendered.take policy.maximumString ++ truncatedMarker
  else if scanLimit policy < value.length then rendered ++ truncatedMarker
  else rendered

theorem sanitizeText_length (policy : RedactionPolicy) (value : Text) :
    (sanitizeText alnum policy value).length ≤ policy.maximumString + truncatedMarker.length := by
  simp only [sanitizeText]
  split
  · rw [List.length_append, List.length_take]
    omega
  · split
    · rw [List.length_append]
      omega
    · omega

end Patterns

example : redactText (fun _ => false) (lit "Basic dXNlcg== at https://u:p@h sk-12345678") =
    lit "authorization <redacted> at https://<redacted>@h sk-<redacted>" := by
  decide +kernel

end QuantumEntanglement.Redaction
