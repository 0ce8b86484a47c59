import QuantumEntanglement.Lib.Descent
import QuantumEntanglement.Lib.PyJson

/-
  Licence expressions — tokens, a recogniser, and the canonical text

  An expression is read in three steps that know nothing of each other: it is
  cut into tokens, the tokens are recognised by descent, and they are written
  out again, which has to give the expression back. The descent uses the
  interpreter's stack, so there is a number of levels of parentheses from
  which on it raises; the length of an expression is bounded as well.

  What is proved:
    1. `tokenizeFrom_spaced` — the canonical text of tokens has these tokens.
    2. `recognise_complete`, `recognise_sound` — the grammar, both ways.
    3. `canonical_license_expression_laws` — what is accepted.
    4. `long_sentence_refused` — a sentence that is too long.
-/

namespace QuantumEntanglement.DependencyRisk

open PyJson PyText Checked Descent

inductive RiskError where
  | risk (code : String)
  /-- `RecursionError`, which nothing here catches. -/
  | recursion
  /-- `KeyError`, which nothing here catches. -/
  | key (name : String)
  deriving DecidableEq

def fail {α : Type} (code : String) : Except RiskError α := .error (.risk code)

/-- `_safe_string`. -/
def safeString (value : Value) (code : String) (minimum maximum : Nat) : Except RiskError String :=
  match value with
  | .str result =>
    if result.toList.any (fun c => 128 ≤ c.toNat) then fail code
    else if result.toList.length < minimum ∨ maximum < result.toList.length then fail code
    else if result.toList.any (fun c => c.toNat < 32 || c.toNat == 127) then fail code
    else .ok result
  | _ => fail code

/-! ## The tokenizer -/

def spdxOperators : List String := ["AND", "OR", "WITH"]

def spdxLetter (c : Char) : Bool := c.isAlphanum || c == '.' || c == '+' || c == '-'

/-- `_SPDX_IDENTIFIER_PATTERN`. -/
def isSpdxIdentifier (token : String) : Bool :=
  match token.toList with
  | [] => false
  | c :: rest => c.isAlphanum && decide (rest.length ≤ 126) && rest.all spdxLetter

/-- Neither a space nor a parenthesis. -/
def ordinary (c : Char) : Bool := !(c == ' ' || c == '(' || c == ')')

def tokenizeFrom : List Char → Except RiskError (List String)
  | [] => .ok []
  | c :: rest =>
    if c = ' ' then tokenizeFrom rest
    else if c = '(' ∨ c = ')' then
      tokenizeFrom rest >>= fun tokens => .ok (String.ofList [c] :: tokens)
    else
      let token := String.ofList (c :: rest.takeWhile ordinary)
      if token ∉ spdxOperators ∧ isSpdxIdentifier token = false then fail "license_expression_invalid"
      else tokenizeFrom (rest.dropWhile ordinary) >>= fun tokens => .ok (token :: tokens)
termination_by expression => expression.length
decreasing_by
  · exact Nat.lt_succ_self _
  · exact Nat.lt_succ_self _
  · exact Nat.lt_succ_of_le (List.dropWhile_suffix _).length_le

/-- `_tokenize_spdx`. -/
def tokenizeSpdx (expression : String) : Except RiskError (List String) :=
  tokenizeFrom expression.toList >>= fun tokens =>
    if tokens = [] then fail "license_expression_invalid" else .ok tokens

/-! ## The recogniser -/

abbrev Tokens : Type := List String

def parsePrimary (parseOr : Tokens → Except RiskError Tokens) : Tokens → Except RiskError Tokens
  | [] => fail "license_expression_invalid"
  | token :: rest =>
    if token = "(" then
      parseOr rest >>= fun
        | [] => fail "license_expression_invalid"
        | close :: after => if close = ")" then .ok after else fail "license_expression_invalid"
    else if token ∈ spdxOperators ∨ token = ")" then fail "license_expression_invalid"
    else if token = "NONE" ∨ token = "NOASSERTION" then fail "license_expression_unknown"
    else .ok rest

def takeException : Tokens → Except RiskError Tokens
  | [] => fail "license_expression_invalid"
  | exception :: rest =>
    if exception ∈ spdxOperators ∨ exception = "(" ∨ exception = ")" then fail "license_expression_invalid"
    else .ok rest

/-- What may follow a primary: `WITH` and an exception. -/
def parseException : Tokens → Except RiskError Tokens
  | [] => .ok []
  | token :: rest => if token = "WITH" then takeException rest else .ok (token :: rest)

def parseWith (parseOr : Tokens → Except RiskError Tokens) (tokens : Tokens) : Except RiskError Tokens :=
  parsePrimary parseOr tokens >>= parseException

def parseAnd (parseOr : Tokens → Except RiskError Tokens) : Tokens → Except RiskError Tokens :=
  separated "AND" (parseWith parseOr)

/-- `_parse_or`, with the levels of parentheses the stack has room for. -/
def parseOr : Nat → Tokens → Except RiskError Tokens
  | 0 => fun _ => .error .recursion
  | levels + 1 => separated "OR" (parseAnd (parseOr levels))

/-- `_SpdxParser.parse`. -/
def parse (levels : Nat) (tokens : Tokens) : Except RiskError Unit :=
  parseOr levels tokens >>= fun rest => if rest = [] then .ok () else fail "license_expression_invalid"

/-! ## The renderer -/

/-- `str.rstrip`, on the characters. -/
def rstrip (s : List Char) : List Char := (s.reverse.dropWhile isSpace).reverse

/-- One token, after what is rendered. -/
def renderToken (rendered : List Char) (token : String) : List Char :=
  if token = "(" then
    if rendered ≠ [] ∧ rendered.getLast? ≠ some ' ' ∧ rendered.getLast? ≠ some '(' then
      rendered ++ [' '] ++ token.toList
    else rendered ++ token.toList
  else if token = ")" then rstrip rendered ++ token.toList
  else if rendered ≠ [] ∧ rendered.getLast? ≠ some '(' then rendered ++ [' '] ++ token.toList
  else rendered ++ token.toList

/-- `_render_spdx`. -/
def renderSpdx (tokens : Tokens) : String := String.ofList (tokens.foldl renderToken [])

/-- `canonical_license_expression`. -/
def canonicalLicenseExpression (levels : Nat) (value : Value) (code : String) : Except RiskError String :=
  safeString value code 1 1024 >>= fun expression =>
  tokenizeSpdx expression >>= fun tokens =>
  parse levels tokens >>= fun _ =>
  if renderSpdx tokens ≠ expression then fail "license_expression_noncanonical" else .ok expression

/-! ## The grammar -/

/-- A token of the identifier class that is no operator. -/
def Identifier (t : String) : Prop := isSpdxIdentifier t = true ∧ t ∉ spdxOperators

instance (t : String) : Decidable (Identifier t) := inferInstanceAs (Decidable (_ ∧ _))

inductive Category where
  | orExpr
  | andExpr
  | withExpr
  | primary

/-- The sentences of a category, with the depth to which parentheses nest. -/
inductive Derives : Category → Nat → Tokens → Prop
  | identifier {t : String} : Identifier t → t ≠ "NONE" → t ≠ "NOASSERTION" → Derives .primary 0 [t]
  | group {n : Nat} {ts : Tokens} : Derives .orExpr n ts → Derives .primary (n + 1) ("(" :: (ts ++ [")"]))
  | plain {n : Nat} {ts : Tokens} : Derives .primary n ts → Derives .withExpr n ts
  | exception {n : Nat} {ts : Tokens} {t : String} :
      Derives .primary n ts → Identifier t → Derives .withExpr n (ts ++ ["WITH", t])
  | andOne {n : Nat} {ts : Tokens} : Derives .withExpr n ts → Derives .andExpr n ts
  | andMore {m n : Nat} {ts us : Tokens} :
      Derives .withExpr m ts → Derives .andExpr n us → Derives .andExpr (max m n) (ts ++ "AND" :: us)
  | orOne {n : Nat} {ts : Tokens} : Derives .andExpr n ts → Derives .orExpr n ts
  | orMore {m n : Nat} {ts us : Tokens} :
      Derives .andExpr m ts → Derives .orExpr n us → Derives .orExpr (max m n) (ts ++ "OR" :: us)

/-- A space between two tokens, but none inside a parenthesis. -/
def gap (t u : String) : List Char := if t = "(" ∨ u = ")" then [] else [' ']

def spacedFrom (previous : String) : Tokens → List Char
  | [] => []
  | t :: rest => gap previous t ++ t.toList ++ spacedFrom t rest

/-- The canonical text of a token sequence. -/
def spaced : Tokens → List Char
  | [] => []
  | t :: rest => t.toList ++ spacedFrom t rest

/-- The expression is accepted. -/
def Accepts (levels : Nat) (code expression : String) : Prop :=
  ∃ text, canonicalLicenseExpression levels (.str expression) code = .ok text

variable {t u : String} {ts us rest : Tokens} {levels n : Nat} {c : Char}

/-! ## Letters and tokens -/

theorem spdxLetter_range (h : spdxLetter c = true) :
    33 ≤ c.toNat ∧ c.toNat ≤ 122 ∧ c.toNat ≠ 40 ∧ c.toNat ≠ 41 := by
  have hval : c.val.toNat = c.toNat := rfl
  simp only [spdxLetter, Char.isAlphanum, Char.isAlpha, Char.isUpper, Char.isLower, Char.isDigit, Bool.or_eq_true,
    Bool.and_eq_true, decide_eq_true_eq, beq_iff_eq, UInt32.le_iff_toNat_le, ge_iff_le] at h
  obtain (((((h | h) | h) | rfl) | rfl) | rfl) := h
  · obtain ⟨hlow, hhigh⟩ := h
    simp at hlow hhigh
    omega
  · obtain ⟨hlow, hhigh⟩ := h
    simp at hlow hhigh
    omega
  · obtain ⟨hlow, hhigh⟩ := h
    simp at hlow hhigh
    omega
  · decide
  · decide
  · decide

theorem spdxLetter_ordinary (h : spdxLetter c = true) : ordinary c = true := by
  have hrange := spdxLetter_range h
  have hspace : c ≠ ' ' := by
    intro heq
    rw [heq] at hrange
    exact absurd hrange.1 (by decide)
  have hopen : c ≠ '(' := fun heq => hrange.2.2.1 (by rw [heq]; rfl)
  have hclose : c ≠ ')' := fun heq => hrange.2.2.2 (by rw [heq]; rfl)
  simp [ordinary, hspace, hopen, hclose]

theorem spdxLetter_not_space (h : spdxLetter c = true) : isSpace c = false := by
  have hrange := spdxLetter_range h
  rw [isSpace]
  simp
  omega

/-- An operator or an identifier. -/
def Word (t : String) : Prop := t ∈ spdxOperators ∨ isSpdxIdentifier t = true

/-- What the tokenizer may give. -/
def Token (t : String) : Prop := t = "(" ∨ t = ")" ∨ Word t

theorem Word.letters (h : Word t) : t.toList ≠ [] ∧ ∀ c ∈ t.toList, spdxLetter c = true := by
  obtain h | h := h
  · have hall : ∀ o ∈ spdxOperators, o.toList ≠ [] ∧ ∀ c ∈ o.toList, spdxLetter c = true := by decide
    exact hall t h
  · rw [isSpdxIdentifier] at h
    split at h
    · cases h
    next c rest heq =>
      rw [Bool.and_eq_true, Bool.and_eq_true] at h
      obtain ⟨⟨hhead, -⟩, htail⟩ := h
      rw [heq, List.forall_mem_cons]
      refine ⟨List.cons_ne_nil _ _, ?_⟩
      exact ⟨by rw [spdxLetter, hhead]; rfl, List.all_eq_true.mp htail⟩

/-- A token ends with its own character, and not with a space. -/
theorem Token.last (h : Token t) :
    ∃ c, t.toList.getLast? = some c ∧ (c = '(' ↔ t = "(") ∧ isSpace c = false := by
  obtain rfl | rfl | h := h
  · exact ⟨'(', by decide, by decide, by decide⟩
  · exact ⟨')', by decide, by decide, by decide⟩
  · obtain ⟨hne, hletters⟩ := h.letters
    have hlast := List.getLast?_eq_some_getLast hne
    have hletter := hletters _ (List.getLast_mem hne)
    refine ⟨_, hlast, ?_, spdxLetter_not_space hletter⟩
    constructor
    · intro heq
      rw [heq] at hletter
      exact absurd hletter (by decide)
    · intro heq
      have hparen := hletters '(' (by rw [heq]; decide)
      exact absurd hparen (by decide)

theorem Token.ne_nil (h : Token t) : t.toList ≠ [] := by
  obtain ⟨c, hlast, -⟩ := h.last
  intro hnil
  rw [hnil] at hlast
  cases hlast

theorem Word.ne_paren (h : Word t) : t ≠ "(" ∧ t ≠ ")" := by
  constructor
  · intro heq
    exact absurd (h.letters.2 '(' (by rw [heq]; decide)) (by decide)
  · intro heq
    exact absurd (h.letters.2 ')' (by rw [heq]; decide)) (by decide)

/-! ## The tokens of a canonical text -/

theorem tokenizeFrom_space (cs : List Char) : tokenizeFrom (' ' :: cs) = tokenizeFrom cs := by
  rw [tokenizeFrom, if_pos rfl]

theorem tokenizeFrom_paren (h : c = '(' ∨ c = ')') (cs : List Char) :
    tokenizeFrom (c :: cs) = tokenizeFrom cs >>= fun tokens => .ok (String.ofList [c] :: tokens) := by
  have hne : c ≠ ' ' := by
    obtain rfl | rfl := h <;> decide
  rw [tokenizeFrom, if_neg hne, if_pos h]

/-- A word, up to where it ends. -/
theorem tokenizeFrom_word (h : Word t) {cs : List Char} (hend : ∀ c, cs.head? = some c → ordinary c = false) :
    tokenizeFrom (t.toList ++ cs) = tokenizeFrom cs >>= fun tokens => .ok (t :: tokens) := by
  obtain ⟨hne, hletters⟩ := h.letters
  have hstop : cs.dropWhile ordinary = cs ∧ cs.takeWhile ordinary = [] := by
    cases cs with
    | nil => exact ⟨rfl, rfl⟩
    | cons d cs =>
      have hd := hend d rfl
      exact ⟨by rw [List.dropWhile_cons, hd]; rfl, by rw [List.takeWhile_cons, hd]; rfl⟩
  cases hlist : t.toList with
  | nil => exact absurd hlist hne
  | cons d body =>
    rw [hlist] at hletters
    rw [List.forall_mem_cons] at hletters
    obtain ⟨hd, hbody⟩ := hletters
    have hall : ∀ c ∈ body, ordinary c = true := fun c hc => spdxLetter_ordinary (hbody c hc)
    have hord := spdxLetter_ordinary hd
    have hspace : d ≠ ' ' := by
      intro heq
      rw [heq] at hord
      cases hord
    have hparen : ¬(d = '(' ∨ d = ')') := by
      rintro (heq | heq) <;> rw [heq] at hord <;> cases hord
    have htoken : String.ofList (d :: body) = t := by rw [← hlist, String.ofList_toList]
    have hword : ¬(t ∉ spdxOperators ∧ isSpdxIdentifier t = false) := by
      rintro ⟨hop, hid⟩
      obtain h | h := h
      · exact hop h
      · rw [hid] at h
        cases h
    rw [List.cons_append, tokenizeFrom, if_neg hspace, if_neg hparen, List.takeWhile_append_of_pos hall, hstop.2,
      List.append_nil, List.dropWhile_append_of_pos hall, hstop.1, htoken, if_neg hword]

/-- A word is followed by a space, by a parenthesis or by nothing. -/
theorem spacedFrom_head (h : Word t) (hts : ∀ u ∈ ts, Token u) :
    ∀ c, (spacedFrom t ts).head? = some c → ordinary c = false := by
  intro c hc
  cases ts with
  | nil => cases hc
  | cons u rest =>
    rw [spacedFrom, gap] at hc
    by_cases hclose : u = ")"
    · subst hclose
      rw [if_pos (.inr rfl)] at hc
      obtain rfl := Option.some.inj hc
      rfl
    · rw [if_neg (by simp [h.ne_paren.1, hclose])] at hc
      obtain rfl := Option.some.inj hc
      rfl

theorem tokenizeFrom_spacedFrom (hts : ∀ u ∈ ts, Token u) : tokenizeFrom (spacedFrom t ts) = .ok ts := by
  induction ts generalizing t with
  | nil => rw [spacedFrom, tokenizeFrom]
  | cons u rest ih =>
    rw [List.forall_mem_cons] at hts
    obtain ⟨hu, hrest⟩ := hts
    have hgap : tokenizeFrom (spacedFrom t (u :: rest)) = tokenizeFrom (u.toList ++ spacedFrom u rest) := by
      rw [spacedFrom, gap]
      split
      · rfl
      · exact tokenizeFrom_space _
    rw [hgap]
    obtain rfl | rfl | hword := hu
    · show tokenizeFrom ('(' :: spacedFrom "(" rest) = _
      rw [tokenizeFrom_paren (.inl rfl), ih hrest]
      rfl
    · show tokenizeFrom (')' :: spacedFrom ")" rest) = _
      rw [tokenizeFrom_paren (.inr rfl), ih hrest]
      rfl
    · rw [tokenizeFrom_word hword (spacedFrom_head hword hrest), ih hrest]
      rfl

/-- **The canonical text of tokens has these tokens.** -/
theorem tokenizeFrom_spaced (hts : ∀ u ∈ ts, Token u) : tokenizeFrom (spaced ts) = .ok ts := by
  cases ts with
  | nil => rw [spaced, tokenizeFrom]
  | cons t rest =>
    have hfrom : spacedFrom "(" (t :: rest) = spaced (t :: rest) := by
      rw [spacedFrom, gap, if_pos (.inl rfl)]
      rfl
    rw [← hfrom]
    exact tokenizeFrom_spacedFrom hts

/-- What the tokenizer gives are tokens. -/
theorem tokenizeFrom_tokens {cs : List Char} (h : tokenizeFrom cs = .ok ts) : ∀ t ∈ ts, Token t := by
  induction hn : cs.length using Nat.strongRecOn generalizing cs ts with
  | ind n ih =>
    cases cs with
    | nil =>
      rw [tokenizeFrom] at h
      obtain rfl := Except.ok.inj h
      exact fun t ht => absurd ht List.not_mem_nil
    | cons c cs =>
      rw [List.length_cons] at hn
      rw [tokenizeFrom] at h
      split at h
      · exact ih cs.length (by omega) h rfl
      · split at h
        next hparen =>
          obtain ⟨more, hmore, heq⟩ := except_bind_ok.mp h
          obtain rfl := Except.ok.inj heq
          rw [List.forall_mem_cons]
          refine ⟨?_, ih cs.length (by omega) hmore rfl⟩
          obtain rfl | rfl := hparen
          · exact .inl rfl
          · exact .inr (.inl rfl)
        · dsimp only at h
          split at h
          · cases h
          next hword =>
            obtain ⟨more, hmore, heq⟩ := except_bind_ok.mp h
            obtain rfl := Except.ok.inj heq
            rw [List.forall_mem_cons]
            have hle := (List.dropWhile_suffix (l := cs) ordinary).length_le
            refine ⟨.inr (.inr ?_), ih _ (by omega) hmore rfl⟩
            rw [Word]
            by_cases hop : String.ofList (c :: cs.takeWhile ordinary) ∈ spdxOperators
            · exact .inl hop
            · refine .inr ?_
              rw [← Bool.not_eq_false]
              exact fun hid => hword ⟨hop, hid⟩

/-! ## The renderer -/

/-- One token after another one. -/
theorem renderToken_after {rendered : List Char} (ht : Token t) (h : rendered.getLast? = t.toList.getLast?)
    (u : String) : renderToken rendered u = rendered ++ (gap t u ++ u.toList) := by
  obtain ⟨c, hlast, hparen, hspace⟩ := ht.last
  rw [hlast] at h
  have hne : rendered ≠ [] := by
    intro hnil
    rw [hnil] at h
    cases h
  have hblank : rendered.getLast? ≠ some ' ' := by
    intro heq
    rw [h] at heq
    rw [Option.some.inj heq] at hspace
    cases hspace
  have hopen : rendered.getLast? = some '(' ↔ t = "(" := by
    rw [h, ← hparen]
    exact Option.some_inj
  have hstrip : rstrip rendered = rendered := by
    have hreverse : rendered.reverse.head? = some c := by rw [List.head?_reverse, h]
    rw [rstrip]
    cases hr : rendered.reverse with
    | nil =>
      rw [hr] at hreverse
      cases hreverse
    | cons d rest =>
      rw [hr] at hreverse
      obtain rfl := Option.some.inj hreverse
      rw [List.dropWhile_cons, hspace, ← hr]
      exact List.reverse_reverse _
  rw [renderToken, gap]
  by_cases hu : u = "("
  · have hclose : u ≠ ")" := by rw [hu]; decide
    rw [if_pos hu]
    by_cases htopen : t = "("
    · rw [if_neg (fun hcond => hcond.2.2 (hopen.mpr htopen)), if_pos (.inl htopen), List.nil_append]
    · rw [if_pos ⟨hne, hblank, fun heq => htopen (hopen.mp heq)⟩, if_neg (by simp [htopen, hclose]),
        List.append_assoc]
  · rw [if_neg hu]
    by_cases hclose : u = ")"
    · rw [if_pos hclose, if_pos (.inr hclose), hstrip, List.nil_append]
    · rw [if_neg hclose]
      by_cases htopen : t = "("
      · rw [if_neg (fun hcond => hcond.2 (hopen.mpr htopen)), if_pos (.inl htopen), List.nil_append]
      · rw [if_pos ⟨hne, fun heq => htopen (hopen.mp heq)⟩, if_neg (by simp [htopen, hclose]), List.append_assoc]

theorem render_after {rendered : List Char} (ht : Token t) (h : rendered.getLast? = t.toList.getLast?)
    (hts : ∀ u ∈ ts, Token u) : ts.foldl renderToken rendered = rendered ++ spacedFrom t ts := by
  induction ts generalizing rendered t with
  | nil => rw [spacedFrom, List.append_nil]; rfl
  | cons u rest ih =>
    rw [List.forall_mem_cons] at hts
    obtain ⟨hu, hrest⟩ := hts
    rw [List.foldl_cons, renderToken_after ht h]
    have hlast : (rendered ++ (gap t u ++ u.toList)).getLast? = u.toList.getLast? := by
      rw [← List.append_assoc, List.getLast?_append_of_ne_nil _ hu.ne_nil]
    rw [ih hu hlast hrest, spacedFrom]
    simp only [List.append_assoc]

/-- **Tokens are rendered as their canonical text.** -/
theorem render_spaced (hts : ∀ u ∈ ts, Token u) : renderSpdx ts = String.ofList (spaced ts) := by
  rw [renderSpdx]
  cases ts with
  | nil => rfl
  | cons t rest =>
    rw [List.forall_mem_cons] at hts
    have hfirst : renderToken [] t = t.toList := by
      simp [renderToken, rstrip]
    rw [List.foldl_cons, hfirst, render_after hts.1 rfl hts.2]
    rfl

/-! ## The recogniser takes tokens -/

theorem parsePrimary_takes {inner : Tokens → Except RiskError Tokens} (h : Takes inner) :
    Takes (parsePrimary inner) := by
  intro ts rest hrun
  cases ts with
  | nil => cases hrun
  | cons t more =>
    rw [parsePrimary] at hrun
    rw [List.length_cons]
    split at hrun
    · obtain ⟨left, hinner, hclose⟩ := except_bind_ok.mp hrun
      have hlt := h hinner
      cases left with
      | nil => cases hclose
      | cons close after =>
        dsimp only at hclose
        split at hclose
        · obtain rfl := Except.ok.inj hclose
          rw [List.length_cons] at hlt
          omega
        · cases hclose
    · split at hrun
      · cases hrun
      · split at hrun
        · cases hrun
        · obtain rfl := Except.ok.inj hrun
          omega

theorem parseException_cases (h : parseException ts = .ok rest) :
    (ts = rest ∧ ts.head? ≠ some "WITH") ∨
      ∃ t, ts = "WITH" :: t :: rest ∧ t ∉ spdxOperators ∧ t ≠ "(" ∧ t ≠ ")" := by
  cases ts with
  | nil =>
    obtain rfl := Except.ok.inj h
    exact .inl ⟨rfl, by simp⟩
  | cons t more =>
    rw [parseException] at h
    split at h
    next hwith =>
      subst hwith
      cases more with
      | nil => cases h
      | cons e after =>
        rw [takeException] at h
        split at h
        · cases h
        next hnot =>
          obtain rfl := Except.ok.inj h
          rw [not_or, not_or] at hnot
          exact .inr ⟨e, rfl, hnot⟩
    next hnot =>
      obtain rfl := Except.ok.inj h
      exact .inl ⟨rfl, fun heq => hnot (Option.some.inj heq)⟩

theorem parseWith_takes {inner : Tokens → Except RiskError Tokens} (h : Takes inner) :
    Takes (parseWith inner) := by
  intro ts rest hrun
  obtain ⟨left, hprimary, hleft⟩ := except_bind_ok.mp hrun
  have hlt := parsePrimary_takes h hprimary
  obtain ⟨rfl, -⟩ | ⟨t, rfl, -⟩ := parseException_cases hleft
  · exact hlt
  · rw [List.length_cons, List.length_cons] at hlt
    omega

theorem parseAnd_takes {inner : Tokens → Except RiskError Tokens} (h : Takes inner) :
    Takes (parseAnd inner) := separated_takes (parseWith_takes h)

theorem parseOr_takes (levels : Nat) : Takes (parseOr levels) := by
  induction levels with
  | zero =>
    intro ts rest hrun
    cases hrun
  | succ levels ih => exact separated_takes (parseAnd_takes ih)

/-! ## The recogniser and the grammar -/

/-- The recogniser of a category, with a number of levels for the parentheses in it. -/
def recognise (levels : Nat) : Category → Tokens → Except RiskError Tokens
  | .orExpr => parseOr (levels + 1)
  | .andExpr => parseAnd (parseOr levels)
  | .withExpr => parseWith (parseOr levels)
  | .primary => parsePrimary (parseOr levels)

/-- The tokens with which a sentence of a category could go on. -/
def goesOn : Category → Tokens
  | .orExpr => ["WITH", "AND", "OR"]
  | .andExpr => ["WITH", "AND"]
  | .withExpr => ["WITH"]
  | .primary => []

/-- **Every sentence is recognised**, up to where it cannot go on. -/
theorem recognise_complete {cat : Category} (h : Derives cat n ts) :
    ∀ {levels rest}, n ≤ levels → (∀ t, rest.head? = some t → t ∉ goesOn cat) →
      recognise levels cat (ts ++ rest) = .ok rest := by
  induction h with
  | @identifier t hid hnone hno =>
    intro levels rest _ _
    have hword : Word t := .inr hid.1
    have hreserved : ¬(t ∈ spdxOperators ∨ t = ")") := by
      rintro (hop | hclose)
      · exact hid.2 hop
      · exact hword.ne_paren.2 hclose
    have hunknown : ¬(t = "NONE" ∨ t = "NOASSERTION") := by
      rintro (heq | heq)
      · exact hnone heq
      · exact hno heq
    show parsePrimary _ (t :: rest) = _
    rw [parsePrimary, if_neg hword.ne_paren.1, if_neg hreserved, if_neg hunknown]
  | @group n ts _ ih =>
    intro levels rest hlevels _
    obtain ⟨m, rfl⟩ : ∃ m, levels = m + 1 := ⟨levels - 1, by omega⟩
    have hinner : parseOr (m + 1) (ts ++ ")" :: rest) = .ok (")" :: rest) := by
      apply ih (by omega)
      intro t ht
      obtain rfl := Option.some.inj ht
      decide
    show parsePrimary _ ("(" :: (ts ++ [")"] ++ rest)) = _
    rw [parsePrimary, if_pos rfl, List.append_assoc, List.singleton_append, hinner]
    rfl
  | @plain n ts _ ih =>
    intro levels rest hlevels hrest
    have hprimary : parsePrimary (parseOr levels) (ts ++ rest) = .ok rest := by
      apply ih hlevels
      exact fun t _ => List.not_mem_nil
    show parsePrimary _ _ >>= parseException = _
    rw [hprimary]
    cases rest with
    | nil => rfl
    | cons t rest =>
      have hne : t ≠ "WITH" := fun heq => hrest t rfl (by rw [heq]; decide)
      show parseException (t :: rest) = _
      rw [parseException, if_neg hne]
  | @exception n ts t _ hid ih =>
    intro levels rest hlevels _
    have hword : Word t := .inr hid.1
    have hprimary : parsePrimary (parseOr levels) (ts ++ ("WITH" :: t :: rest)) = .ok ("WITH" :: t :: rest) := by
      apply ih hlevels
      exact fun t _ => List.not_mem_nil
    have hnot : ¬(t ∈ spdxOperators ∨ t = "(" ∨ t = ")") := by
      rintro (hop | hopen | hclose)
      · exact hid.2 hop
      · exact hword.ne_paren.1 hopen
      · exact hword.ne_paren.2 hclose
    show parsePrimary _ (ts ++ ["WITH", t] ++ rest) >>= parseException = _
    rw [List.append_assoc]
    show parsePrimary _ (ts ++ ("WITH" :: t :: rest)) >>= parseException = _
    rw [hprimary]
    show parseException ("WITH" :: t :: rest) = _
    rw [parseException, if_pos rfl, takeException, if_neg hnot]
  | @andOne n ts _ ih =>
    intro levels rest hlevels hrest
    refine separated_one (ih hlevels ?_) ?_
    · intro t ht hmem
      exact hrest t ht (List.mem_cons.mpr (.inl (List.mem_singleton.mp hmem)))
    · exact fun heq => hrest "AND" heq (by decide)
  | @andMore m n ts us _ _ ihfirst ihmore =>
    intro levels rest hlevels hrest
    have hfirst : parseWith (parseOr levels) (ts ++ ("AND" :: (us ++ rest))) = .ok ("AND" :: (us ++ rest)) := by
      apply ihfirst (by omega)
      intro t ht
      obtain rfl := Option.some.inj ht
      decide
    show parseAnd _ (ts ++ "AND" :: us ++ rest) = _
    rw [List.append_assoc, List.cons_append, parseAnd,
      separated_more (parseWith_takes (parseOr_takes levels)) hfirst]
    exact ihmore (by omega) hrest
  | @orOne n ts _ ih =>
    intro levels rest hlevels hrest
    refine separated_one (ih hlevels ?_) ?_
    · intro t ht hmem
      have hsub : ["WITH", "AND"] ⊆ ["WITH", "AND", "OR"] := by decide
      exact hrest t ht (hsub hmem)
    · exact fun heq => hrest "OR" heq (by decide)
  | @orMore m n ts us _ _ ihfirst ihmore =>
    intro levels rest hlevels hrest
    have hfirst : parseAnd (parseOr levels) (ts ++ ("OR" :: (us ++ rest))) = .ok ("OR" :: (us ++ rest)) := by
      apply ihfirst (by omega)
      intro t ht
      obtain rfl := Option.some.inj ht
      decide
    show parseOr (levels + 1) (ts ++ "OR" :: us ++ rest) = _
    rw [List.append_assoc, List.cons_append, parseOr,
      separated_more (parseAnd_takes (parseOr_takes levels)) hfirst]
    exact ihmore (by omega) hrest

/-- A primary is an identifier, or what the inner recogniser takes in parentheses. -/
theorem parsePrimary_sound {inner : Tokens → Except RiskError Tokens} {P : Tokens → Prop}
    (hinner : ∀ {ts rest}, (∀ t ∈ ts, Token t) → inner ts = .ok rest → ∃ pre, P pre ∧ ts = pre ++ rest)
    (hts : ∀ t ∈ ts, Token t) (h : parsePrimary inner ts = .ok rest) :
    (∃ t, Identifier t ∧ t ≠ "NONE" ∧ t ≠ "NOASSERTION" ∧ ts = t :: rest) ∨
      ∃ pre, P pre ∧ ts = "(" :: (pre ++ ")" :: rest) := by
  cases ts with
  | nil => cases h
  | cons t more =>
    rw [List.forall_mem_cons] at hts
    obtain ⟨ht, hmore⟩ := hts
    rw [parsePrimary] at h
    split at h
    next hopen =>
      obtain ⟨left, hrun, hclose⟩ := except_bind_ok.mp h
      obtain ⟨pre, hp, rfl⟩ := hinner hmore hrun
      cases left with
      | nil => cases hclose
      | cons close after =>
        dsimp only at hclose
        split at hclose
        next heq =>
          obtain rfl := Except.ok.inj hclose
          exact .inr ⟨pre, hp, by rw [hopen, heq]⟩
        · cases hclose
    next hopen =>
      split at h
      · cases h
      next hreserved =>
        rw [not_or] at hreserved
        split at h
        · cases h
        next hunknown =>
          rw [not_or] at hunknown
          obtain rfl := Except.ok.inj h
          obtain hparen | hparen | hop | hid := ht
          · exact absurd hparen hopen
          · exact absurd hparen hreserved.2
          · exact absurd hop hreserved.1
          · exact .inl ⟨t, ⟨hid, hreserved.1⟩, hunknown.1, hunknown.2, rfl⟩

/-- **What is recognised is a sentence**, nested no deeper than the levels. -/
theorem parseOr_sound (hts : ∀ t ∈ ts, Token t) (h : parseOr levels ts = .ok rest) :
    ∃ pre, (∃ n, n < levels ∧ Derives .orExpr n pre) ∧ ts = pre ++ rest := by
  induction levels generalizing ts rest with
  | zero => cases h
  | succ levels ih =>
    have hprimary : ∀ {ts rest : Tokens}, (∀ t ∈ ts, Token t) → parsePrimary (parseOr levels) ts = .ok rest →
        ∃ pre, (∃ n, n ≤ levels ∧ Derives .primary n pre) ∧ ts = pre ++ rest := by
      intro ts rest hts hrun
      obtain ⟨t, hid, hnone, hno, rfl⟩ | ⟨pre, ⟨n, hn, hd⟩, rfl⟩ := parsePrimary_sound ih hts hrun
      · exact ⟨[t], ⟨0, Nat.zero_le _, .identifier hid hnone hno⟩, rfl⟩
      · exact ⟨"(" :: (pre ++ [")"]), ⟨n + 1, hn, .group hd⟩, by simp⟩
    have hwith : ∀ {ts rest : Tokens}, (∀ t ∈ ts, Token t) → parseWith (parseOr levels) ts = .ok rest →
        ∃ pre, (∃ n, n ≤ levels ∧ Derives .withExpr n pre) ∧ ts = pre ++ rest := by
      intro ts rest hts hrun
      obtain ⟨left, hrun, hleft⟩ := except_bind_ok.mp hrun
      obtain ⟨pre, ⟨n, hn, hd⟩, rfl⟩ := hprimary hts hrun
      obtain ⟨rfl, -⟩ | ⟨t, rfl, hop, hopen, hclose⟩ := parseException_cases hleft
      · exact ⟨pre, ⟨n, hn, .plain hd⟩, rfl⟩
      · have hmem : t ∈ pre ++ "WITH" :: t :: rest := by simp
        obtain hparen | hparen | hop' | hid := hts t hmem
        · exact absurd hparen hopen
        · exact absurd hparen hclose
        · exact absurd hop' hop
        · exact ⟨pre ++ ["WITH", t], ⟨n, hn, .exception hd ⟨hid, hop⟩⟩, by simp⟩
    have hand : ∀ {ts rest : Tokens}, (∀ t ∈ ts, Token t) → parseAnd (parseOr levels) ts = .ok rest →
        ∃ pre, (∃ n, n ≤ levels ∧ Derives .andExpr n pre) ∧ ts = pre ++ rest := by
      intro ts rest hts hrun
      refine separated_sound (parseWith_takes (parseOr_takes levels)) hwith ?_ ?_ hts hrun
      · rintro pre ⟨n, hn, hd⟩
        exact ⟨n, hn, .andOne hd⟩
      · rintro pre next ⟨m, hm, hd⟩ ⟨n, hn, hd'⟩
        exact ⟨max m n, by omega, .andMore hd hd'⟩
    refine separated_sound (parseAnd_takes (parseOr_takes levels)) hand ?_ ?_ hts h
    · rintro pre ⟨n, hn, hd⟩
      exact ⟨n, by omega, .orOne hd⟩
    · rintro pre next ⟨m, hm, hd⟩ ⟨n, hn, hd'⟩
      exact ⟨max m n, by omega, .orMore hd hd'⟩

theorem parse_iff (hts : ∀ t ∈ ts, Token t) :
    parse levels ts = .ok () ↔ ∃ n, n < levels ∧ Derives .orExpr n ts := by
  constructor
  · intro h
    obtain ⟨rest, hrun, hend⟩ := except_bind_ok.mp h
    split at hend
    next hnil =>
      subst hnil
      obtain ⟨pre, hsentence, heq⟩ := parseOr_sound hts hrun
      rw [heq, List.append_nil]
      exact hsentence
    · cases hend
  · rintro ⟨n, hn, hd⟩
    obtain ⟨m, rfl⟩ : ∃ m, levels = m + 1 := ⟨levels - 1, by omega⟩
    have hrun : parseOr (m + 1) (ts ++ []) = .ok [] := by
      apply recognise_complete hd (by omega)
      exact fun t ht => absurd ht (by simp)
    rw [List.append_nil] at hrun
    rw [parse, hrun]
    rfl

/-! ## Sentences -/

theorem Derives.tokens {cat : Category} (h : Derives cat n ts) : ts ≠ [] ∧ ∀ t ∈ ts, Token t := by
  have hop : ∀ o ∈ spdxOperators, Token o := fun o ho => .inr (.inr (.inl ho))
  induction h with
  | identifier hid =>
    refine ⟨List.cons_ne_nil _ _, ?_⟩
    rw [List.forall_mem_singleton]
    exact .inr (.inr (.inr hid.1))
  | group _ ih =>
    refine ⟨List.cons_ne_nil _ _, ?_⟩
    rw [List.forall_mem_cons, List.forall_mem_append, List.forall_mem_singleton]
    exact ⟨.inl rfl, ih.2, .inr (.inl rfl)⟩
  | plain _ ih => exact ih
  | exception _ hid ih =>
    refine ⟨List.append_ne_nil_of_left_ne_nil ih.1 _, ?_⟩
    rw [List.forall_mem_append, List.forall_mem_cons, List.forall_mem_singleton]
    exact ⟨ih.2, hop _ (by decide), .inr (.inr (.inr hid.1))⟩
  | andOne _ ih => exact ih
  | andMore _ _ ihfirst ihmore =>
    refine ⟨List.append_ne_nil_of_left_ne_nil ihfirst.1 _, ?_⟩
    rw [List.forall_mem_append, List.forall_mem_cons]
    exact ⟨ihfirst.2, hop _ (by decide), ihmore.2⟩
  | orOne _ ih => exact ih
  | orMore _ _ ihfirst ihmore =>
    refine ⟨List.append_ne_nil_of_left_ne_nil ihfirst.1 _, ?_⟩
    rw [List.forall_mem_append, List.forall_mem_cons]
    exact ⟨ihfirst.2, hop _ (by decide), ihmore.2⟩

/-- A printable character of ASCII. -/
def Printable (c : Char) : Prop := 32 ≤ c.toNat ∧ c.toNat < 127

theorem Token.printable (h : Token t) : ∀ c ∈ t.toList, Printable c := by
  obtain rfl | rfl | h := h
  · exact fun c hc => by rw [List.mem_singleton.mp hc]; exact ⟨by decide, by decide⟩
  · exact fun c hc => by rw [List.mem_singleton.mp hc]; exact ⟨by decide, by decide⟩
  · intro c hc
    have hrange := spdxLetter_range (h.letters.2 c hc)
    exact ⟨by omega, by omega⟩

theorem spacedFrom_printable (hts : ∀ u ∈ ts, Token u) : ∀ c ∈ spacedFrom t ts, Printable c := by
  induction ts generalizing t with
  | nil => exact fun c hc => absurd hc List.not_mem_nil
  | cons u rest ih =>
    rw [List.forall_mem_cons] at hts
    rw [spacedFrom, List.forall_mem_append, List.forall_mem_append]
    refine ⟨⟨?_, hts.1.printable⟩, ih hts.2⟩
    rw [gap]
    split
    · exact fun c hc => absurd hc List.not_mem_nil
    · exact fun c hc => by rw [List.mem_singleton.mp hc]; exact ⟨by decide, by decide⟩

theorem spaced_printable (hts : ∀ u ∈ ts, Token u) : ∀ c ∈ spaced ts, Printable c := by
  cases ts with
  | nil => exact fun c hc => absurd hc List.not_mem_nil
  | cons t rest =>
    rw [List.forall_mem_cons] at hts
    rw [spaced, List.forall_mem_append]
    exact ⟨hts.1.printable, spacedFrom_printable hts.2⟩

theorem safeString_ok {s r code : String} {minimum maximum : Nat} :
    safeString (.str s) code minimum maximum = .ok r ↔
      r = s ∧ (∀ c ∈ s.toList, Printable c) ∧ minimum ≤ s.toList.length ∧ s.toList.length ≤ maximum := by
  have hprintable : (∀ c ∈ s.toList, Printable c) ↔ s.toList.any (fun c => 128 ≤ c.toNat) = false ∧
      s.toList.any (fun c => c.toNat < 32 || c.toNat == 127) = false := by
    rw [List.any_eq_false, List.any_eq_false]
    constructor
    · intro h
      refine ⟨fun c hc => ?_, fun c hc => ?_⟩
      · have hc' := (h c hc).2
        simp
        omega
      · have hc' := h c hc
        rw [Printable] at hc'
        simp
        omega
    · rintro ⟨hascii, hcontrol⟩ c hc
      have hlow := hcontrol c hc
      have hhigh := hascii c hc
      simp at hlow hhigh
      exact ⟨by omega, by omega⟩
  rw [hprintable, safeString]
  cases s.toList.any (fun c => 128 ≤ c.toNat) with
  | true => simp [fail]
  | false =>
    by_cases hlength : s.toList.length < minimum ∨ maximum < s.toList.length
    · simp only [Bool.false_eq_true, if_false, if_pos hlength, fail, reduceCtorEq, false_iff]
      rintro ⟨-, -, hmin, hmax⟩
      omega
    · cases s.toList.any (fun c => c.toNat < 32 || c.toNat == 127) with
      | true => simp [hlength, fail]
      | false =>
        simp only [Bool.false_eq_true, if_false, if_neg hlength, Except.ok.injEq, true_and]
        constructor
        · intro h
          exact ⟨h.symm, by omega, by omega⟩
        · exact fun h => h.1.symm

/-! ## What is accepted -/

/-- An accepted expression, with its tokens. -/
theorem accepts_tokens {code s : String} (h : Accepts levels code s) :
    s.toList.length ≤ 1024 ∧ ∃ ts n, tokenizeSpdx s = .ok ts ∧ Derives .orExpr n ts ∧ n < levels ∧
      s = String.ofList (spaced ts) := by
  obtain ⟨text, hrun⟩ := h
  obtain ⟨s', hsafe, hread⟩ := except_bind_ok.mp hrun
  obtain ⟨hs', -, -, hmax⟩ := safeString_ok.mp hsafe
  rw [hs'] at hread
  obtain ⟨ts, htokens, hparsed⟩ := except_bind_ok.mp hread
  obtain ⟨⟨⟩, hparse, hrendered⟩ := except_bind_ok.mp hparsed
  obtain ⟨ts', hfrom, hsome⟩ := except_bind_ok.mp htokens
  split at hsome
  · cases hsome
  · obtain rfl := Except.ok.inj hsome
    have hts := tokenizeFrom_tokens hfrom
    obtain ⟨n, hn, hd⟩ := (parse_iff hts).mp hparse
    split at hrendered
    · cases hrendered
    next hrender =>
      rw [not_not, render_spaced hts] at hrender
      exact ⟨hmax, ts', n, htokens, hd, hn, hrender.symm⟩

theorem accepts_spaced {code : String} (hd : Derives .orExpr n ts) (hn : n < levels)
    (hlength : (spaced ts).length ≤ 1024) : Accepts levels code (String.ofList (spaced ts)) := by
  obtain ⟨hne, hts⟩ := hd.tokens
  have hpositive : 1 ≤ (spaced ts).length := by
    cases ts with
    | nil => exact absurd rfl hne
    | cons t rest =>
      have ht := List.length_pos_of_ne_nil (hts t List.mem_cons_self).ne_nil
      rw [spaced, List.length_append]
      omega
  have hsafe : safeString (.str (String.ofList (spaced ts))) code 1 1024 = .ok (String.ofList (spaced ts)) := by
    rw [safeString_ok, String.toList_ofList]
    exact ⟨rfl, spaced_printable hts, hpositive, hlength⟩
  have htokens : tokenizeSpdx (String.ofList (spaced ts)) = .ok ts := by
    rw [tokenizeSpdx, String.toList_ofList, tokenizeFrom_spaced hts]
    exact if_neg hne
  have hparse : parse levels ts = .ok () := (parse_iff hts).mpr ⟨n, hn, hd⟩
  refine ⟨String.ofList (spaced ts), ?_⟩
  rw [canonicalLicenseExpression, hsafe, except_ok_bind, htokens, except_ok_bind, hparse, except_ok_bind,
    if_neg (by rw [not_not]; exact render_spaced hts)]

/-- **The accepted expressions are the canonical texts of the sentences**, of at
most 1024 characters and nested no deeper than the levels; the tokens of an
accepted expression determine it. -/
theorem canonical_license_expression_laws (levels : Nat) (code : String) :
    (∀ s, Accepts levels code s ↔ s.toList.length ≤ 1024 ∧
      ∃ ts n, Derives .orExpr n ts ∧ n < levels ∧ s = String.ofList (spaced ts)) ∧
    ∀ s s', Accepts levels code s → Accepts levels code s' → tokenizeSpdx s = tokenizeSpdx s' → s = s' := by
  constructor
  · intro s
    constructor
    · intro h
      obtain ⟨hlength, ts, n, -, hd, hn, hs⟩ := accepts_tokens h
      exact ⟨hlength, ts, n, hd, hn, hs⟩
    · rintro ⟨hlength, ts, n, hd, hn, rfl⟩
      rw [String.toList_ofList] at hlength
      exact accepts_spaced hd hn hlength
  · intro s s' h h' heq
    obtain ⟨-, ts, n, htokens, -, -, hs⟩ := accepts_tokens h
    obtain ⟨-, ts', n', htokens', -, -, hs'⟩ := accepts_tokens h'
    rw [htokens, htokens'] at heq
    rw [hs, hs', Except.ok.inj heq]

theorem canonical_license_expression_laws_group :
    Accepts 2 "license_invalid" "MIT AND (BSD-3-Clause OR GPL-2.0 WITH NONE)" ∧
      "MIT AND (BSD-3-Clause OR GPL-2.0 WITH NONE)" = "MIT AND (BSD-3-Clause OR GPL-2.0 WITH NONE)" := by
  obtain ⟨haccepts, hunique⟩ := canonical_license_expression_laws 2 "license_invalid"
  have hgroup : Derives .primary 1 ["(", "BSD-3-Clause", "OR", "GPL-2.0", "WITH", "NONE", ")"] :=
    .group (.orMore (.andOne (.plain (.identifier (by decide) (by decide) (by decide))))
      (.orOne (.andOne (.exception (.identifier (by decide) (by decide) (by decide)) (by decide)))))
  have hsentence : Derives .orExpr 1 ("MIT" :: "AND" :: ["(", "BSD-3-Clause", "OR", "GPL-2.0", "WITH", "NONE", ")"]) :=
    .orOne (.andMore (.plain (.identifier (by decide) (by decide) (by decide))) (.andOne (.plain hgroup)))
  have h : Accepts 2 "license_invalid" "MIT AND (BSD-3-Clause OR GPL-2.0 WITH NONE)" :=
    (haccepts _).mpr ⟨by decide, _, 1, hsentence, by decide, by decide⟩
  exact ⟨h, hunique _ _ h h rfl⟩

/-- An identifier of the greatest length. -/
def longIdentifier : String := String.ofList (List.replicate 127 'a')

/-- The same identifier again and again. -/
def longSentence : Nat → Tokens
  | 0 => [longIdentifier]
  | k + 1 => longIdentifier :: "OR" :: longSentence k

theorem longSentence_derives (k : Nat) : Derives .orExpr 0 (longSentence k) := by
  have hone : Derives .andExpr 0 [longIdentifier] :=
    .andOne (.plain (.identifier (by decide +kernel) (by decide +kernel) (by decide +kernel)))
  induction k with
  | zero => exact .orOne hone
  | succ k ih => exact .orMore hone ih

/-- **A sentence that is refused** at every number of levels: nine identifiers,
1175 characters. -/
theorem long_sentence_refused :
    ∃ ts, Derives .orExpr 0 ts ∧ ∀ levels code, ¬Accepts levels code (String.ofList (spaced ts)) := by
  refine ⟨longSentence 8, longSentence_derives 8, fun levels code h => ?_⟩
  have hlength := (accepts_tokens h).1
  rw [String.toList_ofList] at hlength
  exact absurd hlength (by decide +kernel)

end QuantumEntanglement.DependencyRisk
