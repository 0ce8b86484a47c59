import QuantumEntanglement.Lib.PyText

/-
  Python JSON — values, `json.dumps` in its compact sorted form, `json.loads`

  A Python value a JSON encoder can meet, as a tree. A `dict` is an
  association list; `insertKey` is assignment `d[k] = v` on the list kept in
  key order, so a dict built by assignments is in the order `sort_keys`
  prints. A float is the decimal `float.__repr__` prints, which determines the
  float; a decimal with more digits than a float holds stands for no float and
  `loads` keeps it as it is written instead of rounding it.

  `normalize` is what a value is after one trip through a JSON document:
  tuples are lists and dicts are in key order.

  Correspondence (Python ↔ Lean):
    `json.dumps(v, ensure_ascii=False, allow_nan=False,
       separators=(",", ":"), sort_keys=True)`           ↔ `dumps`
    `json.loads(text, parse_constant=<raise>)`           ↔ `loads`
  `loads` refuses an escape that names a surrogate: such a text has no UTF-8
  form and the encoder never writes one.
-/

namespace PyJson

/-- A finite float: sign, significant digits and the power of ten of the last
digit, in the shortest form. -/
structure PyFloat where
  negative : Bool
  digits : Nat
  exponent : Int
  shortest : digits % 10 ≠ 0 ∨ (digits = 0 ∧ exponent = 0)
  deriving DecidableEq

/-- A Python value, as a JSON encoder sees it. `nonFinite` is `nan` or an
infinity, `backReference` a container met again inside itself, and `other` an
object of a type JSON has no form for (a dict with a key that is not a `str`
among them), with its type's name. -/
inductive Value where
  | null
  | bool (b : Bool)
  | int (n : Int)
  | float (x : PyFloat)
  | nonFinite
  | str (s : String)
  | list (items : List Value)
  | tuple (items : List Value)
  | dict (pairs : List (String × Value))
  | backReference
  | other (typeName : String)

mutual

/-- Whether two values are the same tree. -/
def Value.same : Value → Value → Bool
  | .null, w => match w with | .null => true | _ => false
  | .bool b, w => match w with | .bool c => b == c | _ => false
  | .int n, w => match w with | .int m => n == m | _ => false
  | .float x, w => match w with | .float y => decide (x = y) | _ => false
  | .nonFinite, w => match w with | .nonFinite => true | _ => false
  | .str s, w => match w with | .str t => s == t | _ => false
  | .list l, w => match w with | .list m => sameItems l m | _ => false
  | .tuple l, w => match w with | .tuple m => sameItems l m | _ => false
  | .dict l, w => match w with | .dict m => samePairs l m | _ => false
  | .backReference, w => match w with | .backReference => true | _ => false
  | .other s, w => match w with | .other t => s == t | _ => false

def sameItems : List Value → List Value → Bool
  | [], m => m.isEmpty
  | v :: l, m => match m with | [] => false | w :: m' => v.same w && sameItems l m'

def samePairs : List (String × Value) → List (String × Value) → Bool
  | [], m => m.isEmpty
  | (k, v) :: l, m =>
    match m with
    | [] => false
    | (k', w) :: m' => k == k' && v.same w && samePairs l m'

end

mutual

theorem Value.same_iff : ∀ v w : Value, v.same w = true ↔ v = w
  | .list l, w => by
    cases w <;> simp [Value.same, sameItems_iff l]
  | .tuple l, w => by
    cases w <;> simp [Value.same, sameItems_iff l]
  | .dict l, w => by
    cases w <;> simp [Value.same, samePairs_iff l]
  | .null, w => by cases w <;> simp [Value.same]
  | .bool b, w => by cases w <;> simp [Value.same]
  | .int n, w => by cases w <;> simp [Value.same]
  | .float x, w => by cases w <;> simp [Value.same]
  | .nonFinite, w => by cases w <;> simp [Value.same]
  | .str s, w => by cases w <;> simp [Value.same]
  | .backReference, w => by cases w <;> simp [Value.same]
  | .other s, w => by cases w <;> simp [Value.same]

theorem sameItems_iff : ∀ l m : List Value, sameItems l m = true ↔ l = m
  | [], m => by cases m <;> simp [sameItems]
  | v :: l, m => by
    cases m with
    | nil => simp [sameItems]
    | cons w m => simp [sameItems, Value.same_iff v, sameItems_iff l]

theorem samePairs_iff : ∀ l m : List (String × Value), samePairs l m = true ↔ l = m
  | [], m => by cases m <;> simp [samePairs]
  | (k, v) :: l, m => by
    cases m with
    | nil => simp [samePairs]
    | cons q m =>
      obtain ⟨k', w⟩ := q
      simp [samePairs, Value.same_iff v, samePairs_iff l]

end

instance : DecidableEq Value := fun v w => decidable_of_iff _ (Value.same_iff v w)

/-- The order `sort_keys` sorts by. -/
def keyLt (a b : String) : Bool := decide (a.toList < b.toList)

/-- `d[k] = v` on a dict kept in key order. -/
def insertKey (k : String) (v : Value) : List (String × Value) → List (String × Value)
  | [] => [(k, v)]
  | (k', v') :: rest =>
    if k = k' then (k, v) :: rest
    else if keyLt k k' then (k, v) :: (k', v') :: rest
    else (k', v') :: insertKey k v rest

/-- `d.get(k)`. -/
def lookup (k : String) : List (String × Value) → Option Value
  | [] => none
  | (k', v) :: rest => if k = k' then some v else lookup k rest

/-! ## Normal form -/

mutual

/-- A value after one trip through a JSON document. -/
def normalize : Value → Value
  | .list items => .list (normalizeItems items)
  | .tuple items => .list (normalizeItems items)
  | .dict pairs => .dict (normalizePairs [] pairs)
  | .null => .null
  | .bool b => .bool b
  | .int n => .int n
  | .float x => .float x
  | .nonFinite => .nonFinite
  | .str s => .str s
  | .backReference => .backReference
  | .other t => .other t

def normalizeItems : List Value → List Value
  | [] => []
  | v :: rest => normalize v :: normalizeItems rest

def normalizePairs (acc : List (String × Value)) : List (String × Value) → List (String × Value)
  | [] => acc
  | (k, v) :: rest => normalizePairs (insertKey k (normalize v) acc) rest

end

theorem normalizeItems_eq (items : List Value) : normalizeItems items = items.map normalize := by
  induction items with
  | nil => rfl
  | cons v rest ih => rw [normalizeItems, ih, List.map_cons]

/-- The keys of a dict, each below the ones after it. -/
def SortedKeys (pairs : List (String × Value)) : Prop :=
  pairs.Pairwise (fun a b => keyLt a.1 b.1 = true)

mutual

/-- A value a JSON document can hold, in normal form. -/
def Normal : Value → Prop
  | .list items => NormalItems items
  | .dict pairs => SortedKeys pairs ∧ NormalPairs pairs
  | .null => True
  | .bool _ => True
  | .int _ => True
  | .float _ => True
  | .str _ => True
  | .tuple _ => False
  | .nonFinite => False
  | .backReference => False
  | .other _ => False

def NormalItems : List Value → Prop
  | [] => True
  | v :: rest => Normal v ∧ NormalItems rest

def NormalPairs : List (String × Value) → Prop
  | [] => True
  | (_, v) :: rest => Normal v ∧ NormalPairs rest

end

mutual

/-- A value a JSON document can hold, in any order and with tuples. -/
def Plain : Value → Prop
  | .list items => PlainItems items
  | .tuple items => PlainItems items
  | .dict pairs => PlainPairs pairs
  | .null => True
  | .bool _ => True
  | .int _ => True
  | .float _ => True
  | .str _ => True
  | .nonFinite => False
  | .backReference => False
  | .other _ => False

def PlainItems : List Value → Prop
  | [] => True
  | v :: rest => Plain v ∧ PlainItems rest

def PlainPairs : List (String × Value) → Prop
  | [] => True
  | (_, v) :: rest => Plain v ∧ PlainPairs rest

end

/-! ## Numbers as text -/

/-- The decimal digits of a natural number. -/
def natText (n : Nat) : List Char := Nat.toDigits 10 n

/-- The number a list of digits denotes. -/
def ofDigits (ds : List Char) : Nat := Nat.ofDigitChars 10 ds 0

/-- `int.__repr__`. -/
def intText (n : Int) : List Char :=
  if n < 0 then '-' :: natText n.natAbs else natText n.natAbs

/-- An exponent as `repr` writes it: signed, at least two digits. -/
def exponentText (x : Int) : List Char :=
  let ds := natText x.natAbs
  (if x < 0 then '-' else '+') :: (if ds.length < 2 then '0' :: ds else ds)

/-- The digits of `float.__repr__`: positional while the decimal point falls
near them, scientific otherwise. -/
def PyFloat.magnitude (x : PyFloat) : List Char :=
  let ds := natText x.digits
  let point : Int := ds.length + x.exponent
  if -4 < point ∧ point ≤ 16 then
    if point ≤ 0 then '0' :: '.' :: (List.replicate (-point).toNat '0' ++ ds)
    else if (ds.length : Int) ≤ point then
      ds ++ List.replicate (point - ds.length).toNat '0' ++ ['.', '0']
    else ds.take point.toNat ++ '.' :: ds.drop point.toNat
  else
    ds.take 1 ++ (if ds.length ≤ 1 then [] else '.' :: ds.drop 1) ++
      'e' :: exponentText (point - 1)

/-- `float.__repr__`. -/
def PyFloat.text (x : PyFloat) : List Char :=
  if x.negative then '-' :: x.magnitude else x.magnitude

/-- Remove trailing zeros from the digits `m`, counting them in `e`. -/
def stripZeros : Nat → Nat → Int → Nat × Int
  | 0, m, e => (m, e)
  | fuel + 1, m, e => if m % 10 = 0 then stripZeros fuel (m / 10) (e + 1) else (m, e)

theorem stripZeros_digits {fuel m : Nat} {e : Int} (hm : m ≠ 0) (hf : m ≤ fuel) :
    (stripZeros fuel m e).1 % 10 ≠ 0 := by
  induction fuel generalizing m e with
  | zero => omega
  | succ fuel ih =>
    unfold stripZeros
    split
    · exact ih (by omega) (by omega)
    · assumption

/-- The float of a decimal. -/
def PyFloat.ofDecimal (negative : Bool) (m : Nat) (e : Int) : PyFloat :=
  if h : m = 0 then ⟨negative, 0, 0, .inr ⟨rfl, rfl⟩⟩
  else ⟨negative, (stripZeros m m e).1, (stripZeros m m e).2, .inl (stripZeros_digits h (Nat.le_refl m))⟩

/-! ## `json.dumps` -/

/-- A lower-case hexadecimal digit. -/
def hexDigit (n : Nat) : Char := Nat.digitChar n

/-- One character inside a JSON string. -/
def escapeChar (c : Char) : List Char :=
  if c = '"' then ['\\', '"']
  else if c = '\\' then ['\\', '\\']
  else if c = '\n' then ['\\', 'n']
  else if c = '\r' then ['\\', 'r']
  else if c = '\t' then ['\\', 't']
  else if c = '\x0c' then ['\\', 'f']
  else if c = '\x08' then ['\\', 'b']
  else if c.toNat < 0x20 then
    ['\\', 'u', '0', '0', hexDigit (c.toNat / 16), hexDigit (c.toNat % 16)]
  else [c]

def renderString (s : String) : List Char :=
  '"' :: (s.toList.flatMap escapeChar ++ ['"'])

mutual

def render : Value → List Char
  | .null => ['n', 'u', 'l', 'l']
  | .bool true => ['t', 'r', 'u', 'e']
  | .bool false => ['f', 'a', 'l', 's', 'e']
  | .int n => intText n
  | .float x => x.text
  | .str s => renderString s
  | .list items => '[' :: (renderItems true items ++ [']'])
  | .tuple items => '[' :: (renderItems true items ++ [']'])
  | .dict pairs => '{' :: (renderPairs true pairs ++ ['}'])
  | .nonFinite => []
  | .backReference => []
  | .other _ => []

def renderItems (first : Bool) : List Value → List Char
  | [] => []
  | v :: rest => (if first then [] else [',']) ++ render v ++ renderItems false rest

def renderPairs (first : Bool) : List (String × Value) → List Char
  | [] => []
  | (k, v) :: rest =>
    (if first then [] else [',']) ++ renderString k ++ ':' :: render v ++ renderPairs false rest

end

/-- `json.dumps` of a value already copied into plain containers. -/
def dumps (v : Value) : String := String.ofList (render (normalize v))

/-! ## `json.loads` -/

/-- The whitespace JSON allows between tokens. -/
def isJsonSpace (c : Char) : Bool := c = ' ' || c = '\t' || c = '\n' || c = '\r'

def skipSpace (s : List Char) : List Char := s.dropWhile isJsonSpace

/-- The integer part of a number: a lone zero or digits that start with none. -/
def parseWhole : List Char → Option (List Char × List Char)
  | [] => none
  | c :: rest =>
    if c = '0' then some (['0'], rest)
    else if c.isDigit then
      some ((c :: rest).takeWhile Char.isDigit, (c :: rest).dropWhile Char.isDigit)
    else none

def parseFraction : List Char → List Char × List Char
  | '.' :: rest =>
    if rest.takeWhile Char.isDigit = [] then ([], '.' :: rest)
    else (rest.takeWhile Char.isDigit, rest.dropWhile Char.isDigit)
  | s => ([], s)

/-- The sign of an exponent, positive when there is none. -/
def parseSign : List Char → Bool × List Char
  | '-' :: rest => (true, rest)
  | '+' :: rest => (false, rest)
  | s => (false, s)

def parseExponent : List Char → Option Int × List Char
  | [] => (none, [])
  | c :: rest =>
    if c = 'e' ∨ c = 'E' then
      let (neg, digits) := parseSign rest
      if digits.takeWhile Char.isDigit = [] then (none, c :: rest)
      else
        let n : Int := ofDigits (digits.takeWhile Char.isDigit)
        (some (if neg then -n else n), digits.dropWhile Char.isDigit)
    else (none, c :: rest)

def parseMagnitude (negative : Bool) (s : List Char) : Option (Value × List Char) :=
  match parseWhole s with
  | none => none
  | some (whole, s₁) =>
    let (frac, s₂) := parseFraction s₁
    let (expo, s₃) := parseExponent s₂
    if frac = [] ∧ expo = none then
      some (.int (if negative then -(ofDigits whole : Int) else ofDigits whole), s₃)
    else
      some (.float (PyFloat.ofDecimal negative (ofDigits (whole ++ frac))
        (expo.getD 0 - frac.length)), s₃)

def parseNumber : List Char → Option (Value × List Char)
  | '-' :: rest => parseMagnitude true rest
  | s => parseMagnitude false s

def hexValue (c : Char) : Option Nat :=
  if c.isDigit then some (c.toNat - '0'.toNat)
  else if 'a' ≤ c ∧ c ≤ 'f' then some (c.toNat - 'a'.toNat + 10)
  else if 'A' ≤ c ∧ c ≤ 'F' then some (c.toNat - 'A'.toNat + 10)
  else none

/-- The character a `\uXXXX` escape names; none for a surrogate. -/
def unicodeEscape (a b c d : Char) : Option Char := do
  let n := (← hexValue a) * 4096 + (← hexValue b) * 256 + (← hexValue c) * 16 + (← hexValue d)
  if 0xD800 ≤ n ∧ n ≤ 0xDFFF then none else some (Char.ofNat n)

/-- The character a one-letter escape names. -/
def simpleEscape (c : Char) : Option Char :=
  if c = '"' ∨ c = '\\' ∨ c = '/' then some c
  else if c = 'n' then some '\n'
  else if c = 'r' then some '\r'
  else if c = 't' then some '\t'
  else if c = 'f' then some '\x0c'
  else if c = 'b' then some '\x08'
  else none

/-- A string's characters up to the closing quote; control characters must be
escaped. -/
def parseChars : List Char → Option (List Char × List Char)
  | [] => none
  | '"' :: rest => some ([], rest)
  | '\\' :: 'u' :: a :: b :: c :: d :: rest => do
    let x ← unicodeEscape a b c d
    let (xs, tail) ← parseChars rest
    some (x :: xs, tail)
  | '\\' :: e :: rest => do
    let x ← simpleEscape e
    let (xs, tail) ← parseChars rest
    some (x :: xs, tail)
  | c :: rest =>
    if c.toNat < 0x20 ∨ c = '\\' then none
    else do
      let (xs, tail) ← parseChars rest
      some (c :: xs, tail)

/-- A whole string, from its opening quote. -/
def parseKey : List Char → Option (String × List Char)
  | '"' :: rest => (parseChars rest).map (fun p => (String.ofList p.1, p.2))
  | _ => none

mutual

def parseValue : Nat → List Char → Option (Value × List Char)
  | 0, _ => none
  | fuel + 1, s =>
    match s with
    | '"' :: rest => (parseChars rest).map (fun p => (.str (String.ofList p.1), p.2))
    | '[' :: rest =>
      match skipSpace rest with
      | ']' :: tail => some (.list [], tail)
      | body => (parseItems fuel body).map (fun p => (.list p.1, p.2))
    | '{' :: rest =>
      match skipSpace rest with
      | '}' :: tail => some (.dict [], tail)
      | body => (parseMembers fuel [] body).map (fun p => (.dict p.1, p.2))
    | 'n' :: 'u' :: 'l' :: 'l' :: tail => some (.null, tail)
    | 't' :: 'r' :: 'u' :: 'e' :: tail => some (.bool true, tail)
    | 'f' :: 'a' :: 'l' :: 's' :: 'e' :: tail => some (.bool false, tail)
    | s => parseNumber s

/-- The items of a list, from the first one to the closing bracket. -/
def parseItems : Nat → List Char → Option (List Value × List Char)
  | 0, _ => none
  | fuel + 1, s =>
    match parseValue fuel s with
    | none => none
    | some (v, s₁) =>
      match skipSpace s₁ with
      | ']' :: tail => some ([v], tail)
      | ',' :: tail => (parseItems fuel (skipSpace tail)).map (fun p => (v :: p.1, p.2))
      | _ => none

/-- The members of an object, assigned to `acc` in order, up to the closing
brace. -/
def parseMembers : Nat → List (String × Value) → List Char →
    Option (List (String × Value) × List Char)
  | 0, _, _ => none
  | fuel + 1, acc, s =>
    match parseKey s with
    | none => none
    | some (k, s₁) =>
      match skipSpace s₁ with
      | ':' :: s₂ =>
        match parseValue fuel (skipSpace s₂) with
        | none => none
        | some (v, s₃) =>
          match skipSpace s₃ with
          | '}' :: tail => some (insertKey k v acc, tail)
          | ',' :: tail => parseMembers fuel (insertKey k v acc) (skipSpace tail)
          | _ => none
      | _ => none

end

/-- The calls a text of this length can need. -/
def parseFuel (s : List Char) : Nat := 2 * s.length + 2

def loads (text : String) : Option Value :=
  let s := text.toList
  match parseValue (parseFuel s) (skipSpace s) with
  | some (v, rest) => if skipSpace rest = [] then some v else none
  | none => none

example : loads " \x7b \"b\" : [1, 2.50, -3e2] , \"a\":null \x7d " =
    loads "\x7b\"a\":null,\"b\":[1,2.5,-300.0]\x7d" := by decide +kernel

/-! ## Equality of decoded values

Python compares numbers by value across `bool`, `int` and `float`, lists item
by item and dicts key by key. -/

/-- `n` rounded to the 53 bits of a float's significand, half to even. -/
def roundToFloat (n : Nat) : Nat :=
  if n < 2 ^ 53 then n
  else
    let unit := 2 ^ (n.log2 - 52)
    let q := n / unit
    let r := n % unit
    if 2 * r < unit ∨ (2 * r = unit ∧ q % 2 = 0) then q * unit else (q + 1) * unit

/-- The integer a float is equal to, when there is one. -/
def PyFloat.toInt? (x : PyFloat) : Option Int :=
  if 0 ≤ x.exponent then
    let n := roundToFloat (x.digits * 10 ^ x.exponent.toNat)
    some (if x.negative then -(n : Int) else n)
  else none

/-- The number a `bool`, `int` or integral `float` is. -/
def integral? : Value → Option Int
  | .bool b => some (if b then 1 else 0)
  | .int n => some n
  | .float x => x.toInt?
  | _ => none

mutual

/-- `a == b` on decoded values. -/
def pyEq : Value → Value → Bool
  | .null, b => match b with | .null => true | _ => false
  | .str s, b => match b with | .str t => s == t | _ => false
  | .list xs, b => match b with | .list ys => pyEqItems xs ys | _ => false
  | .tuple xs, b => match b with | .tuple ys => pyEqItems xs ys | _ => false
  | .dict xs, b =>
    match b with
    | .dict ys => xs.length == ys.length && pyEqPairs xs ys
    | _ => false
  | .bool x, b => integral? b == some (if x then 1 else 0)
  | .int n, b => integral? b == some n
  | .float x, b =>
    match x.toInt? with
    | some n => integral? b == some n
    | none => match b with | .float y => decide (x = y) | _ => false
  | .nonFinite, _ => false
  | .backReference, _ => false
  | .other _, _ => false

def pyEqItems : List Value → List Value → Bool
  | [], ys => ys.isEmpty
  | x :: xs, ys => match ys with | [] => false | y :: ys' => pyEq x y && pyEqItems xs ys'

/-- Every pair of the first dict is in the second. -/
def pyEqPairs : List (String × Value) → List (String × Value) → Bool
  | [], _ => true
  | (k, v) :: rest, ys =>
    (match lookup k ys with | some w => pyEq v w | none => false) && pyEqPairs rest ys

end

theorem lookup_of_mem {k : String} {v : Value} {pairs : List (String × Value)}
    (hsorted : SortedKeys pairs) (hmem : (k, v) ∈ pairs) : lookup k pairs = some v := by
  induction pairs with
  | nil => simp at hmem
  | cons p rest ih =>
    obtain ⟨k', v'⟩ := p
    obtain ⟨hbelow, hrest⟩ := List.pairwise_cons.mp hsorted
    rcases List.mem_cons.mp hmem with heq | hmem
    · simp only [Prod.mk.injEq] at heq
      simp [lookup, heq.1, heq.2]
    · have hlt := hbelow _ hmem
      have hne : k ≠ k' := by
        rintro rfl
        simp only [keyLt, decide_eq_true_eq] at hlt
        exact List.lt_irrefl _ hlt
      rw [lookup, if_neg hne]
      exact ih hrest hmem

mutual

/-- A decoded value is equal to itself. -/
theorem pyEq_refl : ∀ v : Value, Normal v → pyEq v v = true
  | .null, _ => by simp [pyEq]
  | .str s, _ => by simp [pyEq]
  | .bool b, _ => by simp [pyEq, integral?]
  | .int n, _ => by simp [pyEq, integral?]
  | .float x, _ => by
    simp only [pyEq]
    split
    next n hn => simp [integral?, hn]
    next => simp
  | .list items, h => by
    simp only [pyEq]
    exact pyEqItems_refl items h
  | .dict pairs, h => by
    simp only [pyEq, beq_self_eq_true, Bool.true_and]
    exact pyEqPairs_self pairs pairs h.2 (fun k v hmem => lookup_of_mem h.1 hmem)
  | .tuple _, h => h.elim
  | .nonFinite, h => h.elim
  | .backReference, h => h.elim
  | .other _, h => h.elim

theorem pyEqItems_refl : ∀ items : List Value, NormalItems items → pyEqItems items items = true
  | [], _ => by simp [pyEqItems]
  | v :: rest, h => by simp [pyEqItems, pyEq_refl v h.1, pyEqItems_refl rest h.2]

theorem pyEqPairs_self : ∀ pairs all : List (String × Value), NormalPairs pairs →
    (∀ k v, (k, v) ∈ pairs → lookup k all = some v) → pyEqPairs pairs all = true
  | [], _, _, _ => by simp [pyEqPairs]
  | (k, v) :: rest, all, h, hlookup => by
    have hrest := pyEqPairs_self rest all h.2 (fun k' v' hmem => hlookup k' v' (by simp [hmem]))
    simp [pyEqPairs, hlookup k v (by simp), pyEq_refl v h.1, hrest]

end

end PyJson
