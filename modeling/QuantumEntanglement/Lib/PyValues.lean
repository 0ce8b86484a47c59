import QuantumEntanglement.Lib.PyJsonRoundTrip

/-
  Python values — numbers, truth, and the checked form of `json.dumps`

  `numberOf` is the number a value compares as, `truthy` what `if` makes of it.
  `canonicalJson` is `json.dumps` where it does not raise; two values written
  alike have one normal form.

  What is proved:
    1. `isPlain_iff` — the values `json.dumps` does not refuse.
    2. `canonicalJson_eq` — values written alike are alike.
-/

namespace PyJson

/-- The number a value is, `bool` being a kind of `int`. -/
def numberOf : Value → Option Rat
  | .bool b => some (if b then 1 else 0)
  | .int n => some n
  | .float x =>
    some ((if x.negative then -1 else 1) * (x.digits : Rat) * (10 : Rat) ^ x.exponent)
  | _ => none

/-- `0.0 <= value <= 1.0`. -/
def inUnit (value : Value) : Bool :=
  match numberOf value with
  | some q => decide (0 ≤ q ∧ q ≤ 1)
  | none => false

mutual

/-- Whether `json.dumps(value, allow_nan=False)` writes the value. -/
def isPlain : Value → Bool
  | .list items => arePlain items
  | .tuple items => arePlain items
  | .dict pairs => pairsPlain pairs
  | .null => true
  | .bool _ => true
  | .int _ => true
  | .float _ => true
  | .str _ => true
  | .nonFinite => false
  | .backReference => false
  | .other _ => false

def arePlain : List Value → Bool
  | [] => true
  | v :: rest => isPlain v && arePlain rest

def pairsPlain : List (String × Value) → Bool
  | [] => true
  | (_, v) :: rest => isPlain v && pairsPlain rest

end

mutual

theorem isPlain_iff : ∀ v : Value, isPlain v = true ↔ Plain v
  | .list items => arePlain_iff items
  | .tuple items => arePlain_iff items
  | .dict pairs => pairsPlain_iff pairs
  | .null => by simp [isPlain, Plain]
  | .bool _ => by simp [isPlain, Plain]
  | .int _ => by simp [isPlain, Plain]
  | .float _ => by simp [isPlain, Plain]
  | .str _ => by simp [isPlain, Plain]
  | .nonFinite => by simp [isPlain, Plain]
  | .backReference => by simp [isPlain, Plain]
  | .other _ => by simp [isPlain, Plain]

theorem arePlain_iff : ∀ items : List Value, arePlain items = true ↔ PlainItems items
  | [] => by simp [arePlain, PlainItems]
  | v :: rest => by simp [arePlain, PlainItems, isPlain_iff v, arePlain_iff rest]

theorem pairsPlain_iff : ∀ pairs : List (String × Value), pairsPlain pairs = true ↔ PlainPairs pairs
  | [] => by simp [pairsPlain, PlainPairs]
  | (_, v) :: rest => by simp [pairsPlain, PlainPairs, isPlain_iff v, pairsPlain_iff rest]

end

/-- `json.dumps(value, allow_nan=False, ensure_ascii=False, separators=(",", ":"),
sort_keys=True)`, where it does not raise. -/
def canonicalJson (value : Value) : Option String :=
  if isPlain value = true then some (dumps value) else none

theorem canonicalJson_some {value : Value} {text : String} :
    canonicalJson value = some text ↔ Plain value ∧ dumps value = text := by
  unfold canonicalJson
  rw [← isPlain_iff]
  split <;> simp [*]

/-- **Values written alike** are alike. -/
theorem canonicalJson_eq {v w : Value} {text : String} (hv : canonicalJson v = some text)
    (hw : canonicalJson w = some text) : normalize v = normalize w := by
  obtain ⟨hplain, htext⟩ := canonicalJson_some.mp hv
  obtain ⟨hplain', htext'⟩ := canonicalJson_some.mp hw
  exact normalize_of_dumps hplain hplain' (htext.trans htext'.symm)

end PyJson
