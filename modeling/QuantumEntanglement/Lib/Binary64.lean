import QuantumEntanglement.Lib.PyJsonRoundTrip

/-
  Binary64 — the double a decimal text denotes, and its shortest text

  `float(text)` is the double nearest to the decimal, halves to the even
  significand, and `float.__repr__` the shortest decimal that reads as the
  double. `PyFloat.read` is the one after the other: what a decimal becomes
  when a program reads it as a float. A decimal beyond the largest double
  reads as an infinity, which has no decimal (`none`).

  The shortest decimal is searched among the neighbours of the double with
  one digit, with two digits and so on to seventeen; the first that reads as
  the double is it.

  What is proved:
    1. `PyFloat.read_idem` — what was read reads as itself.
    2. `PyFloat.read_negative` — reading keeps the sign.
-/

namespace PyJson

/-- A finite double without its sign: `significand * 2 ^ exponent`. -/
structure Double where
  significand : Nat
  exponent : Int
  deriving DecidableEq

/-- The integer nearest to `num / den`, halves to even. -/
def roundDiv (num den : Nat) : Nat :=
  let q := num / den
  let r := num % den
  if 2 * r < den ∨ (2 * r = den ∧ q % 2 = 0) then q else q + 1

/-- `n * b ^ e` as a fraction. -/
def scaled (n b : Nat) (e : Int) : Nat × Nat :=
  if 0 ≤ e then (n * b ^ e.toNat, 1) else (n, b ^ (-e).toNat)

/-- The power of two a positive fraction lies at or above. -/
def floorLog2 (num den : Nat) : Int :=
  let l : Int := num.log2 - den.log2
  let (n, d) := scaled num 2 (-l)
  if d * den ≤ n then l else l - 1

/-- The double nearest to a fraction; none if it is infinite. -/
def Double.ofRatio (num den : Nat) : Option Double :=
  if num = 0 then some ⟨0, -1074⟩
  else
    let q := max (floorLog2 num den - 52) (-1074)
    let (n, d) := scaled num 2 (-q)
    let s := roundDiv n (d * den)
    let rounded : Double := if s = 2 ^ 53 then ⟨2 ^ 52, q + 1⟩ else ⟨s, q⟩
    if 971 < rounded.exponent then none else some rounded

/-- The double nearest to a decimal. -/
def PyFloat.toDouble (x : PyFloat) : Option Double :=
  let point : Int := (natText x.digits).length + x.exponent
  if x.digits = 0 ∨ point < -400 then some ⟨0, -1074⟩
  else if 400 < point then none
  else
    let (num, den) := scaled x.digits 10 x.exponent
    Double.ofRatio num den

/-- The power of ten a positive fraction lies at or above. -/
def floorLog10 (num den : Nat) : Int :=
  if den ≤ num then (natText (num / den)).length - 1 else -(natText ((den - 1) / num)).length

/-- The two decimals of `k` digits around a fraction, the nearer one first. -/
def neighbours (negative : Bool) (num den k : Nat) : List PyFloat :=
  let p := floorLog10 num den - (k - 1)
  let (n, d) := scaled num 10 (-p)
  let q := n / (d * den)
  let below := PyFloat.ofDecimal negative q p
  let above := PyFloat.ofDecimal negative (q + 1) p
  if roundDiv n (d * den) = q then [below, above] else [above, below]

/-- The decimals a double's text is searched among. -/
def Double.candidates (negative : Bool) (d : Double) : List PyFloat :=
  if d.significand = 0 then [PyFloat.ofDecimal negative 0 0]
  else
    let (num, den) := scaled d.significand 2 d.exponent
    (List.range 17).flatMap (fun k => neighbours negative num den (k + 1))

/-- `float(text)`, written again. -/
def PyFloat.read (x : PyFloat) : Option PyFloat :=
  x.toDouble.map (fun d =>
    ((d.candidates x.negative).find? (fun y => y.toDouble = some d)).getD x)

theorem ofDecimal_negative (negative : Bool) (m : Nat) (e : Int) :
    (PyFloat.ofDecimal negative m e).negative = negative := by
  unfold PyFloat.ofDecimal
  split
  · rfl
  · rfl

theorem candidates_negative {negative : Bool} {d : Double} {y : PyFloat}
    (h : y ∈ d.candidates negative) : y.negative = negative := by
  unfold Double.candidates at h
  split at h
  · rw [List.mem_singleton.mp h, ofDecimal_negative]
  · obtain ⟨k, -, hy⟩ := List.mem_flatMap.mp h
    unfold neighbours at hy
    simp only at hy
    split at hy
    · rcases List.mem_pair.mp hy with rfl | rfl
      · exact ofDecimal_negative _ _ _
      · exact ofDecimal_negative _ _ _
    · rcases List.mem_pair.mp hy with rfl | rfl
      · exact ofDecimal_negative _ _ _
      · exact ofDecimal_negative _ _ _

theorem PyFloat.read_negative {x y : PyFloat} (h : x.read = some y) : y.negative = x.negative := by
  obtain ⟨d, -, rfl⟩ := Option.map_eq_some_iff.mp h
  cases hfind : (d.candidates x.negative).find? (fun y => y.toDouble = some d) with
  | none => rfl
  | some y => exact candidates_negative (List.mem_of_find?_eq_some hfind)

/-- **What was read reads as itself.** -/
theorem PyFloat.read_idem {x y : PyFloat} (h : x.read = some y) : y.read = some y := by
  have hneg := PyFloat.read_negative h
  obtain ⟨d, hd, hy⟩ := Option.map_eq_some_iff.mp h
  cases hfind : (d.candidates x.negative).find? (fun y => y.toDouble = some d) with
  | none =>
    rw [hfind, Option.getD_none] at hy
    rw [← hy]
    rwa [← hy] at h
  | some z =>
    rw [hfind, Option.getD_some] at hy
    subst hy
    have hz : z.toDouble = some d := by simpa using List.find?_some hfind
    rw [PyFloat.read, hz, Option.map_some, hneg, hfind, Option.getD_some]

/-- A Python `float` that is finite, as the decimal its `repr` prints. -/
structure Float64 where
  decimal : PyFloat
  exact : decimal.read = some decimal
  deriving DecidableEq

/-- The float a decimal reads as; none if it is infinite. -/
def Float64.ofDecimal (x : PyFloat) : Option Float64 :=
  match h : x.read with
  | none => none
  | some y => some ⟨y, PyFloat.read_idem h⟩

theorem Float64.ofDecimal_self (x : Float64) : Float64.ofDecimal x.decimal = some x := by
  unfold Float64.ofDecimal
  split
  next h =>
    rw [x.exact] at h
    cases h
  next y h =>
    rw [x.exact] at h
    obtain ⟨decimal, exact⟩ := x
    cases h
    rfl

example : (PyFloat.ofDecimal false 1000000000000000055 (-19)).read = some (.ofDecimal false 1 (-1)) ∧
    (PyFloat.ofDecimal false 1 309).read = none := by
  decide +kernel

end PyJson
