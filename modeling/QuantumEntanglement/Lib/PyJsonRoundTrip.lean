import QuantumEntanglement.Lib.PyJson

/-
  JSON round trip — what `json.dumps` writes, `json.loads` reads back

  What is proved:
    1. `loads_dumps` — for a value in normal form, `loads (dumps v)` is `v`:
       every scalar, string escape, float notation, list and sorted dict.
    2. `dumps_injective` — so two values in normal form with one text are one
       value, which is what comparing canonical texts relies on.
    3. `normalize_of_normal` — a value in normal form is its own normal form.
    4. `record_inj`, `normalize_of_dumps` — the text of a record determines
       what each of its keys holds.

  The proof follows the parser: a number, a string and the items of a
  container are each read up to a text that cannot continue them (`Ends`), and
  the three mutually recursive readers are covered by one induction over the
  value (`parseValue_render`).
-/

namespace PyJson

/-! ## Digits -/

theorem natText_ne_nil (n : Nat) : natText n ≠ [] := Nat.toDigits_ne_nil

theorem natText_isDigit {n : Nat} {c : Char} (h : c ∈ natText n) : c.isDigit = true :=
  Nat.isDigit_of_mem_toDigits (by omega) (by omega) h

theorem ofDigits_natText (n : Nat) : ofDigits (natText n) = n :=
  Nat.ofDigitChars_ten_toDigits

theorem natText_zero : natText 0 = ['0'] := by decide

/-- The digits of a positive number start with a digit that is not zero. -/
theorem natText_head {n : Nat} (hn : n ≠ 0) :
    ∃ c l, natText n = c :: l ∧ c ≠ '0' ∧ c.isDigit = true := by
  induction n using Nat.strongRecOn with
  | _ n ih =>
    by_cases hlt : n < 10
    · refine ⟨n.digitChar, [], Nat.toDigits_of_lt_base hlt, ?_, ?_⟩
      · have hnz : ∀ m < 10, m ≠ 0 → m.digitChar ≠ '0' := by decide
        exact hnz n hlt hn
      · exact natText_isDigit (n := n) (by simp [natText, Nat.toDigits_of_lt_base hlt])
    · obtain ⟨c, l, hd, hc⟩ := ih (n / 10) (by omega) (by omega)
      refine ⟨c, l ++ Nat.toDigits 10 (n % 10), ?_, hc⟩
      simp only [natText] at hd ⊢
      rw [Nat.toDigits_of_base_le (by omega) (by omega), hd, List.cons_append,
        Nat.toDigits_of_lt_base (Nat.mod_lt n (by omega))]

/-- A text the digits before it cannot run into. -/
def NoDigit (rest : List Char) : Prop := ∀ c t, rest = c :: t → c.isDigit = false

theorem takeWhile_digits {ds rest : List Char} (hd : ∀ c ∈ ds, c.isDigit = true)
    (hr : NoDigit rest) : (ds ++ rest).takeWhile Char.isDigit = ds := by
  rw [List.takeWhile_append_of_pos hd]
  cases rest with
  | nil => simp
  | cons c t => simp [hr c t rfl]

theorem dropWhile_digits {ds rest : List Char} (hd : ∀ c ∈ ds, c.isDigit = true)
    (hr : NoDigit rest) : (ds ++ rest).dropWhile Char.isDigit = rest := by
  rw [List.dropWhile_append_of_pos hd]
  cases rest with
  | nil => simp
  | cons c t => simp [hr c t rfl]

/-! ## Reading one number -/

/-- An integer part as JSON writes it. -/
def Whole (w : List Char) : Prop :=
  w = ['0'] ∨ (∃ c l, w = c :: l ∧ c ≠ '0') ∧ ∀ c ∈ w, c.isDigit = true

theorem whole_natText (n : Nat) : Whole (natText n) := by
  by_cases hn : n = 0
  · left; rw [hn, natText_zero]
  · obtain ⟨c, l, hd, hc, -⟩ := natText_head hn
    exact .inr ⟨⟨c, l, hd, hc⟩, fun c hm => natText_isDigit hm⟩

theorem parseWhole_whole {w rest : List Char} (hw : Whole w) (hr : NoDigit rest) :
    parseWhole (w ++ rest) = some (w, rest) := by
  rcases hw with rfl | ⟨⟨c, l, rfl, hc⟩, hd⟩
  · simp [parseWhole]
  · have h₁ := takeWhile_digits hd hr
    have h₂ := dropWhile_digits hd hr
    rw [List.cons_append] at h₁ h₂ ⊢
    simp only [parseWhole, if_neg hc, hd c List.mem_cons_self, if_true, h₁, h₂]

theorem parseFraction_digits {f rest : List Char} (hf : f ≠ []) (hd : ∀ c ∈ f, c.isDigit = true)
    (hr : NoDigit rest) : parseFraction ('.' :: (f ++ rest)) = (f, rest) := by
  simp [parseFraction, takeWhile_digits hd hr, dropWhile_digits hd hr, hf]

theorem parseFraction_none {rest : List Char} (h : ∀ t, rest ≠ '.' :: t) :
    parseFraction rest = ([], rest) := by
  unfold parseFraction
  split
  · exact absurd rfl (h _)
  · rfl

theorem parseExponent_none {rest : List Char} (h : ∀ c t, rest = c :: t → c ≠ 'e' ∧ c ≠ 'E') :
    parseExponent rest = (none, rest) := by
  cases rest with
  | nil => rfl
  | cons c t => simp [parseExponent, h c t rfl]

/-- The digits of an exponent, padded to two. -/
theorem exponent_digits (n : Nat) :
    ∃ ds, (if (natText n).length < 2 then '0' :: natText n else natText n) = ds ∧
      ds ≠ [] ∧ (∀ c ∈ ds, c.isDigit = true) ∧ ofDigits ds = n := by
  refine ⟨_, rfl, ?_⟩
  split
  · refine ⟨by simp, ?_, ?_⟩
    · intro c hc
      rcases List.mem_cons.mp hc with rfl | hc
      · decide
      · exact natText_isDigit hc
    · have h := ofDigits_natText n
      simp only [ofDigits, Nat.ofDigitChars_cons] at h ⊢
      simpa using h
  · exact ⟨natText_ne_nil n, fun c hc => natText_isDigit hc, ofDigits_natText n⟩

theorem parseExponent_text {x : Int} {rest : List Char} (hr : NoDigit rest) :
    parseExponent ('e' :: (exponentText x ++ rest)) = (some x, rest) := by
  obtain ⟨ds, hds, hne, hdig, hval⟩ := exponent_digits x.natAbs
  simp only [exponentText, hds]
  by_cases hx : x < 0
  · simp only [parseExponent, if_pos hx, List.cons_append, true_or, if_true, parseSign,
      takeWhile_digits hdig hr, dropWhile_digits hdig hr, if_neg hne, hval]
    simp only [Prod.mk.injEq, Option.some.injEq, and_true]
    omega
  · simp only [parseExponent, if_neg hx, List.cons_append, true_or, if_true, parseSign,
      takeWhile_digits hdig hr, dropWhile_digits hdig hr, if_neg hne, hval]
    simp only [Prod.mk.injEq, Option.some.injEq, and_true, if_false, Bool.false_eq_true]
    omega

/-- A text that ends a value inside a document. -/
def Ends (rest : List Char) : Prop :=
  ∀ c t, rest = c :: t → c = ',' ∨ c = ']' ∨ c = '}'

theorem Ends.noDigit {rest : List Char} (h : Ends rest) : NoDigit rest := by
  intro c t e
  rcases h c t e with rfl | rfl | rfl <;> decide

theorem Ends.fraction {rest : List Char} (h : Ends rest) : parseFraction rest = ([], rest) := by
  refine parseFraction_none (fun t e => ?_)
  rcases h _ t e with h | h | h <;> simp at h

theorem Ends.exponent {rest : List Char} (h : Ends rest) : parseExponent rest = (none, rest) := by
  refine parseExponent_none (fun c t e => ?_)
  rcases h c t e with rfl | rfl | rfl <;> decide

theorem parseMagnitude_int {neg : Bool} {n : Nat} {rest : List Char} (hr : Ends rest) :
    parseMagnitude neg (natText n ++ rest) =
      some (.int (if neg then -(n : Int) else n), rest) := by
  simp [parseMagnitude, parseWhole_whole (whole_natText n) hr.noDigit, hr.fraction, hr.exponent,
    ofDigits_natText]

theorem parseNumber_intText {n : Int} {rest : List Char} (hr : Ends rest) :
    parseNumber (intText n ++ rest) = some (.int n, rest) := by
  unfold intText
  split
  · rw [List.cons_append, parseNumber, parseMagnitude_int hr]
    simp only [if_true, Option.some.injEq, Prod.mk.injEq, Value.int.injEq, and_true]
    omega
  · have hdig : ∀ t, natText n.natAbs ++ rest ≠ '-' :: t := by
      intro t e
      obtain ⟨c, l, hcl⟩ := List.exists_cons_of_ne_nil (natText_ne_nil n.natAbs)
      have hc := natText_isDigit (n := n.natAbs) (c := c) (by simp [hcl])
      rw [hcl] at e
      simp only [List.cons_append, List.cons.injEq] at e
      rw [e.1] at hc
      simp at hc
    have hp : parseNumber (natText n.natAbs ++ rest) =
        parseMagnitude false (natText n.natAbs ++ rest) := by
      unfold parseNumber
      split
      · next t e => exact absurd e (hdig _)
      · rfl
    rw [hp, parseMagnitude_int hr]
    simp only [Bool.false_eq_true, if_false, Option.some.injEq, Prod.mk.injEq, Value.int.injEq,
      and_true]
    omega

/-! ## Floats -/

theorem ofDigits_append (a b : List Char) :
    ofDigits (a ++ b) = ofDigits a * 10 ^ b.length + ofDigits b := by
  simp only [ofDigits]
  rw [Nat.ofDigitChars_append, Nat.ofDigitChars_eq_ofDigitChars_zero, Nat.mul_comm]

theorem ofDigits_zeros (n : Nat) : ofDigits (List.replicate n '0') = 0 := by
  simp [ofDigits, Nat.ofDigitChars_replicate_zero]

theorem stripZeros_mul {fuel m k : Nat} {e : Int} (hm : m % 10 ≠ 0) (hk : k ≤ fuel) :
    stripZeros fuel (m * 10 ^ k) e = (m, e + k) := by
  induction fuel generalizing k e with
  | zero =>
    obtain rfl : k = 0 := by omega
    simp [stripZeros]
  | succ fuel ih =>
    cases k with
    | zero => simp [stripZeros, hm]
    | succ k =>
      have hz : m * 10 ^ (k + 1) % 10 = 0 := by
        rw [Nat.pow_succ, ← Nat.mul_assoc]
        exact Nat.mul_mod_left _ _
      have hd : m * 10 ^ (k + 1) / 10 = m * 10 ^ k := by
        rw [Nat.pow_succ, ← Nat.mul_assoc, Nat.mul_div_cancel _ (by omega)]
      rw [stripZeros, if_pos hz, hd, ih (by omega)]
      simp only [Prod.mk.injEq, true_and]
      omega

/-- Any way of writing a float's decimal gives the float back. -/
theorem ofDecimal_scaled (x : PyFloat) (k : Nat) :
    PyFloat.ofDecimal x.negative (x.digits * 10 ^ k) (x.exponent - k) = x := by
  obtain ⟨neg, m, e, hs⟩ := x
  simp only
  by_cases hm : m = 0
  · have he : e = 0 := by
      rcases hs with h | h
      · rw [hm] at h; simp at h
      · exact h.2
    subst hm he
    simp [PyFloat.ofDecimal]
  · have hm10 : m % 10 ≠ 0 := by
      rcases hs with h | h
      · exact h
      · exact absurd h.1 hm
    have hpos : m * 10 ^ k ≠ 0 := Nat.mul_ne_zero hm (Nat.pow_pos (by omega)).ne'
    have hk : k ≤ m * 10 ^ k :=
      Nat.le_trans (Nat.le_of_lt (Nat.lt_pow_self (by omega)))
        (Nat.le_mul_of_pos_left _ (by omega))
    simp only [PyFloat.ofDecimal, dif_neg hpos, stripZeros_mul hm10 hk, PyFloat.mk.injEq, true_and]
    omega

theorem parseMagnitude_parts {neg : Bool} {s s₁ s₂ s₃ w f : List Char} {e : Option Int}
    (hw : parseWhole s = some (w, s₁)) (hf : parseFraction s₁ = (f, s₂))
    (he : parseExponent s₂ = (e, s₃)) (hfe : ¬(f = [] ∧ e = none)) :
    parseMagnitude neg s =
      some (.float (PyFloat.ofDecimal neg (ofDigits (w ++ f)) (e.getD 0 - f.length)), s₃) := by
  simp only [parseMagnitude, hw, hf, he, if_neg hfe]

theorem noDigit_point (s : List Char) : NoDigit ('.' :: s) := by
  intro c t e
  obtain ⟨rfl, -⟩ := List.cons.inj e
  decide

theorem noDigit_e (s : List Char) : NoDigit ('e' :: s) := by
  intro c t e
  obtain ⟨rfl, -⟩ := List.cons.inj e
  decide

/-- A positional decimal reads as the float it is a decimal of. -/
theorem parseMagnitude_positional {x : PyFloat} {w f rest : List Char} {k : Nat} (hr : Ends rest)
    (hw : Whole w) (hf : f ≠ []) (hfd : ∀ c ∈ f, c.isDigit = true)
    (hval : ofDigits (w ++ f) = x.digits * 10 ^ k) (hexp : (f.length : Int) = k - x.exponent) :
    parseMagnitude x.negative (w ++ '.' :: (f ++ rest)) = some (.float x, rest) := by
  rw [parseMagnitude_parts (parseWhole_whole hw (noDigit_point _))
    (parseFraction_digits hf hfd hr.noDigit) hr.exponent (by simp [hf]), hval]
  have : (Option.getD none 0 : Int) - f.length = x.exponent - k := by
    simp only [Option.getD_none]; omega
  rw [this, ofDecimal_scaled]

theorem whole_scaled {x : PyFloat} {z : Nat} (hz : x.digits = 0 → z = 0) :
    Whole (natText x.digits ++ List.replicate z '0') := by
  by_cases hm : x.digits = 0
  · left
    rw [hz hm, hm, natText_zero]
    rfl
  · obtain ⟨c, l, hd, hc, -⟩ := natText_head hm
    refine .inr ⟨⟨c, l ++ List.replicate z '0', by rw [hd]; rfl, hc⟩, ?_⟩
    intro d hd'
    rcases List.mem_append.mp hd' with h | h
    · exact natText_isDigit h
    · rw [List.eq_of_mem_replicate h]; decide

theorem whole_take {n p : Nat} (hn : n ≠ 0) (hp : p ≠ 0) : Whole ((natText n).take p) := by
  obtain ⟨c, l, hd, hc, -⟩ := natText_head hn
  obtain ⟨p, rfl⟩ := Nat.exists_eq_succ_of_ne_zero hp
  refine .inr ⟨⟨c, l.take p, by rw [hd, List.take_succ_cons], hc⟩, fun d hd' => ?_⟩
  exact natText_isDigit (List.mem_of_mem_take hd')

theorem digits_ne_zero {x : PyFloat}
    (h : (natText x.digits).length ≠ 1 ∨ x.exponent ≠ 0) : x.digits ≠ 0 := by
  intro hm
  rcases h with h | h
  · rw [hm, natText_zero] at h
    simp at h
  · rcases x.shortest with hs | hs
    · rw [hm] at hs; simp at hs
    · exact h hs.2

theorem parseMagnitude_magnitude {x : PyFloat} {rest : List Char} (hr : Ends rest) :
    parseMagnitude x.negative (x.magnitude ++ rest) = some (.float x, rest) := by
  have hlen : (natText x.digits).length ≠ 0 := by
    simpa using natText_ne_nil x.digits
  have hval := ofDigits_natText x.digits
  unfold PyFloat.magnitude
  simp only
  split
  next hrange =>
    split
    next hp =>
      -- zeros between the point and the digits
      rw [List.cons_append, List.cons_append]
      refine parseMagnitude_positional (w := ['0']) (k := 0) hr (.inl rfl) ?_ ?_ ?_ ?_
      · simp [natText_ne_nil]
      · intro c hc
        rcases List.mem_append.mp hc with h | h
        · rw [List.eq_of_mem_replicate h]; decide
        · exact natText_isDigit h
      · rw [ofDigits_append, ofDigits_append, ofDigits_zeros, hval]
        simp [ofDigits, Nat.ofDigitChars_cons]
      · simp only [List.length_append, List.length_replicate]
        omega
    next hp =>
      split
      next hle =>
        -- the digits, zeros up to the point, and a zero after it
        have hz : x.digits = 0 → (((natText x.digits).length : Int) + x.exponent -
            (natText x.digits).length).toNat = 0 := by
          intro hm
          rcases x.shortest with hs | hs
          · rw [hm] at hs; simp at hs
          · rw [hs.2]; omega
        rw [List.append_assoc, List.cons_append]
        generalize hzz : (((natText x.digits).length : Int) + x.exponent -
            (natText x.digits).length).toNat = z at hz ⊢
        refine parseMagnitude_positional (f := ['0']) (k := z + 1) hr (whole_scaled hz)
          (by simp) (by simp) ?_ ?_
        · rw [ofDigits_append, ofDigits_append, ofDigits_zeros, hval]
          simp only [List.length_replicate, List.length_singleton, ofDigits, Nat.ofDigitChars_cons]
          simp [Nat.pow_succ, Nat.mul_assoc]
        · simp only [List.length_singleton]
          omega
      next hle =>
        -- the point falls inside the digits
        have hm : x.digits ≠ 0 := digits_ne_zero (.inl (by omega))
        rw [List.append_assoc, List.cons_append]
        refine parseMagnitude_positional (k := 0) hr (whole_take hm (by omega)) ?_ ?_ ?_ ?_
        · simp only [ne_eq, List.drop_eq_nil_iff]
          omega
        · exact fun c hc => natText_isDigit (List.mem_of_mem_drop hc)
        · rw [List.take_append_drop, hval]
          simp
        · simp only [List.length_drop]
          omega
  next hrange =>
    have hm : x.digits ≠ 0 := digits_ne_zero (by omega)
    have hw := whole_take hm (p := 1) (by omega)
    have hdecimal : ∀ n : Int, n = x.exponent →
        PyFloat.ofDecimal x.negative x.digits n = x := by
      rintro n rfl
      have h := ofDecimal_scaled x 0
      simpa using h
    split
    next hone =>
      rw [List.append_nil, List.append_assoc, List.cons_append,
        parseMagnitude_parts (parseWhole_whole hw (noDigit_e _))
          (parseFraction_none (by simp)) (parseExponent_text hr.noDigit) (by simp)]
      have ht : (natText x.digits).take 1 = natText x.digits :=
        List.take_of_length_le hone
      rw [List.append_nil, ht, hval, hdecimal]
      simp only [Option.getD_some, List.length_nil]
      omega
    next hone =>
      have hd : (natText x.digits).drop 1 ≠ [] := by
        simp only [ne_eq, List.drop_eq_nil_iff]; omega
      rw [List.append_assoc, List.append_assoc, List.cons_append, List.cons_append,
        parseMagnitude_parts (parseWhole_whole hw (noDigit_point _))
          (parseFraction_digits hd (fun c hc => natText_isDigit (List.mem_of_mem_drop hc))
            (noDigit_e _))
          (parseExponent_text hr.noDigit) (by simp)]
      rw [List.take_append_drop, hval, hdecimal]
      simp only [Option.getD_some, List.length_drop]
      omega

/-! ## Strings -/

theorem hexValue_hexDigit : ∀ n < 16, hexValue (hexDigit n) = some n := by decide

/-- A control character's four-digit escape names it. -/
theorem unicodeEscape_control {c : Char} (hc : c.toNat < 0x20) :
    unicodeEscape '0' '0' (hexDigit (c.toNat / 16)) (hexDigit (c.toNat % 16)) = some c := by
  have hz : hexValue '0' = some 0 := by decide
  simp only [unicodeEscape, hz, hexValue_hexDigit _ (by omega : c.toNat / 16 < 16),
    hexValue_hexDigit _ (by omega : c.toNat % 16 < 16)]
  have hn : 0 * 4096 + 0 * 256 + c.toNat / 16 * 16 + c.toNat % 16 = c.toNat := by omega
  simp only [bind, Option.bind, hn]
  rw [if_neg (by omega), Char.ofNat_toNat]

/-- Put one character back in front of what was read after it. -/
def consChar (c : Char) (p : List Char × List Char) : List Char × List Char := (c :: p.1, p.2)

theorem parseChars_simple {c e : Char} {t : List Char} (he : simpleEscape e = some c)
    (hu : e ≠ 'u') : parseChars ('\\' :: e :: t) = (parseChars t).map (consChar c) := by
  rw [parseChars.eq_4]
  · simp only [he]
    cases parseChars t <;> rfl
  · intro a b c d rest h
    exact absurd h hu

theorem parseChars_plain {c : Char} {t : List Char} (hq : c ≠ '"') (hb : c ≠ '\\')
    (hc : ¬ c.toNat < 0x20) : parseChars (c :: t) = (parseChars t).map (consChar c) := by
  rw [parseChars.eq_5]
  · simp only [hc, hb, or_self, if_false]
    cases parseChars t <;> rfl
  · simpa using hq
  · simp [hb]
  · simp [hb]

theorem parseChars_escapeChar (c : Char) (t : List Char) :
    parseChars (escapeChar c ++ t) = (parseChars t).map (consChar c) := by
  unfold escapeChar
  split
  next h => subst h; exact parseChars_simple (by decide) (by decide)
  split
  next h => subst h; exact parseChars_simple (by decide) (by decide)
  split
  next h => subst h; exact parseChars_simple (by decide) (by decide)
  split
  next h => subst h; exact parseChars_simple (by decide) (by decide)
  split
  next h => subst h; exact parseChars_simple (by decide) (by decide)
  split
  next h => subst h; exact parseChars_simple (by decide) (by decide)
  split
  next h => subst h; exact parseChars_simple (by decide) (by decide)
  split
  next hc =>
    simp only [List.cons_append, List.nil_append, parseChars, unicodeEscape_control hc]
    cases parseChars t <;> rfl
  next hq hb _ _ _ _ _ hc => exact parseChars_plain hq hb hc

theorem parseChars_body (cs t : List Char) :
    parseChars (cs.flatMap escapeChar ++ '"' :: t) = some (cs, t) := by
  induction cs with
  | nil => simp [parseChars]
  | cons c cs ih =>
    rw [List.flatMap_cons, List.append_assoc, parseChars_escapeChar, ih]
    rfl

theorem parseKey_renderString (s : String) (t : List Char) :
    parseKey (renderString s ++ t) = some (s, t) := by
  simp [renderString, parseKey, List.append_assoc, parseChars_body]

/-! ## Key order -/

theorem keyLt_irrefl (k : String) : keyLt k k = false := by
  simp [keyLt]

theorem keyLt_trans {a b c : String} (h : keyLt a b = true) (h' : keyLt b c = true) :
    keyLt a c = true := by
  simp only [keyLt, decide_eq_true_eq] at *
  exact List.lt_trans h h'

theorem keyLt_total {a b : String} (h : keyLt a b = false) : a = b ∨ keyLt b a = true := by
  simp only [keyLt, decide_eq_false_iff_not, decide_eq_true_eq] at *
  rcases lt_trichotomy a.toList b.toList with h' | h' | h'
  · exact absurd h' h
  · exact .inl (String.toList_inj.mp h')
  · exact .inr h'

theorem insertKey_append {k : String} {v : Value} {acc : List (String × Value)}
    (h : ∀ p ∈ acc, keyLt p.1 k = true) : insertKey k v acc = acc ++ [(k, v)] := by
  induction acc with
  | nil => rfl
  | cons p acc ih =>
    obtain ⟨k', v'⟩ := p
    have hk : keyLt k' k = true := h (k', v') (by simp)
    have hne : k ≠ k' := by
      rintro rfl
      rw [keyLt_irrefl] at hk
      simp at hk
    have hnlt : keyLt k k' = false := by
      by_contra hc
      have := keyLt_trans hk (by simpa using hc)
      rw [keyLt_irrefl] at this
      simp at this
    simp only [insertKey, if_neg hne, hnlt, Bool.false_eq_true, if_false, List.cons_append,
      List.cons.injEq, true_and]
    exact ih (fun p hp => h p (List.mem_cons_of_mem _ hp))

theorem insertKey_keys {k : String} {v : Value} {acc : List (String × Value)}
    {p : String × Value} (h : p ∈ insertKey k v acc) : p = (k, v) ∨ p ∈ acc := by
  induction acc with
  | nil => simpa [insertKey] using h
  | cons q acc ih =>
    obtain ⟨k', v'⟩ := q
    simp only [insertKey] at h
    split at h
    · rcases List.mem_cons.mp h with rfl | h
      · exact .inl rfl
      · exact .inr (List.mem_cons_of_mem _ h)
    · split at h
      · rcases List.mem_cons.mp h with rfl | h
        · exact .inl rfl
        · exact .inr h
      · rcases List.mem_cons.mp h with rfl | h
        · exact .inr (by simp)
        · rcases ih h with h | h
          · exact .inl h
          · exact .inr (List.mem_cons_of_mem _ h)

/-- Assignment keeps a dict in key order. -/
theorem insertKey_sorted {k : String} {v : Value} {acc : List (String × Value)}
    (h : SortedKeys acc) : SortedKeys (insertKey k v acc) := by
  induction acc with
  | nil => simp [insertKey, SortedKeys]
  | cons q acc ih =>
    obtain ⟨k', v'⟩ := q
    obtain ⟨hq, hacc⟩ := List.pairwise_cons.mp h
    simp only [insertKey]
    split
    next heq =>
      subst heq
      exact List.pairwise_cons.mpr ⟨hq, hacc⟩
    next hne =>
      split
      next hlt =>
        refine List.pairwise_cons.mpr ⟨fun p hp => ?_, h⟩
        rcases List.mem_cons.mp hp with rfl | hp
        · exact hlt
        · exact keyLt_trans hlt (hq p hp)
      next hlt =>
        refine List.pairwise_cons.mpr ⟨fun p hp => ?_, ih hacc⟩
        rcases insertKey_keys hp with rfl | hp
        · rcases keyLt_total (by simpa using hlt) with h | h
          · exact absurd h hne
          · exact h
        · exact hq p hp

theorem normalPairs_iff {pairs : List (String × Value)} :
    NormalPairs pairs ↔ ∀ p ∈ pairs, Normal p.2 := by
  induction pairs with
  | nil => simp [NormalPairs]
  | cons q rest ih =>
    obtain ⟨k, v⟩ := q
    simp [NormalPairs, ih]

theorem normalPairs_insertKey {k : String} {v : Value} {acc : List (String × Value)}
    (hv : Normal v) (h : NormalPairs acc) : NormalPairs (insertKey k v acc) := by
  rw [normalPairs_iff] at h ⊢
  intro p hp
  rcases insertKey_keys hp with rfl | hp
  · exact hv
  · exact h p hp

/-! ## Normal form -/

mutual

/-- A value JSON can hold has a normal form. -/
theorem normal_normalize : ∀ v : Value, Plain v → Normal (normalize v)
  | .list items, h => normalItems_normalizeItems items h
  | .tuple items, h => normalItems_normalizeItems items h
  | .dict pairs, h => normalPairs_normalizePairs pairs [] h .nil trivial
  | .null, _ => trivial
  | .bool _, _ => trivial
  | .int _, _ => trivial
  | .float _, _ => trivial
  | .str _, _ => trivial
  | .nonFinite, h => h
  | .backReference, h => h
  | .other _, h => h

theorem normalItems_normalizeItems : ∀ items : List Value, PlainItems items →
    NormalItems (normalizeItems items)
  | [], _ => trivial
  | v :: rest, h => ⟨normal_normalize v h.1, normalItems_normalizeItems rest h.2⟩

theorem normalPairs_normalizePairs : ∀ (pairs acc : List (String × Value)), PlainPairs pairs →
    SortedKeys acc → NormalPairs acc →
    SortedKeys (normalizePairs acc pairs) ∧ NormalPairs (normalizePairs acc pairs)
  | [], _, _, hs, hn => ⟨hs, hn⟩
  | (k, v) :: rest, acc, h, hs, hn =>
    normalPairs_normalizePairs rest (insertKey k (normalize v) acc) h.2 (insertKey_sorted hs)
      (normalPairs_insertKey (normal_normalize v h.1) hn)

end

mutual

/-- A value in normal form is its own normal form. -/
theorem normalize_of_normal : ∀ v : Value, Normal v → normalize v = v
  | .list items, h => by rw [normalize, normalizeItems_of_normal items h]
  | .tuple items, h => h.elim
  | .dict pairs, h => by
    rw [normalize, normalizePairs_of_normal pairs [] (by simpa using h.1) h.2, List.nil_append]
  | .null, _ => rfl
  | .bool _, _ => rfl
  | .int _, _ => rfl
  | .float _, _ => rfl
  | .str _, _ => rfl
  | .nonFinite, _ => rfl
  | .backReference, _ => rfl
  | .other _, _ => rfl

theorem normalizeItems_of_normal : ∀ items : List Value, NormalItems items →
    normalizeItems items = items
  | [], _ => rfl
  | v :: rest, h => by
    rw [normalizeItems, normalize_of_normal v h.1, normalizeItems_of_normal rest h.2]

theorem normalizePairs_of_normal : ∀ pairs acc : List (String × Value),
    SortedKeys (acc ++ pairs) → NormalPairs pairs → normalizePairs acc pairs = acc ++ pairs
  | [], acc, _, _ => by rw [normalizePairs, List.append_nil]
  | (k, v) :: rest, acc, hs, hn => by
    have hlast : ∀ p ∈ acc, keyLt p.1 k = true := fun p hp =>
      (List.pairwise_append.mp hs).2.2 p hp (k, v) (by simp)
    rw [normalizePairs, normalize_of_normal v hn.1, insertKey_append hlast,
      normalizePairs_of_normal rest (acc ++ [(k, v)]) (by simpa using hs) hn.2,
      List.append_assoc]
    rfl

end

/-! ## Values -/

mutual

/-- The calls the readers make on a value. -/
def callsOf : Value → Nat
  | .list items => 1 + callsOfItems items
  | .dict pairs => 1 + callsOfPairs pairs
  | .null | .bool _ | .int _ | .float _ | .str _ => 1
  | .tuple _ | .nonFinite | .backReference | .other _ => 1

def callsOfItems : List Value → Nat
  | [] => 0
  | v :: rest => 1 + callsOf v + callsOfItems rest

def callsOfPairs : List (String × Value) → Nat
  | [] => 0
  | (_, v) :: rest => 1 + callsOf v + callsOfPairs rest

end

theorem ends_comma (s : List Char) : Ends (',' :: s) := by
  intro c t e
  exact .inl (List.cons.inj e).1.symm

theorem ends_bracket (s : List Char) : Ends (']' :: s) := by
  intro c t e
  exact .inr (.inl (List.cons.inj e).1.symm)

theorem ends_brace (s : List Char) : Ends ('}' :: s) := by
  intro c t e
  exact .inr (.inr (List.cons.inj e).1.symm)

theorem skipSpace_cons {c : Char} {t : List Char} (h : isJsonSpace c = false) :
    skipSpace (c :: t) = c :: t := by
  simp [skipSpace, h]

theorem renderItems_cons (first : Bool) (v : Value) (rest : List Value) :
    renderItems first (v :: rest) =
      (if first then [] else [',']) ++ renderItems true (v :: rest) := by
  cases first <;> simp [renderItems]

theorem renderPairs_cons (first : Bool) (p : String × Value) (rest : List (String × Value)) :
    renderPairs first (p :: rest) =
      (if first then [] else [',']) ++ renderPairs true (p :: rest) := by
  obtain ⟨k, v⟩ := p
  cases first <;> simp [renderPairs]

/-- A character a number starts with. -/
def NumberHead (c : Char) : Prop := c.isDigit = true ∨ c = '-'

theorem intText_head (n : Int) : ∃ c t, intText n = c :: t ∧ NumberHead c := by
  obtain ⟨c, l, hcl⟩ := List.exists_cons_of_ne_nil (natText_ne_nil n.natAbs)
  unfold intText
  split
  · exact ⟨'-', natText n.natAbs, rfl, .inr rfl⟩
  · exact ⟨c, l, hcl, .inl (natText_isDigit (n := n.natAbs) (by simp [hcl]))⟩

theorem magnitude_head (x : PyFloat) :
    ∃ c t, x.magnitude = c :: t ∧ c.isDigit = true := by
  obtain ⟨c, l, hcl⟩ := List.exists_cons_of_ne_nil (natText_ne_nil x.digits)
  have hc : c.isDigit = true := natText_isDigit (n := x.digits) (by simp [hcl])
  unfold PyFloat.magnitude
  simp only [hcl]
  split
  · split
    · exact ⟨'0', _, rfl, by decide⟩
    · split
      · exact ⟨c, _, rfl, hc⟩
      next hp _ =>
        obtain ⟨p, hp'⟩ : ∃ p, (((c :: l).length : Int) + x.exponent).toNat = p + 1 :=
          Nat.exists_eq_succ_of_ne_zero (by omega)
        exact ⟨c, _, by rw [hp', List.take_succ_cons]; rfl, hc⟩
  · exact ⟨c, _, rfl, hc⟩

theorem floatText_head (x : PyFloat) : ∃ c t, x.text = c :: t ∧ NumberHead c := by
  obtain ⟨c, t, h, hc⟩ := magnitude_head x
  unfold PyFloat.text
  split
  · exact ⟨'-', _, rfl, .inr rfl⟩
  · exact ⟨c, t, h, .inl hc⟩

theorem parseNumber_floatText {x : PyFloat} {rest : List Char} (hr : Ends rest) :
    parseNumber (x.text ++ rest) = some (.float x, rest) := by
  have hm := parseMagnitude_magnitude (x := x) hr
  unfold PyFloat.text
  cases hn : x.negative with
  | true =>
    rw [hn] at hm
    simpa [parseNumber] using hm
  | false =>
    rw [hn] at hm
    obtain ⟨c, t, h, hc⟩ := magnitude_head x
    simp only [Bool.false_eq_true, if_false]
    have hp : parseNumber (x.magnitude ++ rest) = parseMagnitude false (x.magnitude ++ rest) := by
      unfold parseNumber
      split
      next t' e =>
        rw [h, List.cons_append] at e
        rw [(List.cons.inj e).1] at hc
        simp at hc
      · rfl
    rw [hp, hm]

theorem parseValue_number {fuel : Nat} {c : Char} {t : List Char} (hc : NumberHead c) :
    parseValue (fuel + 1) (c :: t) = parseNumber (c :: t) := by
  have hne : c ≠ '"' ∧ c ≠ '[' ∧ c ≠ '{' ∧ c ≠ 'n' ∧ c ≠ 't' ∧ c ≠ 'f' := by
    rcases hc with hc | rfl
    · refine ⟨?_, ?_, ?_, ?_, ?_, ?_⟩ <;> rintro rfl <;> simp at hc
    · decide
  obtain ⟨h₁, h₂, h₃, h₄, h₅, h₆⟩ := hne
  unfold parseValue
  split <;> simp_all

/-- The first character of a rendered value: no space and no closing bracket. -/
theorem render_head {v : Value} (hv : Normal v) :
    ∃ c t, render v = c :: t ∧ isJsonSpace c = false ∧ c ≠ ']' := by
  have number : ∀ {c : Char}, NumberHead c → isJsonSpace c = false ∧ c ≠ ']' := by
    rintro c (hc | rfl)
    · constructor
      · by_contra hs
        simp only [isJsonSpace, Bool.not_eq_false, Bool.or_eq_true, decide_eq_true_eq] at hs
        rcases hs with ((rfl | rfl) | rfl) | rfl <;> simp at hc
      · rintro rfl
        simp at hc
    · decide
  cases v with
  | null => exact ⟨'n', _, rfl, by decide⟩
  | bool b => cases b with
    | true => exact ⟨'t', _, rfl, by decide⟩
    | false => exact ⟨'f', _, rfl, by decide⟩
  | int n =>
    obtain ⟨c, t, h, hc⟩ := intText_head n
    exact ⟨c, t, h, number hc⟩
  | float x =>
    obtain ⟨c, t, h, hc⟩ := floatText_head x
    exact ⟨c, t, h, number hc⟩
  | str s => exact ⟨'"', _, rfl, by decide⟩
  | list items => exact ⟨'[', _, rfl, by decide⟩
  | dict pairs => exact ⟨'{', _, rfl, by decide⟩
  | tuple _ => exact hv.elim
  | nonFinite => exact hv.elim
  | backReference => exact hv.elim
  | other _ => exact hv.elim

theorem parseValue_openBracket {fuel : Nat} {c : Char} {r t : List Char}
    (h : skipSpace r = c :: t) (hc : c ≠ ']') :
    parseValue (fuel + 1) ('[' :: r) =
      (parseItems fuel (c :: t)).map (fun p => (.list p.1, p.2)) := by
  rw [parseValue]
  simp only [h]
  split
  · next e => exact absurd (List.cons.inj e).1 hc
  · rfl

theorem parseValue_openBrace {fuel : Nat} {c : Char} {r t : List Char}
    (h : skipSpace r = c :: t) (hc : c ≠ '}') :
    parseValue (fuel + 1) ('{' :: r) =
      (parseMembers fuel [] (c :: t)).map (fun p => (.dict p.1, p.2)) := by
  rw [parseValue]
  simp only [h]
  split
  · next e => exact absurd (List.cons.inj e).1 hc
  · rfl

mutual

/-- **A rendered value reads back as itself, up to a text that ends it.** -/
theorem parseValue_render : ∀ (v : Value) (fuel : Nat) (rest : List Char), Normal v →
    callsOf v ≤ fuel → Ends rest → parseValue fuel (render v ++ rest) = some (v, rest)
  | v, 0, _, _, hf, _ => by
    cases v <;> simp only [callsOf] at hf <;> omega
  | .null, fuel + 1, rest, _, _, _ => by simp [render, parseValue]
  | .bool true, fuel + 1, rest, _, _, _ => by simp [render, parseValue]
  | .bool false, fuel + 1, rest, _, _, _ => by simp [render, parseValue]
  | .int n, fuel + 1, rest, _, _, hr => by
    obtain ⟨c, t, h, hc⟩ := intText_head n
    have hp := parseNumber_intText (n := n) hr
    rw [render]
    rw [h, List.cons_append] at hp ⊢
    rw [parseValue_number hc, hp]
  | .float x, fuel + 1, rest, _, _, hr => by
    obtain ⟨c, t, h, hc⟩ := floatText_head x
    have hp := parseNumber_floatText (x := x) hr
    rw [render]
    rw [h, List.cons_append] at hp ⊢
    rw [parseValue_number hc, hp]
  | .str s, fuel + 1, rest, _, _, _ => by
    simp [render, renderString, parseValue, List.append_assoc, parseChars_body]
  | .list [], fuel + 1, rest, _, _, _ => by
    simp [render, renderItems, parseValue, skipSpace, isJsonSpace]
  | .list (v :: l), fuel + 1, rest, hn, hf, _ => by
    obtain ⟨c, t, h, hs, hc⟩ := render_head hn.1
    have hitems := parseItems_render v l fuel rest hn (by simp only [callsOf] at hf; omega)
    have hbody : renderItems true (v :: l) ++ ']' :: rest =
        c :: (t ++ (renderItems false l ++ ']' :: rest)) := by
      simp [renderItems, h]
    rw [hbody] at hitems
    rw [render, List.cons_append, List.append_assoc, List.singleton_append, hbody,
      parseValue_openBracket (skipSpace_cons hs) hc, hitems]
    rfl
  | .dict [], fuel + 1, rest, _, _, _ => by
    simp [render, renderPairs, parseValue, skipSpace, isJsonSpace]
  | .dict ((k, v) :: l), fuel + 1, rest, hn, hf, _ => by
    have hpairs := parseMembers_render k v l fuel [] rest (by simpa using hn.1) hn.2
      (by simp only [callsOf] at hf; omega)
    obtain ⟨t, ht⟩ : ∃ t, renderPairs true ((k, v) :: l) ++ '}' :: rest = '"' :: t := by
      simp only [renderPairs, renderString, if_true, List.nil_append, List.cons_append]
      exact ⟨_, rfl⟩
    rw [ht] at hpairs
    rw [render, List.cons_append, List.append_assoc, List.singleton_append, ht,
      parseValue_openBrace (skipSpace_cons (by decide)) (by decide), hpairs]
    rfl
  | .tuple _, _ + 1, _, hn, _, _ => hn.elim
  | .nonFinite, _ + 1, _, hn, _, _ => hn.elim
  | .backReference, _ + 1, _, hn, _, _ => hn.elim
  | .other _, _ + 1, _, hn, _, _ => hn.elim

theorem parseItems_render : ∀ (v : Value) (l : List Value) (fuel : Nat) (rest : List Char),
    NormalItems (v :: l) → callsOfItems (v :: l) ≤ fuel →
    parseItems fuel (renderItems true (v :: l) ++ ']' :: rest) = some (v :: l, rest)
  | v, l, 0, _, _, hf => by simp only [callsOfItems] at hf; omega
  | v, [], fuel + 1, rest, hn, hf => by
    have hv := parseValue_render v fuel (']' :: rest) hn.1
      (by simp only [callsOfItems] at hf; omega) (ends_bracket rest)
    simp only [renderItems, if_true, List.nil_append, List.append_nil]
    rw [parseItems, hv]
    rfl
  | v, w :: l, fuel + 1, rest, hn, hf => by
    have hv := parseValue_render v fuel (',' :: (renderItems true (w :: l) ++ ']' :: rest)) hn.1
      (by simp only [callsOfItems] at hf; omega) (ends_comma _)
    have hl := parseItems_render w l fuel rest hn.2
      (by simp only [callsOfItems] at hf ⊢; omega)
    obtain ⟨c, t, h, hs, -⟩ := render_head hn.2.1
    have hskip : skipSpace (renderItems true (w :: l) ++ ']' :: rest) =
        renderItems true (w :: l) ++ ']' :: rest := by
      simp only [renderItems, if_true, List.nil_append, h, List.cons_append]
      exact skipSpace_cons hs
    rw [renderItems, renderItems_cons false]
    simp only [if_true, Bool.false_eq_true, if_false, List.nil_append, List.append_assoc,
      List.singleton_append, List.cons_append]
    rw [parseItems, hv]
    simp only [skipSpace_cons (show isJsonSpace ',' = false by decide), hskip, hl]
    rfl

theorem parseMembers_render : ∀ (k : String) (v : Value) (l : List (String × Value))
    (fuel : Nat) (acc : List (String × Value)) (rest : List Char),
    SortedKeys (acc ++ (k, v) :: l) → NormalPairs ((k, v) :: l) →
    callsOfPairs ((k, v) :: l) ≤ fuel →
    parseMembers fuel acc (renderPairs true ((k, v) :: l) ++ '}' :: rest) =
      some (acc ++ (k, v) :: l, rest)
  | k, v, l, 0, _, _, _, _, hf => by simp only [callsOfPairs] at hf; omega
  | k, v, [], fuel + 1, acc, rest, hs, hn, hf => by
    have hv := parseValue_render v fuel ('}' :: rest) hn.1
      (by simp only [callsOfPairs] at hf; omega) (ends_brace rest)
    obtain ⟨c, t, h, hsp, -⟩ := render_head hn.1
    have hskip : skipSpace (render v ++ '}' :: rest) = render v ++ '}' :: rest := by
      rw [h, List.cons_append]
      exact skipSpace_cons hsp
    have hlast : ∀ p ∈ acc, keyLt p.1 k = true := fun p hp =>
      (List.pairwise_append.mp hs).2.2 p hp (k, v) (by simp)
    simp only [renderPairs, if_true, List.nil_append, List.append_nil, List.append_assoc,
      List.cons_append]
    rw [parseMembers, parseKey_renderString]
    simp only [skipSpace_cons (show isJsonSpace ':' = false by decide), hskip, hv,
      skipSpace_cons (show isJsonSpace '}' = false by decide), insertKey_append hlast]
  | k, v, (k', w) :: l, fuel + 1, acc, rest, hs, hn, hf => by
    have hv := parseValue_render v fuel
      (',' :: (renderPairs true ((k', w) :: l) ++ '}' :: rest)) hn.1
      (by simp only [callsOfPairs] at hf; omega) (ends_comma _)
    have hl := parseMembers_render k' w l fuel (acc ++ [(k, v)]) rest (by simpa using hs) hn.2
      (by simp only [callsOfPairs] at hf ⊢; omega)
    obtain ⟨c, t, h, hsp, -⟩ := render_head hn.1
    have hskip : ∀ u, skipSpace (render v ++ u) = render v ++ u := fun u => by
      rw [h, List.cons_append]
      exact skipSpace_cons hsp
    have hskip' : skipSpace (renderPairs true ((k', w) :: l) ++ '}' :: rest) =
        renderPairs true ((k', w) :: l) ++ '}' :: rest := by
      simp only [renderPairs, renderString, if_true, List.nil_append, List.cons_append]
      exact skipSpace_cons (by decide)
    have hlast : ∀ p ∈ acc, keyLt p.1 k = true := fun p hp =>
      (List.pairwise_append.mp hs).2.2 p hp (k, v) (by simp)
    rw [renderPairs, renderPairs_cons false]
    simp only [if_true, Bool.false_eq_true, if_false, List.nil_append, List.append_assoc,
      List.singleton_append, List.cons_append]
    rw [parseMembers, parseKey_renderString]
    simp only [skipSpace_cons (show isJsonSpace ':' = false by decide), hskip, hv,
      skipSpace_cons (show isJsonSpace ',' = false by decide), hskip', insertKey_append hlast, hl,
      List.append_assoc, List.singleton_append]

end

/-! ## The fuel `loads` gives is enough -/

theorem renderString_length (s : String) : 2 ≤ (renderString s).length := by
  simp only [renderString, List.length_cons, List.length_append, List.length_nil]
  omega

mutual

theorem callsOf_le : ∀ v : Value, Normal v → callsOf v ≤ 2 * (render v).length
  | .null, _ => by simp [callsOf, render]
  | .bool b, _ => by cases b <;> simp [callsOf, render]
  | .int n, _ => by
    obtain ⟨c, t, h, -⟩ := intText_head n
    simp only [callsOf, render, h, List.length_cons]
    omega
  | .float x, _ => by
    obtain ⟨c, t, h, -⟩ := floatText_head x
    simp only [callsOf, render, h, List.length_cons]
    omega
  | .str s, _ => by
    have := renderString_length s
    simp only [callsOf, render]
    omega
  | .list items, h => by
    have := callsOfItems_le items true h
    simp only [callsOf, render, List.length_cons, List.length_append, List.length_nil]
    simp only [if_true] at this
    omega
  | .dict pairs, h => by
    have := callsOfPairs_le pairs true h.2
    simp only [callsOf, render, List.length_cons, List.length_append, List.length_nil]
    simp only [if_true] at this
    omega
  | .tuple _, h => h.elim
  | .nonFinite, h => h.elim
  | .backReference, h => h.elim
  | .other _, h => h.elim

theorem callsOfItems_le : ∀ (items : List Value) (first : Bool), NormalItems items →
    callsOfItems items ≤ 2 * (renderItems first items).length + (if first then 1 else 0)
  | [], _, _ => by simp [callsOfItems]
  | v :: rest, first, h => by
    have hv := callsOf_le v h.1
    have hr := callsOfItems_le rest false h.2
    simp only [Bool.false_eq_true, if_false] at hr
    cases first <;>
      simp only [callsOfItems, renderItems, List.length_append, if_true, Bool.false_eq_true,
        if_false, List.length_nil, List.length_singleton] <;> omega

theorem callsOfPairs_le : ∀ (pairs : List (String × Value)) (first : Bool), NormalPairs pairs →
    callsOfPairs pairs ≤ 2 * (renderPairs first pairs).length + (if first then 1 else 0)
  | [], _, _ => by simp [callsOfPairs]
  | (k, v) :: rest, first, h => by
    have hv := callsOf_le v h.1
    have hr := callsOfPairs_le rest false h.2
    simp only [Bool.false_eq_true, if_false] at hr
    cases first <;>
      simp only [callsOfPairs, renderPairs, List.length_append, if_true, Bool.false_eq_true,
        if_false, List.length_nil, List.length_singleton, List.length_cons] <;> omega

end

/-- **`json.loads` reads what `json.dumps` wrote.** -/
theorem loads_dumps {v : Value} (hv : Normal v) : loads (dumps v) = some v := by
  obtain ⟨c, t, h, hs, -⟩ := render_head hv
  have hcalls := callsOf_le v hv
  have hskip : skipSpace (render v) = render v := by
    rw [h]
    exact skipSpace_cons hs
  have hparse := parseValue_render v (parseFuel (render v)) [] hv
    (by simp only [parseFuel]; omega) (fun c t e => by simp at e)
  rw [List.append_nil] at hparse
  simp only [loads, dumps, normalize_of_normal v hv, String.toList_ofList, hskip, hparse]
  simp [skipSpace]

/-- One text, one value. -/
theorem dumps_injective {v w : Value} (hv : Normal v) (hw : Normal w) (h : dumps v = dumps w) :
    v = w := by
  have := loads_dumps hv
  rw [h, loads_dumps hw] at this
  exact (Option.some.inj this).symm

/-! ## Records

A dict literal assigns each of its keys once, so its text determines what each
of its keys holds. -/

theorem lookup_insertKey_self (k : String) (v : Value) (acc : List (String × Value)) :
    lookup k (insertKey k v acc) = some v := by
  induction acc with
  | nil => simp [insertKey, lookup]
  | cons p acc ih =>
    obtain ⟨k', v'⟩ := p
    simp only [insertKey]
    split
    · simp [lookup]
    next hne =>
      split
      · simp [lookup]
      · simpa [lookup, hne] using ih

theorem lookup_insertKey_ne {k k' : String} (h : k ≠ k') (v : Value) (acc : List (String × Value)) :
    lookup k (insertKey k' v acc) = lookup k acc := by
  induction acc with
  | nil => simp [insertKey, lookup, h]
  | cons p acc ih =>
    obtain ⟨k₂, v₂⟩ := p
    simp only [insertKey]
    split
    next heq => simp [lookup, h, ← heq]
    · split
      · simp [lookup, h]
      · simp only [lookup, ih]

theorem lookup_normalizePairs_notMem {k : String} : ∀ {pairs : List (String × Value)}
    (acc : List (String × Value)), k ∉ pairs.map Prod.fst →
    lookup k (normalizePairs acc pairs) = lookup k acc
  | [], _, _ => rfl
  | (k', v) :: rest, acc, h => by
    simp only [List.map_cons, List.mem_cons, not_or] at h
    rw [normalizePairs, lookup_normalizePairs_notMem _ h.2, lookup_insertKey_ne h.1]

theorem lookup_normalizePairs {k : String} {v : Value} : ∀ {pairs : List (String × Value)}
    (acc : List (String × Value)), (pairs.map Prod.fst).Nodup → (k, v) ∈ pairs →
    lookup k (normalizePairs acc pairs) = some (normalize v)
  | (k', v') :: rest, acc, hnodup, hmem => by
    obtain ⟨hnot, hrest⟩ := List.nodup_cons.mp hnodup
    rw [normalizePairs]
    rcases List.mem_cons.mp hmem with heq | hmem
    · obtain ⟨rfl, rfl⟩ := Prod.mk.inj heq
      rw [lookup_normalizePairs_notMem _ hnot, lookup_insertKey_self]
    · exact lookup_normalizePairs _ hrest hmem

/-- Two records with the same keys and the same normal form hold the same. -/
theorem record_inj (keys : List String) (vs ws : List Value) (hkeys : keys.Nodup)
    (hv : keys.length = vs.length) (hw : keys.length = ws.length)
    (h : normalize (.dict (keys.zip vs)) = normalize (.dict (keys.zip ws))) :
    vs.map normalize = ws.map normalize := by
  have hpairs : normalizePairs [] (keys.zip vs) = normalizePairs [] (keys.zip ws) := by
    simpa only [normalize, Value.dict.injEq] using h
  have hfst : ∀ {us : List Value}, keys.length = us.length → (keys.zip us).map Prod.fst = keys :=
    fun hu => List.map_fst_zip (by omega)
  refine List.ext_getElem (by simp [← hv, ← hw]) (fun i hi hi' => ?_)
  simp only [List.length_map] at hi hi'
  have hmem : ∀ {us : List Value} (hu : i < us.length), keys.length = us.length →
      (keys.get ⟨i, by omega⟩, us[i]) ∈ keys.zip us := fun hu hlen =>
    List.mem_iff_getElem.mpr ⟨i, by simp; omega, by simp⟩
  have hleft := lookup_normalizePairs [] (by rw [hfst hv]; exact hkeys) (hmem hi hv)
  have hright := lookup_normalizePairs [] (by rw [hfst hw]; exact hkeys) (hmem hi' hw)
  rw [hpairs, hright] at hleft
  simpa using (Option.some.inj hleft).symm

/-- One text, one normal form. -/
theorem normalize_of_dumps {v w : Value} (hv : Plain v) (hw : Plain w) (h : dumps v = dumps w) :
    normalize v = normalize w := by
  have htext : ∀ {u : Value}, Plain u → dumps (normalize u) = dumps u := fun hu => by
    rw [dumps, normalize_of_normal _ (normal_normalize _ hu), dumps]
  refine dumps_injective (normal_normalize v hv) (normal_normalize w hw) ?_
  rw [htext hv, htext hw, h]

end PyJson
