import QuantumEntanglement.Lib.PyJsonRoundTrip

/-
  Strict JSON — `json.loads` with a hook that refuses a key given twice

  `json.loads(text, object_pairs_hook=...)` hands the hook the members of an
  object in text order. The hook here builds the dict and raises when a key
  comes a second time, so an object with a repeated key is refused instead of
  keeping its last value. Everything else is read as by `loads`; a number, a
  text or a constant is read by `parseValue` itself.

  What is proved:
    1. `strictLoads_dumps` — what `json.dumps` writes of a value in normal form
       is read back as that value.
-/

namespace PyJson

mutual

def strictValue : Nat → List Char → Option (Value × List Char)
  | 0, _ => none
  | fuel + 1, s =>
    match s with
    | '[' :: rest =>
      match skipSpace rest with
      | ']' :: tail => some (.list [], tail)
      | body => (strictItems fuel body).map (fun p => (.list p.1, p.2))
    | '{' :: rest =>
      match skipSpace rest with
      | '}' :: tail => some (.dict [], tail)
      | body => (strictMembers fuel [] body).map (fun p => (.dict p.1, p.2))
    | s => parseValue 1 s

def strictItems : Nat → List Char → Option (List Value × List Char)
  | 0, _ => none
  | fuel + 1, s =>
    match strictValue fuel s with
    | none => none
    | some (v, s₁) =>
      match skipSpace s₁ with
      | ']' :: tail => some ([v], tail)
      | ',' :: tail => (strictItems fuel (skipSpace tail)).map (fun p => (v :: p.1, p.2))
      | _ => none

/-- The members of an object, after those of `acc`, in text order. -/
def strictMembers : Nat → List (String × Value) → List Char →
    Option (List (String × Value) × List Char)
  | 0, _, _ => none
  | fuel + 1, acc, s =>
    match parseKey s with
    | none => none
    | some (k, s₁) =>
      match skipSpace s₁ with
      | ':' :: s₂ =>
        match strictValue fuel (skipSpace s₂) with
        | none => none
        | some (v, s₃) =>
          if (lookup k acc).isSome then none
          else
            match skipSpace s₃ with
            | '}' :: tail => some (acc ++ [(k, v)], tail)
            | ',' :: tail => strictMembers fuel (acc ++ [(k, v)]) (skipSpace tail)
            | _ => none
      | _ => none

end

/-- `json.loads(text, object_pairs_hook=<strict>, parse_constant=<raise>)`. -/
def strictLoads (text : String) : Option Value :=
  let s := text.toList
  match strictValue (parseFuel s) (skipSpace s) with
  | some (v, rest) => if skipSpace rest = [] then some v else none
  | none => none

example : strictLoads "\x7b\"a\":1,\"a\":1\x7d" = none ∧ (loads "\x7b\"a\":1,\"a\":1\x7d").isSome = true := by
  decide +kernel

/-! ## Reading back -/

theorem lookup_append_below {k : String} {acc : List (String × Value)}
    (h : ∀ p ∈ acc, keyLt p.1 k = true) : lookup k acc = none := by
  induction acc with
  | nil => rfl
  | cons p rest ih =>
    obtain ⟨k', v⟩ := p
    have hlt := h _ List.mem_cons_self
    have hne : k ≠ k' := by
      intro heq
      rw [heq, keyLt_irrefl] at hlt
      cases hlt
    rw [lookup, if_neg hne]
    exact ih (fun p hp => h p (List.mem_cons_of_mem _ hp))

/-- A value that is no container. -/
def Value.isScalar : Value → Bool
  | .list _ => false
  | .dict _ => false
  | _ => true

theorem render_scalar_head {v : Value} (hv : Normal v) (hs : v.isScalar = true) :
    ∃ c t, render v = c :: t ∧ c ≠ '[' ∧ c ≠ '{' := by
  have number : ∀ {c : Char}, NumberHead c → c ≠ '[' ∧ c ≠ '{' := by
    intro c hc
    rcases hc with hc | rfl
    · constructor
      · rintro rfl
        simp at hc
      · rintro rfl
        simp at hc
    · decide
  cases v with
  | null => exact ⟨'n', _, rfl, by decide, by decide⟩
  | bool b =>
    cases b with
    | true => exact ⟨'t', _, rfl, by decide, by decide⟩
    | false => exact ⟨'f', _, rfl, by decide, by decide⟩
  | int n =>
    obtain ⟨c, t, h, hc⟩ := intText_head n
    exact ⟨c, t, h, number hc⟩
  | float x =>
    obtain ⟨c, t, h, hc⟩ := floatText_head x
    exact ⟨c, t, h, number hc⟩
  | str s => exact ⟨'"', _, rfl, by decide, by decide⟩
  | list _ => cases hs
  | dict _ => cases hs
  | tuple _ => exact hv.elim
  | nonFinite => exact hv.elim
  | backReference => exact hv.elim
  | other _ => exact hv.elim

/-- A scalar is read as by `loads`. -/
theorem strictValue_scalar {v : Value} {fuel : Nat} {rest : List Char} (hv : Normal v)
    (hs : v.isScalar = true) (hr : Ends rest) :
    strictValue (fuel + 1) (render v ++ rest) = some (v, rest) := by
  have hcalls : callsOf v ≤ 1 := by
    cases v with
    | list _ => cases hs
    | dict _ => cases hs
    | _ => exact Nat.le_refl 1
  have hparse := parseValue_render v 1 rest hv hcalls hr
  obtain ⟨c, t, h, hb, hc⟩ := render_scalar_head hv hs
  rw [h, List.cons_append] at hparse ⊢
  rw [strictValue]
  · exact hparse
  · intro rest' heq
    exact hb (List.cons.inj heq).1
  · intro rest' heq
    exact hc (List.cons.inj heq).1

theorem strictValue_openBracket {fuel : Nat} {c : Char} {r t : List Char}
    (h : skipSpace r = c :: t) (hc : c ≠ ']') :
    strictValue (fuel + 1) ('[' :: r) =
      (strictItems fuel (c :: t)).map (fun p => (.list p.1, p.2)) := by
  rw [strictValue]
  simp only [h]
  split
  · next e => exact absurd (List.cons.inj e).1 hc
  · rfl

theorem strictValue_openBrace {fuel : Nat} {c : Char} {r t : List Char}
    (h : skipSpace r = c :: t) (hc : c ≠ '}') :
    strictValue (fuel + 1) ('{' :: r) =
      (strictMembers fuel [] (c :: t)).map (fun p => (.dict p.1, p.2)) := by
  rw [strictValue]
  simp only [h]
  split
  · next e => exact absurd (List.cons.inj e).1 hc
  · rfl

mutual

/-- **A rendered value is read strictly as itself, up to a text that ends it.** -/
theorem strictValue_render : ∀ (v : Value) (fuel : Nat) (rest : List Char), Normal v →
    callsOf v ≤ fuel → Ends rest → strictValue fuel (render v ++ rest) = some (v, rest)
  | v, 0, _, _, hf, _ => by
    cases v <;> simp only [callsOf] at hf <;> omega
  | .null, _ + 1, _, hn, _, hr => strictValue_scalar hn rfl hr
  | .bool _, _ + 1, _, hn, _, hr => strictValue_scalar hn rfl hr
  | .int _, _ + 1, _, hn, _, hr => strictValue_scalar hn rfl hr
  | .float _, _ + 1, _, hn, _, hr => strictValue_scalar hn rfl hr
  | .str _, _ + 1, _, hn, _, hr => strictValue_scalar hn rfl hr
  | .list [], fuel + 1, rest, _, _, _ => by
    simp [render, renderItems, strictValue, skipSpace, isJsonSpace]
  | .list (v :: l), fuel + 1, rest, hn, hf, _ => by
    obtain ⟨c, t, h, hs, hc⟩ := render_head hn.1
    have hitems := strictItems_render v l fuel rest hn (by simp only [callsOf] at hf; omega)
    have hbody : renderItems true (v :: l) ++ ']' :: rest =
        c :: (t ++ (renderItems false l ++ ']' :: rest)) := by
      simp [renderItems, h]
    rw [hbody] at hitems
    rw [render, List.cons_append, List.append_assoc, List.singleton_append, hbody,
      strictValue_openBracket (skipSpace_cons hs) hc, hitems]
    rfl
  | .dict [], fuel + 1, rest, _, _, _ => by
    simp [render, renderPairs, strictValue, skipSpace, isJsonSpace]
  | .dict ((k, v) :: l), fuel + 1, rest, hn, hf, _ => by
    have hpairs := strictMembers_render k v l fuel [] rest (by simpa using hn.1) hn.2
      (by simp only [callsOf] at hf; omega)
    obtain ⟨t, ht⟩ : ∃ t, renderPairs true ((k, v) :: l) ++ '}' :: rest = '"' :: t := by
      simp only [renderPairs, renderString, if_true, List.nil_append, List.cons_append]
      exact ⟨_, rfl⟩
    rw [ht] at hpairs
    rw [render, List.cons_append, List.append_assoc, List.singleton_append, ht,
      strictValue_openBrace (skipSpace_cons (by decide)) (by decide), hpairs]
    rfl
  | .tuple _, _ + 1, _, hn, _, _ => hn.elim
  | .nonFinite, _ + 1, _, hn, _, _ => hn.elim
  | .backReference, _ + 1, _, hn, _, _ => hn.elim
  | .other _, _ + 1, _, hn, _, _ => hn.elim

theorem strictItems_render : ∀ (v : Value) (l : List Value) (fuel : Nat) (rest : List Char),
    NormalItems (v :: l) → callsOfItems (v :: l) ≤ fuel →
    strictItems fuel (renderItems true (v :: l) ++ ']' :: rest) = some (v :: l, rest)
  | v, l, 0, _, _, hf => by simp only [callsOfItems] at hf; omega
  | v, [], fuel + 1, rest, hn, hf => by
    have hv := strictValue_render v fuel (']' :: rest) hn.1
      (by simp only [callsOfItems] at hf; omega) (ends_bracket rest)
    simp only [renderItems, if_true, List.nil_append, List.append_nil]
    rw [strictItems, hv]
    rfl
  | v, w :: l, fuel + 1, rest, hn, hf => by
    have hv := strictValue_render v fuel (',' :: (renderItems true (w :: l) ++ ']' :: rest)) hn.1
      (by simp only [callsOfItems] at hf; omega) (ends_comma _)
    have hl := strictItems_render w l fuel rest hn.2
      (by simp only [callsOfItems] at hf ⊢; omega)
    obtain ⟨c, t, h, hs, -⟩ := render_head hn.2.1
    have hskip : skipSpace (renderItems true (w :: l) ++ ']' :: rest) =
        renderItems true (w :: l) ++ ']' :: rest := by
      simp only [renderItems, if_true, List.nil_append, h, List.cons_append]
      exact skipSpace_cons hs
    rw [renderItems, renderItems_cons false]
    simp only [if_true, Bool.false_eq_true, if_false, List.nil_append, List.append_assoc,
      List.cons_append]
    rw [strictItems, hv]
    simp only [skipSpace_cons (show isJsonSpace ',' = false by decide), hskip, hl]
    rfl

theorem strictMembers_render : ∀ (k : String) (v : Value) (l : List (String × Value))
    (fuel : Nat) (acc : List (String × Value)) (rest : List Char),
    SortedKeys (acc ++ (k, v) :: l) → NormalPairs ((k, v) :: l) →
    callsOfPairs ((k, v) :: l) ≤ fuel →
    strictMembers fuel acc (renderPairs true ((k, v) :: l) ++ '}' :: rest) =
      some (acc ++ (k, v) :: l, rest)
  | k, v, l, 0, _, _, _, _, hf => by simp only [callsOfPairs] at hf; omega
  | k, v, l, fuel + 1, acc, rest, hs, hn, hf => by
    have hlast : ∀ p ∈ acc, keyLt p.1 k = true := fun p hp =>
      (List.pairwise_append.mp hs).2.2 p hp (k, v) (by simp)
    have hnew : (lookup k acc).isSome = false := by rw [lookup_append_below hlast]; rfl
    obtain ⟨c, t, h, hsp, -⟩ := render_head hn.1
    have hskip : ∀ u, skipSpace (render v ++ u) = render v ++ u := fun u => by
      rw [h, List.cons_append]
      exact skipSpace_cons hsp
    cases l with
    | nil =>
      have hv := strictValue_render v fuel ('}' :: rest) hn.1
        (by simp only [callsOfPairs] at hf; omega) (ends_brace rest)
      simp only [renderPairs, if_true, List.nil_append, List.append_nil, List.append_assoc,
        List.cons_append]
      rw [strictMembers, parseKey_renderString]
      simp only [skipSpace_cons (show isJsonSpace ':' = false by decide), hskip, hv, hnew,
        Bool.false_eq_true, if_false, skipSpace_cons (show isJsonSpace '}' = false by decide)]
    | cons p l =>
      obtain ⟨k', w⟩ := p
      have hv := strictValue_render v fuel
        (',' :: (renderPairs true ((k', w) :: l) ++ '}' :: rest)) hn.1
        (by simp only [callsOfPairs] at hf; omega) (ends_comma _)
      have hl := strictMembers_render k' w l fuel (acc ++ [(k, v)]) rest (by simpa using hs) hn.2
        (by simp only [callsOfPairs] at hf ⊢; omega)
      have hskip' : skipSpace (renderPairs true ((k', w) :: l) ++ '}' :: rest) =
          renderPairs true ((k', w) :: l) ++ '}' :: rest := by
        simp only [renderPairs, renderString, if_true, List.nil_append, List.cons_append]
        exact skipSpace_cons (by decide)
      rw [renderPairs, renderPairs_cons false]
      simp only [if_true, Bool.false_eq_true, if_false, List.nil_append, List.append_assoc,
        List.cons_append]
      rw [strictMembers, parseKey_renderString]
      simp only [skipSpace_cons (show isJsonSpace ':' = false by decide), hskip, hv, hnew,
        Bool.false_eq_true, if_false, skipSpace_cons (show isJsonSpace ',' = false by decide),
        hskip', hl, List.append_assoc, List.singleton_append]

end

/-- **Strict reading gives back what was written.** -/
theorem strictLoads_dumps {v : Value} (hv : Normal v) : strictLoads (dumps v) = some v := by
  obtain ⟨c, t, h, hs, -⟩ := render_head hv
  have hcalls := callsOf_le v hv
  have hskip : skipSpace (render v) = render v := by
    rw [h]
    exact skipSpace_cons hs
  have hparse := strictValue_render v (parseFuel (render v)) [] hv
    (by simp only [parseFuel]; omega) (fun c t e => by simp at e)
  rw [List.append_nil] at hparse
  simp only [strictLoads, dumps, normalize_of_normal v hv, String.toList_ofList, hskip, hparse]
  simp [skipSpace]

end PyJson
