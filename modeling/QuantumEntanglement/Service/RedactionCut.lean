import QuantumEntanglement.Service.TextRedaction

/-
  The cut of a redacted text — what the scan limit does to what is shown

  A text is cut at the scan limit before the patterns are replaced, and cut
  again to the length that is shown. Replacing shrinks a text, so what stands
  near the first cut may be shown. A pattern matches across white space only
  from the word of a credential to the credential itself: white space that does
  not stand there is a clean break, and on both of its sides the patterns are
  replaced on their own. If the text before a clean break fills what is shown,
  the first cut is not seen; where it is seen, a token that it goes through is
  shown.

  What is proved:
    1. `substituteFrom_append` — a replacement, where no match crosses.
    2. `redactText_break` — all patterns, at a clean break.
    3. `cut_independent_laws` — when the text that is shown is one of the whole
       text, and the lengths at which it always is.
    4. `cut_token_shown` — a token that the limit goes through.
-/

namespace QuantumEntanglement.Redaction

variable {alnum : Nat → Bool} {matcher : Text → Option Text} {replacement s t h r : Text} {c : Nat}
  {before : Option Nat} {fuel : Nat}

/-- What is shown of a text, without the marker. -/
def shownText (alnum : Nat → Bool) (policy : RedactionPolicy) (value : Text) : Text :=
  (redactText alnum (value.take (scanLimit policy))).take policy.maximumString

/-- What is shown is the beginning of the whole text, redacted. -/
def CutIndependent (alnum : Nat → Bool) (policy : RedactionPolicy) (value : Text) : Prop :=
  shownText alnum policy value <+: redactText alnum value

instance (policy : RedactionPolicy) (value : Text) : Decidable (CutIndependent alnum policy value) :=
  inferInstanceAs (Decidable (_ <+: _))

/-! ## Matches that do not cross -/

/-- The match of a text is not changed by what follows. -/
def Extends (f : Text → Option Text) (t : Text) : Prop := ∀ s, f (s ++ t) = (f s).map (· ++ t)

/-- A match leaves a proper end of the text. -/
def Shortens (f : Text → Option Text) : Prop := ∀ s r, f s = some r → r <:+ s ∧ r.length < s.length

/-- White space that is no part of a word. -/
def Blank (alnum : Nat → Bool) (c : Nat) : Prop := isSpaceCode c = true ∧ isWordCode alnum c = false

theorem Extends.bind {f g : Text → Option Text} (hf : Extends f t) (hg : Extends g t) :
    Extends (fun s => f s >>= g) t := by
  intro s
  show (f (s ++ t)).bind g = ((f s).bind g).map _
  rw [hf s]
  cases f s with
  | none => rfl
  | some r => exact hg r

theorem Extends.orElse {f g : Text → Option Text} (hf : Extends f t) (hg : Extends g t) :
    Extends (fun s => (f s).orElse (fun _ => g s)) t := by
  intro s
  dsimp only
  rw [hf s]
  cases f s with
  | none => exact hg s
  | some r => rfl

/-- A part of a pattern that may be missing. -/
theorem Extends.optional {f : Text → Option Text} (hf : Extends f t) :
    Extends (fun s => some ((f s).getD s)) t := by
  intro s
  dsimp only
  rw [hf s]
  cases f s with
  | none => rfl
  | some r => rfl

theorem skipWord_extends {word : Text} (h : ∀ letter ∈ word, sameIgnoringCase letter c = false) :
    Extends (skipWord word) (c :: t) := by
  induction word with
  | nil => exact fun s => rfl
  | cons letter word ih =>
    rw [List.forall_mem_cons] at h
    intro s
    cases s with
    | nil =>
      show (if sameIgnoringCase letter c then skipWord word t else none) = none
      rw [h.1]
      rfl
    | cons n s =>
      rw [List.cons_append, skipWord, skipWord]
      split
      · exact ih h.2 s
      · rfl

theorem skipLiteral_extends {word : Text} (h : c ∉ word) : Extends (skipLiteral word) (c :: t) := by
  induction word with
  | nil => exact fun s => rfl
  | cons m word ih =>
    rw [List.mem_cons, not_or] at h
    intro s
    cases s with
    | nil =>
      show (if m = c then skipLiteral word t else none) = none
      rw [if_neg (fun heq => h.1 heq.symm)]
    | cons n s =>
      rw [List.cons_append, skipLiteral, skipLiteral]
      split
      · exact ih h.2 s
      · rfl

theorem takeWhile_stop {accepts : Nat → Bool} (hc : accepts c = false) (s t : Text) :
    (s ++ c :: t).takeWhile accepts = s.takeWhile accepts ∧
      (s ++ c :: t).dropWhile accepts = s.dropWhile accepts ++ c :: t := by
  induction s with
  | nil => simp [hc]
  | cons n s ih =>
    rw [List.cons_append, List.takeWhile_cons, List.takeWhile_cons, List.dropWhile_cons, List.dropWhile_cons]
    split
    · exact ⟨by rw [ih.1], ih.2⟩
    · exact ⟨rfl, rfl⟩

theorem skipRun_extends {accepts : Nat → Bool} {minimum : Nat} (hc : accepts c = false) :
    Extends (skipRun accepts minimum) (c :: t) := by
  intro s
  obtain ⟨htake, hdrop⟩ := takeWhile_stop hc s t
  rw [skipRun, skipRun, htake, hdrop]
  split <;> rfl

theorem endAtBoundary_extends {minimum : Nat} {taken : List Nat} (hc : isWordCode alnum c = false) :
    Extends (endAtBoundary alnum minimum taken) (c :: t) := by
  induction taken with
  | nil => exact fun s => rfl
  | cons n taken ih =>
    intro s
    have hboundary : isBoundary alnum (some n) (s ++ c :: t).head? = isBoundary alnum (some n) s.head? := by
      cases s with
      | nil => simp [isBoundary, hc]
      | cons m s => rfl
    rw [endAtBoundary, endAtBoundary, hboundary]
    split
    · rfl
    · split
      · rfl
      · exact ih (n :: s)

theorem skipBoundedRun_extends {minimum : Nat} (htoken : isTokenCode c = false)
    (hc : isWordCode alnum c = false) : Extends (skipBoundedRun alnum minimum) (c :: t) := by
  intro s
  obtain ⟨htake, hdrop⟩ := takeWhile_stop htoken s t
  rw [skipBoundedRun, skipBoundedRun, htake, hdrop]
  exact endAtBoundary_extends hc _

/-! ## White space in the patterns -/

theorem blank_not_printed (h : isSpaceCode c = true) {n : Nat} (hn : 33 ≤ n ∧ n ≤ 126) : c ≠ n := by
  rintro rfl
  simp [isSpaceCode] at h
  omega

theorem blank_not_letter (h : isSpaceCode c = true) {letter : Nat} (hl : 33 ≤ letter ∧ letter ≤ 126) :
    sameIgnoringCase letter c = false := by
  have hne := blank_not_printed h hl
  simp [isSpaceCode] at h
  have hfolded : foldedLetter c = none := by
    rw [foldedLetter, if_neg (by omega), if_neg (by omega), if_neg (by omega)]
  simp [sameIgnoringCase, hfolded, hne, isLower]
  omega

theorem blank_not_token (h : isSpaceCode c = true) : isTokenCode c = false ∧ isCredentialCode c = false := by
  simp [isSpaceCode] at h
  have hfolded : foldedLetter c = none := by
    rw [foldedLetter, if_neg (by omega), if_neg (by omega), if_neg (by omega)]
  constructor
  · simp [isTokenCode, isLetter, isLower, isUpper, isDigit]
    omega
  · simp [isCredentialCode, hfolded, isLetter, isLower, isUpper, isDigit]
    omega

theorem skipWord_blank {word : String} (h : isSpaceCode c = true)
    (hword : ∀ letter ∈ lit word, 33 ≤ letter ∧ letter ≤ 126) : Extends (skipWord (lit word)) (c :: t) :=
  skipWord_extends (fun letter hl => blank_not_letter h (hword letter hl))

theorem skipLiteral_blank {word : String} (h : isSpaceCode c = true)
    (hword : ∀ letter ∈ lit word, 33 ≤ letter ∧ letter ≤ 126) : Extends (skipLiteral (lit word)) (c :: t) :=
  skipLiteral_extends (fun hmem => blank_not_printed h (hword c hmem) rfl)

theorem matchUserinfo_extends (h : isSpaceCode c = true) : Extends matchUserinfo (c :: t) := by
  have hname : (fun n => !(isSpaceCode n || n == 47 || n == 64 || n == 58)) c = false := by simp [h]
  have hpassword : (fun n => !(isSpaceCode n || n == 47 || n == 64)) c = false := by simp [h]
  have hs : Extends (skipWord (lit "s")) (c :: t) := skipWord_blank h (by decide)
  exact (skipWord_blank h (by decide)).bind (hs.optional.bind ((skipWord_blank h (by decide)).bind
    ((skipRun_extends hname).bind ((skipLiteral_blank h (by decide)).bind
      ((skipRun_extends hpassword).bind (skipLiteral_blank h (by decide)))))))

theorem matchSecretKey_extends (h : Blank alnum c) : Extends (matchSecretKey alnum) (c :: t) :=
  (skipLiteral_blank h.1 (by decide)).bind (skipBoundedRun_extends (blank_not_token h.1).1 h.2)

theorem matchJwt_extends (h : Blank alnum c) : Extends (matchJwt alnum) (c :: t) := by
  have hrun : Extends (skipRun isTokenCode 16) (c :: t) := skipRun_extends (blank_not_token h.1).1
  have hdot : Extends (skipLiteral (lit ".")) (c :: t) := skipLiteral_blank h.1 (by decide)
  exact hrun.bind (hdot.bind (hrun.bind (hdot.bind (skipBoundedRun_extends (blank_not_token h.1).1 h.2))))

/-- `bearer` or `basic`. -/
def skipScheme (s : Text) : Option Text := (skipWord (lit "bearer") s).orElse (fun _ => skipWord (lit "basic") s)

theorem matchAuthorization_eq (s : Text) :
    matchAuthorization s = (skipScheme s).bind (fun s => (skipRun isSpaceCode 1 s).bind (fun s =>
      (skipRun isCredentialCode 4 s).bind (fun s => some (s.dropWhile (· == 61))))) := rfl

/-- The word of a credential and nothing but white space after it. -/
def opensCredential (s : Text) : Bool := (skipScheme s).any (fun r => r.all isSpaceCode)

/-- What follows the text is no credential of a word in it. -/
def CleanEnd (h : Text) : Prop := ∀ s, s <:+ h → opensCredential s = false

/-- A run of white space that ends before something else. -/
theorem skipSpaces_extends (hs : s.all isSpaceCode = false) :
    skipRun isSpaceCode 1 (s ++ t) = (skipRun isSpaceCode 1 s).map (· ++ t) := by
  have hruns : (s ++ t).takeWhile isSpaceCode = s.takeWhile isSpaceCode ∧
      (s ++ t).dropWhile isSpaceCode = s.dropWhile isSpaceCode ++ t := by
    induction s with
    | nil => cases hs
    | cons n s ih =>
      rw [List.cons_append, List.takeWhile_cons, List.takeWhile_cons, List.dropWhile_cons, List.dropWhile_cons]
      rw [List.all_cons] at hs
      cases hn : isSpaceCode n with
      | false => exact ⟨rfl, rfl⟩
      | true =>
        rw [hn, Bool.true_and] at hs
        exact ⟨congrArg (n :: ·) (ih hs).1, (ih hs).2⟩
  rw [skipRun, skipRun, hruns.1, hruns.2]
  split <;> rfl

theorem matchAuthorization_extends (h : isSpaceCode c = true) (hs : opensCredential s = false) :
    matchAuthorization (s ++ c :: t) = (matchAuthorization s).map (· ++ c :: t) := by
  have hscheme : Extends skipScheme (c :: t) :=
    (skipWord_blank h (by decide)).orElse (skipWord_blank h (by decide))
  have hequals : Extends (fun s => some (s.dropWhile (· == 61))) (c :: t) := by
    intro s
    have hc : (c == 61) = false := by
      rw [beq_eq_false_iff_ne]
      exact blank_not_printed h (by omega)
    exact congrArg some (@takeWhile_stop c (· == 61) hc s t).2
  have hafter : Extends (fun s => skipRun isCredentialCode 4 s >>= fun s => some (s.dropWhile (· == 61))) (c :: t) :=
    (skipRun_extends (blank_not_token h).2).bind hequals
  show (skipScheme (s ++ c :: t)).bind _ = ((skipScheme s).bind _).map _
  rw [hscheme s]
  cases hrest : skipScheme s with
  | none => rfl
  | some r =>
    rw [opensCredential, hrest] at hs
    show (skipRun isSpaceCode 1 (r ++ c :: t)).bind _ = ((skipRun isSpaceCode 1 r).bind _).map _
    rw [skipSpaces_extends hs]
    cases skipRun isSpaceCode 1 r with
    | none => rfl
    | some r' => exact hafter r'

/-! ## Matches take something -/

def Suffixes (f : Text → Option Text) : Prop := ∀ s r, f s = some r → r <:+ s

theorem Shortens.suffixes {f : Text → Option Text} (h : Shortens f) : Suffixes f := fun s r hr => (h s r hr).1

theorem Suffixes.bind {f g : Text → Option Text} (hf : Suffixes f) (hg : Suffixes g) :
    Suffixes (fun s => f s >>= g) := by
  intro s r hr
  obtain ⟨r', hfirst, hthen⟩ := Option.bind_eq_some_iff.mp hr
  exact (hg _ _ hthen).trans (hf _ _ hfirst)

theorem Shortens.bind {f g : Text → Option Text} (hf : Shortens f) (hg : Suffixes g) :
    Shortens (fun s => f s >>= g) := by
  intro s r hr
  obtain ⟨r', hfirst, hthen⟩ := Option.bind_eq_some_iff.mp hr
  have hlt := (hf _ _ hfirst).2
  have hle := (hg _ _ hthen).length_le
  exact ⟨(hg _ _ hthen).trans (hf _ _ hfirst).1, by omega⟩

theorem Suffixes.optional {f : Text → Option Text} (hf : Suffixes f) : Suffixes (fun s => some ((f s).getD s)) := by
  intro s r hr
  obtain rfl := Option.some.inj hr
  cases hfs : f s with
  | none => exact List.suffix_refl s
  | some r' => exact hf _ _ hfs

theorem skipWord_suffixes (word : Text) : Suffixes (skipWord word) := by
  induction word with
  | nil =>
    intro s r hr
    rw [skipWord] at hr
    obtain rfl := Option.some.inj hr
    exact List.suffix_refl s
  | cons letter word ih =>
    intro s r hr
    cases s with
    | nil => cases hr
    | cons n s =>
      rw [skipWord] at hr
      split at hr
      · exact (ih _ _ hr).trans (List.suffix_cons n s)
      · cases hr

theorem skipWord_shortens {letter : Nat} {word : Text} : Shortens (skipWord (letter :: word)) := by
  intro s r hr
  cases s with
  | nil => cases hr
  | cons n s =>
    rw [skipWord] at hr
    split at hr
    · have hsuffix := skipWord_suffixes word _ _ hr
      exact ⟨hsuffix.trans (List.suffix_cons n s), Nat.lt_succ_of_le hsuffix.length_le⟩
    · cases hr

theorem skipLiteral_suffixes (word : Text) : Suffixes (skipLiteral word) := by
  induction word with
  | nil =>
    intro s r hr
    rw [skipLiteral] at hr
    obtain rfl := Option.some.inj hr
    exact List.suffix_refl s
  | cons m word ih =>
    intro s r hr
    cases s with
    | nil => cases hr
    | cons n s =>
      rw [skipLiteral] at hr
      split at hr
      · exact (ih _ _ hr).trans (List.suffix_cons n s)
      · cases hr

theorem skipLiteral_shortens {m : Nat} {word : Text} : Shortens (skipLiteral (m :: word)) := by
  intro s r hr
  cases s with
  | nil => cases hr
  | cons n s =>
    rw [skipLiteral] at hr
    split at hr
    · have hsuffix := skipLiteral_suffixes word _ _ hr
      exact ⟨hsuffix.trans (List.suffix_cons n s), Nat.lt_succ_of_le hsuffix.length_le⟩
    · cases hr

theorem skipRun_shortens {accepts : Nat → Bool} {minimum : Nat} : Shortens (skipRun accepts (minimum + 1)) := by
  intro s r hr
  rw [skipRun] at hr
  split at hr
  · cases hr
  next hlong =>
    obtain rfl := Option.some.inj hr
    have hlength := congrArg List.length (List.takeWhile_append_dropWhile (p := accepts) (l := s))
    rw [List.length_append] at hlength
    exact ⟨List.dropWhile_suffix accepts, by omega⟩

theorem endAtBoundary_suffix {minimum : Nat} {taken : List Nat} (h : endAtBoundary alnum minimum taken s = some r) :
    r <:+ taken.reverse ++ s := by
  induction taken generalizing s with
  | nil => cases h
  | cons n taken ih =>
    rw [List.reverse_cons, List.append_assoc, List.singleton_append]
    rw [endAtBoundary] at h
    split at h
    · cases h
    · split at h
      · obtain rfl := Option.some.inj h
        exact (List.suffix_cons n s).trans (List.suffix_append _ _)
      · exact ih h

theorem skipBoundedRun_suffixes (minimum : Nat) : Suffixes (skipBoundedRun alnum minimum) := by
  intro s r hr
  have hsuffix := endAtBoundary_suffix hr
  rwa [List.reverse_reverse, List.takeWhile_append_dropWhile] at hsuffix

theorem matchAuthorization_shortens : Shortens matchAuthorization := by
  have hscheme : Shortens skipScheme := by
    intro s r hr
    rw [skipScheme] at hr
    cases hbearer : skipWord (lit "bearer") s with
    | none =>
      rw [hbearer] at hr
      exact skipWord_shortens _ _ hr
    | some r' =>
      rw [hbearer] at hr
      obtain rfl := Option.some.inj hr
      exact skipWord_shortens _ _ hbearer
  have hequals : Suffixes (fun s => some (s.dropWhile (· == 61))) := by
    intro s r hr
    obtain rfl := Option.some.inj hr
    exact List.dropWhile_suffix _
  exact hscheme.bind (skipRun_shortens.suffixes.bind (skipRun_shortens.suffixes.bind hequals))

theorem matchUserinfo_shortens : Shortens matchUserinfo :=
  Shortens.bind skipWord_shortens ((skipWord_suffixes (lit "s")).optional.bind
    ((skipWord_suffixes _).bind (skipRun_shortens.suffixes.bind
      ((skipLiteral_suffixes _).bind (skipRun_shortens.suffixes.bind (skipLiteral_suffixes _))))))

theorem matchSecretKey_shortens : Shortens (matchSecretKey alnum) :=
  Shortens.bind skipLiteral_shortens (skipBoundedRun_suffixes 8)

theorem matchJwt_shortens : Shortens (matchJwt alnum) :=
  Shortens.bind skipRun_shortens ((skipLiteral_suffixes _).bind (skipRun_shortens.suffixes.bind
    ((skipLiteral_suffixes _).bind (skipBoundedRun_suffixes 16))))

/-! ## A replacement, on both sides -/

/-- One step of a replacement. -/
theorem substituteFrom_cons (n : Nat) (s : Text) :
    substituteFrom alnum matcher replacement (fuel + 1) before (n :: s) =
      match (if isBoundary alnum before (some n) then matcher (n :: s) else none) with
      | some rest => replacement ++ substituteFrom alnum matcher replacement fuel
          ((n :: s).take ((n :: s).length - rest.length)).getLast? rest
      | none => n :: substituteFrom alnum matcher replacement fuel (some n) s := rfl

/-- The fuel does not run out. -/
theorem substituteFrom_fuel (hm : Shortens matcher) (hfuel : s.length ≤ fuel) :
    substituteFrom alnum matcher replacement fuel before s =
      substituteFrom alnum matcher replacement s.length before s := by
  induction fuel using Nat.strongRecOn generalizing s before with
  | ind fuel ih =>
    cases s with
    | nil => cases fuel <;> rfl
    | cons n s =>
      rw [List.length_cons] at hfuel
      obtain ⟨k, rfl⟩ : ∃ k, fuel = k + 1 := ⟨fuel - 1, by omega⟩
      have hboth : ∀ {before s'}, s'.length ≤ s.length →
          substituteFrom alnum matcher replacement k before s' =
            substituteFrom alnum matcher replacement s.length before s' := by
        intro before s' hs'
        rw [ih k (by omega) (by omega), ih s.length (by omega) hs']
      rw [List.length_cons, substituteFrom_cons, substituteFrom_cons]
      split
      next rest heq =>
        have hrest : rest.length < (n :: s).length := by
          split at heq
          · exact (hm _ _ heq).2
          · cases heq
        rw [List.length_cons] at hrest
        rw [hboth (by omega)]
      · rw [hboth (Nat.le_refl _)]

/-- **A replacement, where no match crosses.** -/
theorem substituteFrom_append (hm : Shortens matcher)
    (hcross : ∀ s, s <:+ h → s ≠ [] → matcher (s ++ t) = (matcher s).map (· ++ t)) :
    substituteFrom alnum matcher replacement (h ++ t).length before (h ++ t) =
      substituteFrom alnum matcher replacement h.length before h ++
        substituteFrom alnum matcher replacement t.length (h.getLast?.or before) t := by
  induction hn : h.length using Nat.strongRecOn generalizing h before with
  | ind k ih =>
    cases h with
    | nil =>
      obtain rfl := hn.symm
      rfl
    | cons n h =>
      obtain rfl : k = h.length + 1 := by rw [← hn, List.length_cons]
      have hmatch := hcross (n :: h) (List.suffix_refl _) (List.cons_ne_nil n h)
      rw [List.cons_append] at hmatch
      rw [List.cons_append, List.length_cons, substituteFrom_cons, substituteFrom_cons, hmatch]
      cases hdecide : (if isBoundary alnum before (some n) then matcher (n :: h) else none) with
      | none =>
        have hnone : (if isBoundary alnum before (some n) then (matcher (n :: h)).map (· ++ t) else none) = none := by
          split at hdecide
          next hb => rw [if_pos hb, hdecide]; rfl
          next hb => rw [if_neg hb]
        rw [hnone]
        have hrest := @ih h.length (by omega) h (some n)
          (fun s hs hne => hcross s (hs.trans (List.suffix_cons n h)) hne) rfl
        have hlast : (n :: h).getLast?.or before = h.getLast?.or (some n) := by
          rw [List.getLast?_cons]
          cases h.getLast? <;> rfl
        rw [hlast]
        exact congrArg (n :: ·) hrest
      | some r =>
        have hsome : (if isBoundary alnum before (some n) then (matcher (n :: h)).map (· ++ t) else none) =
            some (r ++ t) := by
          split at hdecide
          next hb => rw [if_pos hb, hdecide]; rfl
          · cases hdecide
        have hr : r <:+ n :: h ∧ r.length < (n :: h).length := by
          split at hdecide
          · exact hm _ _ hdecide
          · cases hdecide
        obtain ⟨⟨taken, htaken⟩, hlt⟩ := hr
        rw [List.length_cons] at hlt
        have hleft : (n :: h).take ((n :: h).length - r.length) = taken := by
          rw [← htaken, List.length_append, Nat.add_sub_cancel, List.take_left']
          rfl
        have hboth : (n :: (h ++ t)).take ((n :: (h ++ t)).length - (r ++ t).length) = taken := by
          have hlist : n :: (h ++ t) = taken ++ (r ++ t) := by
            rw [← List.cons_append, ← htaken, List.append_assoc]
          rw [hlist, List.length_append, Nat.add_sub_cancel, List.take_left']
          rfl
        have hlast : (n :: h).getLast?.or before = r.getLast?.or taken.getLast? := by
          have hwhole : (n :: h).getLast? = r.getLast?.or taken.getLast? := by
            rw [← htaken, List.getLast?_append]
          rw [← hwhole, List.getLast?_cons]
          rfl
        have hrest := @ih r.length (by omega) r taken.getLast?
          (fun s hs hne => hcross s (hs.trans ⟨taken, htaken⟩) hne) rfl
        have hshort : (r ++ t).length ≤ (h ++ t).length := by
          rw [List.length_append, List.length_append]
          omega
        rw [hsome]
        dsimp only
        rw [hleft, hboth, hlast, substituteFrom_fuel hm hshort, hrest,
          @substituteFrom_fuel _ _ _ r _ h.length hm (by omega), List.append_assoc]

/-- A replacement that goes on after a blank. -/
def continueAfter (alnum : Nat → Bool) (c : Nat) (t : Text) (pattern : (Text → Option Text) × Text) : Text :=
  substituteFrom alnum pattern.1 pattern.2 t.length (some c) t

/-- A blank stays where no match crosses it. -/
theorem substitute_blank {pattern : (Text → Option Text) × Text} (hm : Shortens pattern.1)
    (hcross : ∀ s, s <:+ h → pattern.1 (s ++ c :: t) = (pattern.1 s).map (· ++ c :: t)) :
    substitute alnum pattern (h ++ c :: t) = substitute alnum pattern h ++ c :: continueAfter alnum c t pattern := by
  have hnil : pattern.1 [] = none := by
    cases hr : pattern.1 [] with
    | none => rfl
    | some r => exact absurd (hm _ _ hr).2 (Nat.not_lt_zero _)
  have hc : pattern.1 (c :: t) = none := by
    have hstart := hcross [] (List.nil_suffix)
    rwa [hnil] at hstart
  rw [substitute, substitute, substituteFrom_append hm (fun s hs _ => hcross s hs), List.length_cons,
    substituteFrom_cons, hc, ite_self]
  rfl

/-- Patterns that no blank is part of, replaced on both sides of a blank. -/
theorem foldl_blank {patterns : List ((Text → Option Text) × Text)}
    (hp : ∀ pattern ∈ patterns, Shortens pattern.1 ∧ ∀ t, Extends pattern.1 (c :: t)) (g t : Text) :
    patterns.foldl (fun s pattern => substitute alnum pattern s) (g ++ c :: t) =
      patterns.foldl (fun s pattern => substitute alnum pattern s) g ++
        c :: patterns.foldl (continueAfter alnum c) t := by
  induction patterns generalizing g t with
  | nil => rfl
  | cons pattern rest ih =>
    rw [List.forall_mem_cons] at hp
    rw [List.foldl_cons, List.foldl_cons, List.foldl_cons, substitute_blank hp.1.1 (fun s _ => hp.1.2 t s)]
    exact ih hp.2 _ _

/-- The patterns after the first one. -/
def laterPatterns (alnum : Nat → Bool) : List ((Text → Option Text) × Text) := (textPatterns alnum).tail

def redactLater (alnum : Nat → Bool) (s : Text) : Text :=
  (laterPatterns alnum).foldl (fun s pattern => substitute alnum pattern s) s

/-- The first pattern. -/
def authorization : (Text → Option Text) × Text := (matchAuthorization, lit "authorization <redacted>")

theorem redactText_later (s : Text) : redactText alnum s = redactLater alnum (substitute alnum authorization s) := rfl

theorem redactLater_blank (hc : Blank alnum c) (g t : Text) :
    redactLater alnum (g ++ c :: t) =
      redactLater alnum g ++ c :: (laterPatterns alnum).foldl (continueAfter alnum c) t := by
  apply foldl_blank
  intro pattern hp
  have hthree : pattern = (matchUserinfo, lit "https://<redacted>@") ∨
      pattern = (matchSecretKey alnum, lit "sk-<redacted>") ∨ pattern = (matchJwt alnum, lit "<redacted-jwt>") := by
    simpa [laterPatterns, textPatterns] using hp
  obtain rfl | rfl | rfl := hthree
  · exact ⟨matchUserinfo_shortens, fun t => matchUserinfo_extends hc.1⟩
  · exact ⟨matchSecretKey_shortens, fun t => matchSecretKey_extends hc⟩
  · exact ⟨matchJwt_shortens, fun t => matchJwt_extends hc⟩

/-! ## Clean breaks -/

/-- The text is empty, or it ends with white space that no credential begins at. -/
def CleanBreak (alnum : Nat → Bool) (h : Text) : Prop :=
  h = [] ∨ ∃ g c, h = g ++ [c] ∧ Blank alnum c ∧ CleanEnd g

theorem authorization_blank (hc : Blank alnum c) (hg : CleanEnd h) (t : Text) :
    substitute alnum authorization (h ++ c :: t) =
      substitute alnum authorization h ++ c :: continueAfter alnum c t authorization :=
  substitute_blank matchAuthorization_shortens (fun s hs => matchAuthorization_extends hc.1 (hg s hs))

/-- **All patterns, at a clean break.** -/
theorem redactText_break (hb : CleanBreak alnum h) (t : Text) :
    ∃ y, redactText alnum (h ++ t) = redactText alnum h ++ y := by
  obtain rfl | ⟨g, c, rfl, hc, hg⟩ := hb
  · exact ⟨redactText alnum t, rfl⟩
  · have hboth : ∀ t, redactText alnum (g ++ c :: t) = redactText alnum g ++
        c :: (laterPatterns alnum).foldl (continueAfter alnum c) (continueAfter alnum c t authorization) := by
      intro t
      rw [redactText_later, authorization_blank hc hg, redactLater_blank hc, ← redactText_later]
    rw [List.append_assoc, List.singleton_append, hboth t, hboth []]
    refine ⟨(laterPatterns alnum).foldl (continueAfter alnum c) (continueAfter alnum c t authorization), ?_⟩
    rw [List.append_assoc]
    rfl

/-! ## A credential that the limit goes through -/

theorem skipWord_some {word : Text} (h : skipWord word s = some r) (t : Text) :
    skipWord word (s ++ t) = some (r ++ t) := by
  induction word generalizing s with
  | nil =>
    obtain rfl := Option.some.inj h
    rfl
  | cons letter word ih =>
    cases s with
    | nil => cases h
    | cons n s =>
      rw [skipWord] at h
      rw [List.cons_append, skipWord]
      split at h
      next heq => rw [if_pos heq]; exact ih h
      · cases h

/-- A letter that no code point outside ASCII is. -/
theorem sameIgnoringCase_plain {letter n : Nat} (hl : letter ≠ 105 ∧ letter ≠ 115 ∧ letter ≠ 107)
    (h : sameIgnoringCase letter n = true) : n = letter ∨ n + 32 = letter := by
  rw [sameIgnoringCase, Bool.or_eq_true, Bool.or_eq_true, Bool.and_eq_true, beq_iff_eq, beq_iff_eq, beq_iff_eq] at h
  obtain (h | h) | h := h
  · exact .inl h
  · exact .inr h.2
  · rw [foldedLetter] at h
    split at h
    · exact absurd (Option.some.inj h).symm hl.1
    · split at h
      · exact absurd (Option.some.inj h).symm hl.2.1
      · split at h
        · exact absurd (Option.some.inj h).symm hl.2.2
        · cases h

/-- The word of a credential begins with a letter, and what follows leaves it. -/
theorem skipScheme_some (h : skipScheme s = some r) (t : Text) :
    skipScheme (s ++ t) = some (r ++ t) ∧ s.head?.any isLetter = true := by
  have hletter : ∀ {word : Text}, skipWord (98 :: word) s = some r → s.head?.any isLetter = true := by
    intro word hword
    cases s with
    | nil => cases hword
    | cons n s =>
      rw [skipWord] at hword
      split at hword
      next heq =>
        have hn := sameIgnoringCase_plain (by decide) heq
        simp [isLetter, isLower, isUpper]
        omega
      · cases hword
  rw [skipScheme] at h
  cases hbearer : skipWord (lit "bearer") s with
  | some r' =>
    rw [hbearer] at h
    obtain rfl := Option.some.inj h
    exact ⟨by rw [skipScheme, skipWord_some hbearer]; rfl, hletter hbearer⟩
  | none =>
    rw [hbearer] at h
    have hbasic : skipWord (lit "basic") s = some r := h
    refine ⟨?_, hletter hbasic⟩
    -- the second letter of the other word is not that of this one
    have hnot : skipWord (lit "bearer") (s ++ t) = none := by
      cases s with
      | nil => cases hbasic
      | cons n s =>
        cases s with
        | nil =>
          have hnone : skipWord (lit "basic") [n] = none := by
            show (if sameIgnoringCase 98 n then skipWord _ [] else none) = none
            split <;> rfl
          rw [hnone] at hbasic
          cases hbasic
        | cons m s =>
          have hsecond : sameIgnoringCase 97 m = true := by
            have hstep : (if sameIgnoringCase 98 n then
                if sameIgnoringCase 97 m then skipWord (lit "sic") s else none else none) = some r := hbasic
            split at hstep
            · split at hstep
              next hm => exact hm
              · cases hstep
            · cases hstep
          have hother : sameIgnoringCase 101 m = false := by
            have ha := sameIgnoringCase_plain (by decide) hsecond
            rw [← Bool.not_eq_true]
            intro heq
            have he := sameIgnoringCase_plain (by decide) heq
            omega
          show (if sameIgnoringCase 98 n then
            if sameIgnoringCase 101 m then skipWord (lit "arer") (s ++ t) else none else none) = none
          rw [hother]
          split <;> rfl
    rw [skipScheme, hnot]
    exact skipWord_some hbasic t

/-- A credential that ends with the text goes on with it. -/
theorem matchAuthorization_goes (h : matchAuthorization s = some r) (t : Text) :
    ∃ r', matchAuthorization (s ++ t) = some r' := by
  obtain ⟨a, hscheme, h⟩ := Option.bind_eq_some_iff.mp h
  obtain ⟨b, hspaces, h⟩ := Option.bind_eq_some_iff.mp h
  obtain ⟨d, hrun, -⟩ := Option.bind_eq_some_iff.mp h
  have hnotall : a.all isSpaceCode = false := by
    rw [← Bool.not_eq_true]
    intro hall
    have hdrop : a.dropWhile isSpaceCode = [] := by
      rw [List.dropWhile_eq_nil_iff]
      exact List.all_eq_true.mp hall
    rw [skipRun, hdrop] at hspaces
    split at hspaces
    · cases hspaces
    · obtain rfl := Option.some.inj hspaces
      cases hrun
  have hmore : skipRun isCredentialCode 4 (b ++ t) = some ((b ++ t).dropWhile isCredentialCode) := by
    rw [skipRun] at hrun ⊢
    split at hrun
    · cases hrun
    next hlong =>
      refine if_neg ?_
      have hle : (b.takeWhile isCredentialCode).length ≤ ((b ++ t).takeWhile isCredentialCode).length := by
        rw [List.takeWhile_append]
        split
        next hall =>
          rw [hall, List.length_append]
          exact Nat.le_add_right _ _
        · exact Nat.le_refl _
      omega
  refine ⟨((b ++ t).dropWhile isCredentialCode).dropWhile (· == 61), ?_⟩
  rw [matchAuthorization_eq, (skipScheme_some hscheme t).1, Option.bind_some, skipSpaces_extends hnotall, hspaces,
    Option.map_some, Option.bind_some, hmore]
  rfl

/-- A credential, not after a word: it is replaced. -/
theorem substitute_credential (h : matchAuthorization s = some r) (hbefore : before.any (isWordCode alnum) = false) :
    substituteFrom alnum matchAuthorization replacement s.length before s =
      replacement ++ substituteFrom alnum matchAuthorization replacement r.length
        (s.take (s.length - r.length)).getLast? r := by
  have hshort := matchAuthorization_shortens _ _ h
  obtain ⟨a, hscheme, -⟩ := Option.bind_eq_some_iff.mp h
  have hletter := (skipScheme_some hscheme []).2
  cases s with
  | nil => cases hletter
  | cons n s =>
    have hword : isWordCode alnum n = true := by
      have hn : isLetter n = true := hletter
      rw [isWordCode, hn]
      rfl
    have hboundary : isBoundary alnum before (some n) = true := by
      rw [isBoundary, hbefore, Option.any_some, hword]
      rfl
    have hlt := hshort.2
    rw [List.length_cons] at hlt
    rw [List.length_cons, substituteFrom_cons, if_pos hboundary, h]
    dsimp only
    rw [substituteFrom_fuel matchAuthorization_shortens (by omega)]
    rfl

/-- The end of a replaced credential passes the later patterns. -/
theorem redacted_passes (z : Text) : ∀ pattern ∈ laterPatterns alnum,
    continueAfter alnum 32 (lit "<redacted>" ++ z) pattern =
      lit "<redacted>" ++ continueAfter alnum 62 z pattern := by
  have hlit : lit "<redacted>" = [60, 114, 101, 100, 97, 99, 116, 101, 100, 62] := by decide
  intro pattern hp
  have hthree : pattern = (matchUserinfo, lit "https://<redacted>@") ∨
      pattern = (matchSecretKey alnum, lit "sk-<redacted>") ∨ pattern = (matchJwt alnum, lit "<redacted-jwt>") := by
    simpa [laterPatterns, textPatterns] using hp
  rw [hlit]
  obtain rfl | rfl | rfl := hthree
  · rfl
  · rfl
  · rfl

/-- **The later patterns after a replaced credential.** -/
theorem redactLater_credential (g z : Text) :
    redactLater alnum (g ++ lit "authorization <redacted>" ++ z) =
      redactLater alnum (g ++ lit "authorization") ++ 32 :: (lit "<redacted>" ++
        (laterPatterns alnum).foldl (continueAfter alnum 62) z) := by
  have hlit : lit "authorization <redacted>" = lit "authorization" ++ 32 :: lit "<redacted>" := by decide
  have hfold : ∀ patterns : List ((Text → Option Text) × Text), patterns ⊆ laterPatterns alnum → ∀ z,
      patterns.foldl (continueAfter alnum 32) (lit "<redacted>" ++ z) =
        lit "<redacted>" ++ patterns.foldl (continueAfter alnum 62) z := by
    intro patterns hsub
    induction patterns with
    | nil => exact fun z => rfl
    | cons pattern rest ih =>
      intro z
      rw [List.foldl_cons, List.foldl_cons, redacted_passes z pattern (hsub List.mem_cons_self)]
      exact ih (fun p hp => hsub (List.mem_cons_of_mem _ hp)) _
  have hblank : Blank alnum 32 := ⟨rfl, rfl⟩
  rw [hlit, ← List.append_assoc, List.append_assoc, List.cons_append, redactLater_blank hblank,
    hfold _ (List.Subset.refl _)]

/-- **A credential that ends with the text**, after a clean break: the whole of
its replacement stays, whatever follows. -/
theorem redactText_credential (hb : CleanBreak alnum h) (hs : matchAuthorization s = some []) (t : Text) :
    redactText alnum (h ++ s) <+: redactText alnum (h ++ s ++ t) := by
  obtain ⟨r, hr⟩ := matchAuthorization_goes hs t
  have hfirst : ∃ g, substitute alnum authorization (h ++ s) = g ++ lit "authorization <redacted>" ++ [] ∧
      ∃ z, substitute alnum authorization (h ++ s ++ t) = g ++ lit "authorization <redacted>" ++ z := by
    obtain rfl | ⟨g, c, rfl, hc, hg⟩ := hb
    · refine ⟨[], ?_, ?_⟩
      · rw [List.nil_append, List.nil_append, substitute]
        exact substitute_credential hs rfl
      · refine ⟨substituteFrom alnum matchAuthorization (lit "authorization <redacted>") r.length
          ((s ++ t).take ((s ++ t).length - r.length)).getLast? r, ?_⟩
        rw [List.nil_append, List.nil_append, substitute]
        exact substitute_credential hr rfl
    · have hbefore : (some c).any (isWordCode alnum) = false := hc.2
      refine ⟨substitute alnum authorization g ++ [c], ?_, substituteFrom alnum matchAuthorization
        (lit "authorization <redacted>") r.length ((s ++ t).take ((s ++ t).length - r.length)).getLast? r, ?_⟩
      · rw [List.append_assoc, List.singleton_append, authorization_blank hc hg, continueAfter]
        show _ ++ c :: substituteFrom alnum matchAuthorization _ _ _ _ = _
        rw [substitute_credential hs hbefore]
        simp [substituteFrom, authorization]
      · rw [List.append_assoc, List.append_assoc, List.singleton_append, authorization_blank hc hg, continueAfter]
        show _ ++ c :: substituteFrom alnum matchAuthorization _ _ _ _ = _
        rw [substitute_credential hr hbefore, List.append_assoc, List.append_assoc]
        rfl
  obtain ⟨g, hcut, z, hwhole⟩ := hfirst
  rw [redactText_later, redactText_later, hcut, hwhole, redactLater_credential, redactLater_credential]
  refine ⟨(laterPatterns alnum).foldl (continueAfter alnum 62) z, ?_⟩
  have hnil : (laterPatterns alnum).foldl (continueAfter alnum 62) [] = [] := rfl
  rw [hnil, List.append_nil, List.append_assoc, List.cons_append]

/-! ## What is shown -/

/-- The text before a clean break within the limit fills what is shown, or one
credential stands between the break and the limit. -/
def CutHidden (alnum : Nat → Bool) (policy : RedactionPolicy) (value : Text) : Prop :=
  ∃ h s, value.take (scanLimit policy) = h ++ s ∧ CleanBreak alnum h ∧
    (policy.maximumString ≤ (redactText alnum h).length ∨ matchAuthorization s = some [])

theorem cutIndependent_short {policy : RedactionPolicy} {value : Text} (h : value.length ≤ scanLimit policy) :
    CutIndependent alnum policy value := by
  rw [CutIndependent, shownText, List.take_of_length_le h]
  exact List.take_prefix _ _

theorem cutIndependent_hidden {policy : RedactionPolicy} {value : Text} (hv : CutHidden alnum policy value) :
    CutIndependent alnum policy value := by
  obtain ⟨h, s, htake, hb, hcase⟩ := hv
  have hvalue : value = h ++ s ++ value.drop (scanLimit policy) := by
    rw [← htake, List.take_append_drop]
  rw [CutIndependent, shownText, htake]
  obtain hfills | hcredential := hcase
  · obtain ⟨y, hy⟩ := redactText_break hb s
    obtain ⟨y', hy'⟩ := redactText_break hb (s ++ value.drop (scanLimit policy))
    rw [hvalue, List.append_assoc, hy', hy, List.take_append_of_le_length hfills]
    exact (List.take_prefix _ _).trans (List.prefix_append _ _)
  · have hprefix := redactText_credential hb hcredential (value.drop (scanLimit policy))
    rw [← hvalue] at hprefix
    exact (List.take_prefix _ _).trans hprefix

/-! ## A token that the limit goes through -/

/-- The word of a credential, white space up to three places before the limit,
and letters to a given length. -/
def unfinished (limit length : Nat) : Text :=
  lit "basic" ++ 32 :: (List.replicate (limit - 9) 32 ++ List.replicate (length - (limit - 3)) 97)

theorem matchAuthorization_spaces (k m : Nat) :
    matchAuthorization (lit "basic" ++ 32 :: (List.replicate k 32 ++ List.replicate m 97)) =
      if m < 4 then none else some [] := by
  have hlit : lit "basic" = [98, 97, 115, 105, 99] := by decide
  have hspaces : ∀ a ∈ 32 :: List.replicate k 32, isSpaceCode a = true := by
    intro a ha
    rw [← List.replicate_succ] at ha
    rw [List.eq_of_mem_replicate ha]
    rfl
  have hletters : ∀ a ∈ List.replicate m 97, isCredentialCode a = true := by
    intro a ha
    rw [List.eq_of_mem_replicate ha]
    rfl
  have hrun : skipRun isCredentialCode 4 (List.replicate m 97) = if m < 4 then none else some [] := by
    have htake : (List.replicate m 97).takeWhile isCredentialCode = List.replicate m 97 := by
      rw [List.takeWhile_eq_self_iff]
      exact hletters
    have hdrop : (List.replicate m 97).dropWhile isCredentialCode = [] := by
      rw [List.dropWhile_eq_nil_iff]
      exact hletters
    rw [skipRun, htake, hdrop, List.length_replicate]
  have hletter : (List.replicate m 97).takeWhile isSpaceCode = [] ∧
      (List.replicate m 97).dropWhile isSpaceCode = List.replicate m 97 := by
    cases m with
    | zero => exact ⟨rfl, rfl⟩
    | succ m => exact ⟨rfl, rfl⟩
  have hblank : skipRun isSpaceCode 1 (32 :: (List.replicate k 32 ++ List.replicate m 97)) =
      some (List.replicate m 97) := by
    rw [← List.cons_append, skipRun, List.takeWhile_append_of_pos hspaces, List.dropWhile_append_of_pos hspaces,
      hletter.1, hletter.2, List.append_nil, List.length_cons, if_neg (by omega)]
  have hscheme : skipScheme ([98, 97, 115, 105, 99] ++ 32 :: (List.replicate k 32 ++ List.replicate m 97)) =
      some (32 :: (List.replicate k 32 ++ List.replicate m 97)) := rfl
  rw [hlit, matchAuthorization_eq, hscheme, Option.bind_some, hblank, Option.bind_some, hrun]
  split <;> rfl

/-- An unfinished credential stays. -/
theorem redactText_unfinished (k : Nat) :
    ∃ y, redactText alnum (lit "basic" ++ 32 :: (List.replicate k 32 ++ List.replicate 3 97)) = 98 :: y := by
  have hlit : lit "basic" = [98, 97, 115, 105, 99] := by decide
  have hcross : ∀ s, s <:+ lit "basic" →
      matchAuthorization (s ++ 32 :: (List.replicate k 32 ++ List.replicate 3 97)) =
        (matchAuthorization s).map (· ++ 32 :: (List.replicate k 32 ++ List.replicate 3 97)) := by
    intro s hs
    rw [hlit] at hs
    simp only [List.suffix_cons_iff, List.suffix_nil] at hs
    obtain rfl | rfl | rfl | rfl | rfl | rfl := hs
    · rw [← hlit, matchAuthorization_spaces]
      rfl
    · rfl
    · rfl
    · rfl
    · rfl
    · rfl
  have hfirst : substitute alnum authorization (lit "basic") = lit "basic" := by
    rw [hlit]
    rfl
  have hlater : redactLater alnum (lit "basic") = lit "basic" := by
    rw [hlit]
    rfl
  have hblank : Blank alnum 32 := ⟨rfl, rfl⟩
  rw [redactText_later, substitute_blank matchAuthorization_shortens hcross, hfirst, redactLater_blank hblank, hlater,
    hlit]
  exact ⟨_, rfl⟩

/-- A finished one is replaced. -/
theorem redactText_finished {k m : Nat} (hm : 4 ≤ m) :
    ∃ y, redactText alnum (lit "basic" ++ 32 :: (List.replicate k 32 ++ List.replicate m 97)) = 97 :: y := by
  have hmatch := matchAuthorization_spaces k m
  rw [if_neg (by omega)] at hmatch
  have hlater : redactLater alnum ([] ++ lit "authorization") = lit "authorization" := by
    have hlit : lit "authorization" = [97, 117, 116, 104, 111, 114, 105, 122, 97, 116, 105, 111, 110] := by decide
    rw [List.nil_append, hlit]
    rfl
  have hfirst : substitute alnum authorization (lit "basic" ++ 32 :: (List.replicate k 32 ++ List.replicate m 97)) =
      [] ++ lit "authorization <redacted>" ++ [] := by
    rw [substitute]
    exact substitute_credential hmatch rfl
  rw [redactText_later, hfirst, redactLater_credential, hlater]
  exact ⟨_, rfl⟩

/-- At every length beyond the limit a text shows what it would not. -/
theorem unfinished_depends (policy : RedactionPolicy) {n : Nat} (h : scanLimit policy < n) :
    (unfinished (scanLimit policy) n).length = n ∧
      ¬CutIndependent alnum policy (unfinished (scanLimit policy) n) := by
  have hlimit : 1024 ≤ scanLimit policy := Nat.le_max_left _ _
  have hlit : (lit "basic").length = 5 := by decide
  refine ⟨?_, ?_⟩
  · rw [unfinished, List.length_append, List.length_cons, List.length_append, List.length_replicate,
      List.length_replicate, hlit]
    omega
  · have hcut : (unfinished (scanLimit policy) n).take (scanLimit policy) =
        lit "basic" ++ 32 :: (List.replicate (scanLimit policy - 9) 32 ++ List.replicate 3 97) := by
      have hrest : List.replicate (n - (scanLimit policy - 3)) 97 =
          List.replicate 3 97 ++ List.replicate (n - scanLimit policy) 97 := by
        rw [List.replicate_append_replicate]
        congr 1
        omega
      rw [unfinished, hrest, ← List.append_assoc, ← List.cons_append, ← List.append_assoc, List.take_left']
      rw [List.length_append, List.length_cons, List.length_append, List.length_replicate, List.length_replicate, hlit]
      omega
    obtain ⟨y, hy⟩ := @redactText_unfinished alnum (scanLimit policy - 9)
    obtain ⟨y', hy'⟩ := @redactText_finished alnum (scanLimit policy - 9) (n - (scanLimit policy - 3)) (by omega)
    obtain ⟨m, hm⟩ : ∃ m, policy.maximumString = m + 1 := ⟨policy.maximumString - 1, by have := policy.stringRange; omega⟩
    rw [CutIndependent, shownText, hcut, hy, hm, unfinished, hy', List.take_succ_cons, List.cons_prefix_cons]
    exact fun hprefix => absurd hprefix.1 (by decide)

/-- The policy that is used by default. -/
def defaultPolicy : RedactionPolicy where
  maximumDepth := 6
  maximumItems := 64
  maximumString := 256
  maximumNodes := 1024
  depthRange := by decide
  itemsRange := by decide
  stringRange := by decide
  nodesRange := by decide

/-- **What is shown does not depend on the cut** of a text no longer than the
limit, and of one whose cut is hidden; at every greater length there are texts
of which it does. -/
theorem cut_independent_laws (alnum : Nat → Bool) (policy : RedactionPolicy) :
    (∀ value, value.length ≤ scanLimit policy ∨ CutHidden alnum policy value → CutIndependent alnum policy value) ∧
    ∀ n, (∀ value, value.length = n → CutIndependent alnum policy value) ↔ n ≤ scanLimit policy := by
  refine ⟨?_, fun n => ⟨?_, ?_⟩⟩
  · rintro value (hshort | hhidden)
    · exact cutIndependent_short hshort
    · exact cutIndependent_hidden hhidden
  · intro hall
    by_contra hlong
    obtain ⟨hlength, hdepends⟩ := @unfinished_depends alnum policy n (by omega)
    exact hdepends (hall _ hlength)
  · intro hn value hvalue
    exact cutIndependent_short (by omega)

/-- A credential longer than the limit. -/
def longCredential : Text := lit "Bearer " ++ List.replicate 1100 97

theorem cut_independent_laws_credential :
    CutIndependent (fun _ => false) defaultPolicy (lit "Bearer abcd") ∧
      CutIndependent (fun _ => false) defaultPolicy longCredential ∧
      ¬∀ value, value.length = 1025 → CutIndependent (fun _ => false) defaultPolicy value := by
  obtain ⟨htext, hlength⟩ := cut_independent_laws (fun _ => false) defaultPolicy
  have hhidden : CutHidden (fun _ => false) defaultPolicy longCredential :=
    ⟨[], longCredential.take 1024, by decide +kernel, .inl rfl, .inr (by decide +kernel)⟩
  refine ⟨htext _ (.inl (by decide)), htext _ (.inr hhidden), fun hall => ?_⟩
  exact absurd ((hlength 1025).mp hall) (by decide)

/-- A long credential, then a key that the limit goes through. -/
def cutKey : Text := lit "Bearer " ++ List.replicate 1009 97 ++ lit " sk-abcdefgh"

/-- **A key that is shown**: its beginning, where the whole text shows nothing of it. -/
theorem cut_token_shown :
    sanitizeText (fun _ => false) defaultPolicy cutKey = lit "authorization <redacted> sk-abcd<truncated>" ∧
      redactText (fun _ => false) cutKey = lit "authorization <redacted> sk-<redacted>" ∧
      ¬CutIndependent (fun _ => false) defaultPolicy cutKey := by
  decide +kernel

end QuantumEntanglement.Redaction
