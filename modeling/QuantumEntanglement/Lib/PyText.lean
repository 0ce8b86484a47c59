import Mathlib

/-
  Python text — `str.strip`, blankness and the small list facts they need

  A Python `str` is a Lean `String`. Texts with unpaired surrogates are left
  out: they have no UTF-8 form, so no database column and no encoded document
  can hold one.
-/

namespace PyText

/-- The characters `str.isspace` accepts, which are those `str.strip` removes. -/
def isSpace (c : Char) : Bool :=
  let n := c.toNat
  (0x09 ≤ n && n ≤ 0x0D) || (0x1C ≤ n && n ≤ 0x20) || n == 0x85 || n == 0xA0 || n == 0x1680 ||
    (0x2000 ≤ n && n ≤ 0x200A) || n == 0x2028 || n == 0x2029 || n == 0x202F || n == 0x205F ||
    n == 0x3000

/-- A property of every character of a text is decided by going through the text. -/
instance (priority := 2000) decidableChars {p : Char → Prop} [DecidablePred p] (text : List Char) :
    Decidable (∀ c ∈ text, p c) :=
  List.decidableBAll p text

/-- `not value.strip()`. -/
def isBlank (s : String) : Bool := s.toList.all isSpace

/-- `str.strip`. -/
def strip (s : String) : String :=
  String.ofList (((s.toList.dropWhile isSpace).reverse.dropWhile isSpace).reverse)

/-- `str.replace` of one character by a text. -/
def replaceChar (c : Char) (new : List Char) (s : List Char) : List Char :=
  s.flatMap (fun d => if d = c then new else [d])

@[simp] theorem isBlank_empty : isBlank "" = true := by decide

theorem isBlank_append (a b : String) : isBlank (a ++ b) = (isBlank a && isBlank b) := by
  simp [isBlank]

theorem isSpace_of_isDigit {c : Char} (h : c.isDigit = true) : isSpace c = false := by
  simp only [Char.isDigit, Bool.and_eq_true, decide_eq_true_eq, UInt32.le_iff_toNat_le] at h
  have hlo : 48 ≤ c.toNat := h.1
  have hhi : c.toNat ≤ 57 := h.2
  simp [isSpace]
  omega

theorem ne_empty_of_nonBlank {s : String} (h : isBlank s = false) : s ≠ "" := by
  rintro rfl
  simp at h

theorem strip_sublist (s : String) : (strip s).toList.Sublist s.toList := by
  rw [strip, String.toList_ofList]
  have hinner := (List.dropWhile_sublist isSpace (l := (s.toList.dropWhile isSpace).reverse)).reverse
  rw [List.reverse_reverse] at hinner
  exact hinner.trans (List.dropWhile_sublist isSpace)

/-- A text that is not blank is stripped to one that begins with no space. -/
theorem strip_head {s : String} (h : isBlank s = false) :
    ∃ c rest, (strip s).toList = c :: rest ∧ isSpace c = false := by
  obtain ⟨d, hd, hspace⟩ := List.all_eq_false.mp h
  cases hdrop : s.toList.dropWhile isSpace with
  | nil =>
    have htake := List.takeWhile_append_dropWhile (p := isSpace) (l := s.toList)
    rw [hdrop, List.append_nil] at htake
    have hall := List.all_takeWhile (p := isSpace) (l := s.toList)
    rw [htake, List.all_eq_true] at hall
    exact absurd (hall d hd) hspace
  | cons c rest =>
    have hc : isSpace c = false := by
      have := List.head_dropWhile_not isSpace (l := s.toList) (by simp [hdrop])
      simpa [hdrop] using this
    refine ⟨c, (rest.reverse.dropWhile isSpace).reverse, ?_, hc⟩
    rw [strip, String.toList_ofList, hdrop, List.reverse_cons, List.dropWhile_append]
    split
    next hnil => simp [List.isEmpty_iff.mp hnil, hc]
    next => simp

/-- A letter has at most four bytes. -/
theorem utf8ByteSize_le (l : List Char) : (String.ofList l).utf8ByteSize ≤ 4 * l.length := by
  induction l with
  | nil => exact Nat.le_refl 0
  | cons c rest ih =>
    have hc := c.utf8Size_le_four
    rw [String.ofList_cons, String.utf8ByteSize_append, String.utf8ByteSize_singleton, List.length_cons]
    omega

theorem utf8ByteSize_sublist {l l' : List Char} (h : l.Sublist l') :
    (String.ofList l).utf8ByteSize ≤ (String.ofList l').utf8ByteSize := by
  induction h with
  | slnil => exact Nat.le_refl _
  | cons c _ ih =>
    rw [String.ofList_cons, String.utf8ByteSize_append]
    exact Nat.le_trans ih (Nat.le_add_left _ _)
  | cons_cons c _ ih =>
    rw [String.ofList_cons, String.utf8ByteSize_append, String.ofList_cons,
      String.utf8ByteSize_append]
    exact Nat.add_le_add_left ih _

theorem replaceChar_of_notMem {c : Char} {new s : List Char} (h : c ∉ s) :
    replaceChar c new s = s := by
  induction s with
  | nil => rfl
  | cons d rest ih =>
    have hd : d ≠ c := fun e => h (by simp [e])
    have hr : c ∉ rest := fun e => h (by simp [e])
    simp only [replaceChar, List.flatMap_cons, if_neg hd, List.singleton_append, List.cons.injEq,
      true_and]
    exact ih hr

end PyText
