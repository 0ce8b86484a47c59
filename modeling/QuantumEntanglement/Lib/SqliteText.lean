import Mathlib

/-
  SQLite text — white space, quotes, comments, and what stands between them

  SQL text is read from the left: a character of token white space, a comment,
  a quoted region, or any other character. Comments and quoted regions are
  literal. White space separates tokens and says nothing else, so what matters
  are the stretches between it; how a stretch is divided into tokens is a
  parameter, of which only the end of a word and the semicolon are known.

  What is proved:
    1. `takeItem_fits`, `fits_takeItem` — what is taken off a text, and that it
       is taken off every text that goes on in the same way.
    2. `reads_iff` — a text is read as the items it is made of, exactly if each
       fits what follows it.
    3. `fits_collapse`, `chunks_collapse` — collapsing white space keeps that,
       and the stretches.
    4. `collapse_eq_of_chunks` — texts with the same stretches collapse to the
       same items.
-/

namespace SqliteText

/-- Space, tab, newline, form feed and carriage return. -/
def isTokenSpace (c : Char) : Bool :=
  c = ' ' || c = '\t' || c = '\n' || c = Char.ofNat 12 || c = '\r'

/-- A character of white space, a quoted region or a comment, or any other
character. -/
inductive Item where
  | space (c : Char)
  | plain (c : Char)
  | solid (text : List Char)
  deriving DecidableEq

def Item.text : Item → List Char
  | .space c => [c]
  | .plain c => [c]
  | .solid text => text

/-- The text made of the items. -/
def render (items : List Item) : List Char := items.flatMap Item.text

/-- The character that closes a quoted region. -/
def closing (c : Char) : Option Char :=
  if c = Char.ofNat 39 ∨ c = Char.ofNat 34 ∨ c = Char.ofNat 96 then some c
  else if c = '[' then some ']'
  else none

/-! ## Regions -/

/-- Up to the closing character, which stands for itself where it is doubled,
unless it is a bracket. -/
def quotedRegion (close : Char) : List Char → Option (List Char × List Char)
  | [] => none
  | [c] => if c = close then some ([c], []) else none
  | c :: d :: rest =>
    if c = close then
      if close ≠ ']' ∧ d = close then
        (quotedRegion close rest).map fun p => (c :: d :: p.1, p.2)
      else some ([c], d :: rest)
    else (quotedRegion close (d :: rest)).map fun p => (c :: p.1, p.2)

/-- Up to the end of the line, or of the text. -/
def lineEnd : List Char → List Char × List Char
  | [] => ([], [])
  | c :: rest => if c = '\n' then ([c], rest) else (c :: (lineEnd rest).1, (lineEnd rest).2)

/-- Up to the end of a block comment. -/
def blockEnd : List Char → Option (List Char × List Char)
  | [] => none
  | c :: rest =>
    if c = '*' ∧ rest.head? = some '/' then some (['*', '/'], rest.tail)
    else (blockEnd rest).map fun p => (c :: p.1, p.2)

/-- What stands at the beginning of a text; nothing if it is not closed. -/
def takeItem : List Char → Option (Item × List Char)
  | [] => none
  | c :: rest =>
    if isTokenSpace c then some (.space c, rest)
    else if c = '-' ∧ rest.head? = some '-' then
      some (.solid ('-' :: '-' :: (lineEnd rest.tail).1), (lineEnd rest.tail).2)
    else if c = '/' ∧ rest.head? = some '*' then
      (blockEnd rest.tail).map fun p => (.solid ('/' :: '*' :: p.1), p.2)
    else
      match closing c with
      | some close => (quotedRegion close rest).map fun p => (.solid (c :: p.1), p.2)
      | none => some (.plain c, rest)

/-- The text is read as these items. -/
inductive Reads : List Char → List Item → Prop where
  | nil : Reads [] []
  | cons {s rest : List Char} {item : Item} {items : List Item} :
      takeItem s = some (item, rest) → Reads rest items → Reads s (item :: items)

theorem quotedRegion_append {close : Char} : ∀ {s region rest : List Char},
    quotedRegion close s = some (region, rest) →
      s = region ++ rest ∧ quotedRegion close region = some (region, []) ∧
        (close ≠ ']' → rest.head? ≠ some close) := by
  intro s
  induction s using quotedRegion.induct close with
  | case1 =>
    intro region rest h
    cases h
  | case2 =>
    intro region rest h
    rw [quotedRegion, if_pos rfl] at h
    cases h
    exact ⟨rfl, by rw [quotedRegion, if_pos rfl], fun _ hnone => nomatch hnone⟩
  | case3 c hc =>
    intro region rest h
    rw [quotedRegion, if_neg hc] at h
    cases h
  | case4 d tail hd ih =>
    intro region rest h
    rw [quotedRegion, if_pos rfl, if_pos hd] at h
    obtain ⟨⟨region', rest'⟩, hinner, heq⟩ := Option.map_eq_some_iff.mp h
    cases heq
    obtain ⟨rfl, hregion, hrest⟩ := ih hinner
    exact ⟨rfl, by rw [quotedRegion, if_pos rfl, if_pos hd, hregion]; rfl, hrest⟩
  | case5 d tail hd =>
    intro region rest h
    rw [quotedRegion, if_pos rfl, if_neg hd] at h
    cases h
    refine ⟨rfl, by rw [quotedRegion, if_pos rfl], ?_⟩
    intro hbracket hhead
    exact hd ⟨hbracket, Option.some.inj hhead⟩
  | case6 c d tail hc ih =>
    intro region rest h
    rw [quotedRegion, if_neg hc] at h
    obtain ⟨⟨region', rest'⟩, hinner, heq⟩ := Option.map_eq_some_iff.mp h
    cases heq
    obtain ⟨hsplit, hregion, hrest⟩ := ih hinner
    refine ⟨congrArg (c :: ·) hsplit, ?_, hrest⟩
    -- The region is not empty: it ends with the closing character.
    cases region' with
    | nil => cases hregion
    | cons e region' =>
      rw [quotedRegion, if_neg hc, hregion]
      rfl

/-- A region is taken off any text that does not go on with its closing
character. -/
theorem quotedRegion_extend {close : Char} {rest : List Char}
    (hrest : close ≠ ']' → rest.head? ≠ some close) : ∀ {s region : List Char},
    quotedRegion close s = some (region, []) → quotedRegion close (s ++ rest) = some (region, rest) := by
  intro s
  induction s using quotedRegion.induct close with
  | case1 =>
    intro region h
    cases h
  | case2 =>
    intro region h
    rw [quotedRegion, if_pos rfl] at h
    cases h
    cases rest with
    | nil => rw [List.append_nil, quotedRegion, if_pos rfl]
    | cons d rest =>
      have hd : ¬(close ≠ ']' ∧ d = close) := fun hboth => hrest hboth.1 (congrArg some hboth.2)
      rw [List.singleton_append, quotedRegion, if_pos rfl, if_neg hd]
  | case3 c hc =>
    intro region h
    rw [quotedRegion, if_neg hc] at h
    cases h
  | case4 d tail hd ih =>
    intro region h
    rw [quotedRegion, if_pos rfl, if_pos hd] at h
    obtain ⟨⟨region', rest'⟩, hinner, heq⟩ := Option.map_eq_some_iff.mp h
    cases heq
    rw [List.cons_append, List.cons_append, quotedRegion, if_pos rfl, if_pos hd, ih hinner]
    rfl
  | case5 d tail hd =>
    intro region h
    rw [quotedRegion, if_pos rfl, if_neg hd] at h
    cases h
  | case6 c d tail hc ih =>
    intro region h
    rw [quotedRegion, if_neg hc] at h
    obtain ⟨⟨region', rest'⟩, hinner, heq⟩ := Option.map_eq_some_iff.mp h
    cases heq
    have := ih hinner
    rw [List.cons_append] at this
    rw [List.cons_append, List.cons_append, quotedRegion, if_neg hc, this]
    rfl

theorem lineEnd_append (s : List Char) : (lineEnd s).1 ++ (lineEnd s).2 = s := by
  induction s with
  | nil => rfl
  | cons c rest ih =>
    rw [lineEnd]
    split
    · rfl
    · exact congrArg (c :: ·) ih

/-- A line that ends is taken off any text; one that does not is the rest. -/
theorem lineEnd_extend (s : List Char) :
    (lineEnd s).2 = [] ∧ lineEnd s = (s, []) ∨ ∀ rest, lineEnd ((lineEnd s).1 ++ rest) = ((lineEnd s).1, rest) := by
  induction s with
  | nil => exact .inl ⟨rfl, rfl⟩
  | cons c tail ih =>
    by_cases hc : c = '\n'
    · refine .inr fun rest => ?_
      rw [lineEnd, if_pos hc, List.singleton_append, lineEnd, if_pos hc]
    · rw [lineEnd, if_neg hc]
      rcases ih with ⟨hnone, hall⟩ | hall
      · exact .inl ⟨hnone, by rw [hall]⟩
      · refine .inr fun rest => ?_
        rw [List.cons_append, lineEnd, if_neg hc, hall rest]

theorem blockEnd_append : ∀ {s region rest : List Char}, blockEnd s = some (region, rest) →
    s = region ++ rest ∧ ∀ rest', blockEnd (region ++ rest') = some (region, rest') := by
  intro s
  induction s with
  | nil =>
    intro region rest h
    cases h
  | cons c tail ih =>
    intro region rest h
    rw [blockEnd] at h
    split at h
    next hend =>
      cases h
      obtain ⟨rfl, hslash⟩ := hend
      cases tail with
      | nil => cases hslash
      | cons d tail =>
        obtain rfl : d = '/' := Option.some.inj hslash
        exact ⟨rfl, fun rest' => rfl⟩
    next hend =>
      obtain ⟨⟨region', rest'⟩, hinner, heq⟩ := Option.map_eq_some_iff.mp h
      cases heq
      obtain ⟨rfl, hall⟩ := ih hinner
      refine ⟨rfl, fun rest' => ?_⟩
      -- The region found later has its own first character, so this one still ends nothing.
      have hhead : ¬(c = '*' ∧ (region' ++ rest').head? = some '/') := by
        cases region' with
        | nil =>
          have := hall []
          cases this
        | cons d region' => exact hend
      rw [List.cons_append, blockEnd, if_neg hhead, hall]
      rfl

/-! ## Items -/

/-- The item, if the text goes on with `after`. -/
def Fits : Item → Option Char → Prop
  | .space c, _ => isTokenSpace c = true
  | .plain c, after => isTokenSpace c = false ∧ closing c = none ∧
      ¬(c = '-' ∧ after = some '-') ∧ ¬(c = '/' ∧ after = some '*')
  | .solid text, after =>
      (∃ line, text = '-' :: '-' :: line ∧
        ((after = none ∧ lineEnd line = (line, [])) ∨ ∀ rest, lineEnd (line ++ rest) = (line, rest))) ∨
      (∃ block, text = '/' :: '*' :: block ∧ ∀ rest, blockEnd (block ++ rest) = some (block, rest)) ∨
      ∃ c close region, text = c :: region ∧ closing c = some close ∧
        quotedRegion close region = some (region, []) ∧ (close ≠ ']' → after ≠ some close)

theorem closing_ne {c close : Char} (h : closing c = some close) :
    isTokenSpace c = false ∧ c ≠ '-' ∧ c ≠ '/' := by
  rw [closing] at h
  split at h
  next hc =>
    rcases hc with rfl | rfl | rfl <;> decide
  next =>
    split at h
    next hc =>
      subst hc
      decide
    next => cases h

/-- **What is taken off a text** is its beginning, and fits what follows. -/
theorem takeItem_fits {s rest : List Char} {item : Item} (h : takeItem s = some (item, rest)) :
    s = item.text ++ rest ∧ Fits item rest.head? := by
  cases s with
  | nil => cases h
  | cons c tail =>
    rw [takeItem] at h
    split at h
    next hspace =>
      cases h
      exact ⟨rfl, hspace⟩
    next hspace =>
      split at h
      next hdash =>
        cases h
        obtain ⟨rfl, hhead⟩ := hdash
        cases tail with
        | nil => cases hhead
        | cons d tail =>
          obtain rfl : d = '-' := Option.some.inj hhead
          refine ⟨by simp [Item.text, lineEnd_append], .inl ⟨_, rfl, ?_⟩⟩
          rcases lineEnd_extend tail with ⟨hnone, hall⟩ | hall
          · refine .inl ⟨by simp [hnone], ?_⟩
            simp [hall]
          · exact .inr hall
      next hdash =>
        split at h
        next hslash =>
          obtain ⟨rfl, hhead⟩ := hslash
          cases tail with
          | nil => cases hhead
          | cons d tail =>
            obtain rfl : d = '*' := Option.some.inj hhead
            obtain ⟨⟨region, rest'⟩, hinner, heq⟩ := Option.map_eq_some_iff.mp h
            cases heq
            obtain ⟨hsplit, hall⟩ := blockEnd_append hinner
            refine ⟨?_, .inr (.inl ⟨_, rfl, hall⟩)⟩
            rw [List.tail_cons] at hsplit
            rw [hsplit]
            rfl
        next hslash =>
          split at h
          next close hclose =>
            obtain ⟨⟨region, rest'⟩, hinner, heq⟩ := Option.map_eq_some_iff.mp h
            cases heq
            obtain ⟨rfl, hregion, hrest⟩ := quotedRegion_append hinner
            exact ⟨rfl, .inr (.inr ⟨c, close, region, rfl, hclose, hregion, hrest⟩)⟩
          next hclose =>
            cases h
            exact ⟨rfl, by simpa using hspace, hclose, hdash, hslash⟩

/-- **An item that fits** is taken off. -/
theorem fits_takeItem {item : Item} {rest : List Char} (h : Fits item rest.head?) :
    takeItem (item.text ++ rest) = some (item, rest) := by
  cases item with
  | space c =>
    have hspace : isTokenSpace c = true := h
    rw [Item.text, List.singleton_append, takeItem, if_pos hspace]
  | plain c =>
    obtain ⟨hspace, hclose, hdash, hslash⟩ := h
    rw [Item.text, List.singleton_append, takeItem, if_neg (by simp [hspace]), if_neg hdash,
      if_neg hslash, hclose]
  | solid text =>
    rcases h with ⟨line, rfl, hline⟩ | ⟨block, rfl, hblock⟩ | ⟨c, close, region, rfl, hclose, hregion, hrest⟩
    · have hend : lineEnd (line ++ rest) = (line, rest) := by
        rcases hline with ⟨hnone, hall⟩ | hall
        · rw [List.head?_eq_none_iff] at hnone
          rw [hnone, List.append_nil, hall]
        · exact hall rest
      simp [Item.text, takeItem, hend, isTokenSpace]
    · simp [Item.text, takeItem, hblock rest, isTokenSpace]
    · obtain ⟨hspace, hdash, hslash⟩ := closing_ne hclose
      rw [Item.text, List.cons_append, takeItem, if_neg (by simp [hspace]),
        if_neg (fun hboth => hdash hboth.1), if_neg (fun hboth => hslash hboth.1)]
      simp only [hclose, quotedRegion_extend hrest hregion, Option.map_some]

/-- Every item fits what follows it. -/
def AllFit : List Item → Prop
  | [] => True
  | item :: items => Fits item (render items).head? ∧ AllFit items

/-- **A text is read as its items** exactly if they make it and each fits. -/
theorem reads_iff {s : List Char} {items : List Item} :
    Reads s items ↔ s = render items ∧ AllFit items := by
  constructor
  · intro h
    induction h with
    | nil => exact ⟨rfl, trivial⟩
    | cons htake _ ih =>
      obtain ⟨rfl, hfit⟩ := takeItem_fits htake
      rw [ih.1] at hfit
      exact ⟨by rw [ih.1]; rfl, hfit, ih.2⟩
  · intro h
    obtain ⟨rfl, hall⟩ := h
    induction items with
    | nil => exact .nil
    | cons item items ih => exact .cons (fits_takeItem hall.1) (ih hall.2)

/-- A text is read in one way. -/
theorem Reads.unique {s : List Char} {items items' : List Item} (h : Reads s items)
    (h' : Reads s items') : items = items' := by
  induction h generalizing items' with
  | nil =>
    cases h' with
    | nil => rfl
    | cons htake _ => cases htake
  | cons htake _ ih =>
    cases h' with
    | nil => cases htake
    | cons htake' hrest' =>
      rw [htake] at htake'
      cases htake'
      rw [ih hrest']

theorem render_cons (item : Item) (items : List Item) :
    render (item :: items) = item.text ++ render items := rfl

theorem render_append (items items' : List Item) :
    render (items ++ items') = render items ++ render items' := List.flatMap_append

/-! ## White space -/

def Item.isSpace : Item → Bool
  | .space _ => true
  | _ => false

/-- One space for every run of white space between two items, none before the
first or after the last. `started` says that there was an item, `pending` that
white space followed it. -/
def collapseFrom (started pending : Bool) : List Item → List Item
  | [] => []
  | item :: items =>
    if item.isSpace then collapseFrom started started items
    else if pending && started then .space ' ' :: item :: collapseFrom true false items
    else item :: collapseFrom true false items

def collapse (items : List Item) : List Item := collapseFrom false false items

/-- The stretches without white space, from within one. -/
def chunksFrom (current : List Item) : List Item → List (List Item)
  | [] => if current = [] then [] else [current]
  | item :: items =>
    if item.isSpace then
      if current = [] then chunksFrom [] items else current :: chunksFrom [] items
    else chunksFrom (current ++ [item]) items

/-- The stretches without white space. -/
def chunks (items : List Item) : List (List Item) := chunksFrom [] items

/-- Stretches with one space between two. -/
def join (cs : List (List Item)) : List Item := [Item.space ' '].intercalate cs

theorem join_cons (c : List Item) (cs : List (List Item)) :
    join (c :: cs) = c ++ if cs = [] then [] else .space ' ' :: join cs := by
  cases cs with
  | nil => simp [join]
  | cons d cs => simp [join, List.intercalate_cons_cons]

theorem chunksFrom_ne_nil {items : List Item} : ∀ {current : List Item}, current ≠ [] →
    chunksFrom current items ≠ [] := by
  induction items with
  | nil =>
    intro current h
    simp [chunksFrom, h]
  | cons item items ih =>
    intro current h
    rw [chunksFrom]
    split
    · simp [h]
    · exact ih (by simp)

/-- **Collapsing** puts one space between the stretches. -/
theorem collapseFrom_eq (items : List Item) :
    (∀ current, current ≠ [] →
      current ++ collapseFrom true false items = join (chunksFrom current items)) ∧
    ∀ started, collapseFrom started started items =
      (if started = true ∧ chunks items ≠ [] then [.space ' '] else []) ++ join (chunks items) := by
  induction items with
  | nil =>
    refine ⟨fun current h => ?_, fun started => ?_⟩
    · simp [collapseFrom, chunksFrom, h, join]
    · simp [collapseFrom, chunks, chunksFrom, join]
  | cons item items ih =>
    obtain ⟨ihin, ihout⟩ := ih
    by_cases hspace : item.isSpace = true
    · refine ⟨fun current h => ?_, fun started => ?_⟩
      · rw [collapseFrom, if_pos hspace, ihout true, chunksFrom, if_pos hspace, if_neg h, join_cons]
        by_cases hnone : chunksFrom [] items = []
        · simp [chunks, hnone, join]
        · simp [chunks, hnone]
      · rw [collapseFrom, if_pos hspace, ihout started, chunks, chunks, chunksFrom, if_pos hspace,
          if_pos rfl]
    · -- An item that is not white space begins or continues a stretch.
      have hin : ∀ current : List Item, current ++ (item :: collapseFrom true false items) =
          join (chunksFrom (current ++ [item]) items) := by
        intro current
        rw [← ihin (current ++ [item]) (by simp)]
        simp
      have hchunks : chunks (item :: items) = chunksFrom [item] items := by
        rw [chunks, chunksFrom, if_neg hspace, List.nil_append]
      have hout : item :: collapseFrom true false items = join (chunks (item :: items)) := by
        rw [hchunks, ← ihin [item] (by simp), List.singleton_append]
      refine ⟨fun current _ => ?_, fun started => ?_⟩
      · rw [collapseFrom, if_neg hspace, if_neg (by simp), chunksFrom, if_neg hspace]
        exact hin current
      · have hne : chunks (item :: items) ≠ [] := hchunks ▸ chunksFrom_ne_nil (by simp)
        rw [collapseFrom, if_neg hspace, ← hout]
        cases started with
        | false => simp
        | true => simp [hne]

theorem collapse_eq_join (items : List Item) : collapse items = join (chunks items) := by
  have h := (collapseFrom_eq items).2 false
  rw [if_neg (by simp), List.nil_append] at h
  exact h

/-- **Texts with the same stretches** collapse to the same items. -/
theorem collapse_eq_of_chunks {items items' : List Item} (h : chunks items = chunks items') :
    collapse items = collapse items' := by
  rw [collapse_eq_join, collapse_eq_join, h]

/-- What has no white space goes into one stretch. -/
theorem chunksFrom_append {c : List Item} (hc : ∀ item ∈ c, item.isSpace = false) (rest : List Item) :
    ∀ current, chunksFrom current (c ++ rest) = chunksFrom (current ++ c) rest := by
  induction c with
  | nil => simp
  | cons item c ih =>
    intro current
    have hrest := ih (fun i hi => hc i (List.mem_cons_of_mem _ hi)) (current ++ [item])
    rw [List.cons_append, chunksFrom, if_neg (by simp [hc item List.mem_cons_self]), hrest]
    simp

/-- What `chunks` answers with: stretches that are not empty. -/
def Stretches (cs : List (List Item)) : Prop :=
  ∀ c ∈ cs, c ≠ [] ∧ ∀ item ∈ c, item.isSpace = false

theorem chunks_join {cs : List (List Item)} (h : Stretches cs) : chunks (join cs) = cs := by
  induction cs with
  | nil => rfl
  | cons c cs ih =>
    obtain ⟨hne, hc⟩ := h c List.mem_cons_self
    rw [join_cons, chunks, chunksFrom_append hc, List.nil_append]
    cases cs with
    | nil => simp [chunksFrom, hne]
    | cons d cs =>
      have hrest := ih (fun e he => h e (List.mem_cons_of_mem _ he))
      rw [chunks] at hrest
      have hspace : (Item.space ' ').isSpace = true := rfl
      rw [if_neg (by simp), chunksFrom, if_pos hspace, if_neg hne, hrest]

theorem chunksFrom_stretches (items : List Item) : ∀ {current : List Item},
    (∀ item ∈ current, item.isSpace = false) → Stretches (chunksFrom current items) := by
  induction items with
  | nil =>
    intro current h c hc
    rw [chunksFrom] at hc
    split at hc
    · cases hc
    next hne => exact List.mem_singleton.mp hc ▸ ⟨hne, h⟩
  | cons item items ih =>
    intro current h
    rw [chunksFrom]
    split
    · have hrest : Stretches (chunksFrom [] items) := ih (by simp)
      split
      · exact hrest
      next hne =>
        intro c hc
        rcases List.mem_cons.mp hc with rfl | hc
        · exact ⟨hne, h⟩
        · exact hrest c hc
    next hspace =>
      refine ih fun i hi => ?_
      rcases List.mem_append.mp hi with hi | hi
      · exact h i hi
      · rw [List.mem_singleton.mp hi]
        simpa using hspace

/-- **Collapsing keeps the stretches.** -/
theorem chunks_collapse (items : List Item) : chunks (collapse items) = chunks items := by
  have hstretches : Stretches (chunks items) := chunksFrom_stretches items (by simp)
  rw [collapse_eq_join, chunks_join hstretches]

/-- No white space where there was some or nothing was yet, and every white
space a space. `here` says that white space may stand here. -/
def Spaced : Bool → List Item → Prop
  | _, [] => True
  | here, item :: items =>
    if item.isSpace then here = true ∧ item = .space ' ' ∧ Spaced false items else Spaced true items

/-- The last item, if any, is not white space. -/
def EndsSolid (items : List Item) : Prop := ∀ item ∈ items.getLast?, item.isSpace = false

theorem EndsSolid.of_cons {item : Item} {items : List Item} (h : EndsSolid (item :: items)) :
    EndsSolid items := by
  intro last hlast
  apply h
  cases items with
  | nil => cases hlast
  | cons next items => simpa using hlast

theorem spaced_collapseFrom (items : List Item) : ∀ started pending,
    Spaced started (collapseFrom started pending items) := by
  induction items with
  | nil => exact fun _ _ => trivial
  | cons item items ih =>
    intro started pending
    rw [collapseFrom]
    split
    · exact ih started started
    next hspace =>
      have hrest : ∀ here, Spaced here (item :: collapseFrom true false items) := by
        intro here
        rw [Spaced, if_neg hspace]
        exact ih true false
      split
      next hpending =>
        have hstarted : started = true := (Bool.and_eq_true_iff.mp hpending).2
        rw [Spaced, if_pos (show (Item.space ' ').isSpace = true from rfl)]
        exact ⟨hstarted, rfl, hrest false⟩
      next => exact hrest started

/-- **Spaced items** are not changed by collapsing. -/
theorem collapse_spaced {items : List Item} (h : Spaced false items) (hend : EndsSolid items) :
    collapse items = items := by
  have hall : ∀ items, EndsSolid items →
      (Spaced true items → collapseFrom true false items = items) ∧
      (Spaced false items → items ≠ [] → collapseFrom true true items = .space ' ' :: items) ∧
      (Spaced false items → collapseFrom false false items = items) := by
    intro items
    induction items with
    | nil => exact fun _ => ⟨fun _ => rfl, fun _ hne => absurd rfl hne, fun _ => rfl⟩
    | cons item items ih =>
      intro hend
      obtain ⟨hin, hpending, -⟩ := ih hend.of_cons
      by_cases hspace : item.isSpace = true
      · have hnever : ¬Spaced false (item :: items) := by
          rw [Spaced, if_pos hspace]
          exact fun hc => nomatch hc.1
        refine ⟨fun hspaced => ?_, fun hc => absurd hc hnever, fun hc => absurd hc hnever⟩
        rw [Spaced, if_pos hspace] at hspaced
        obtain ⟨-, rfl, hrest⟩ := hspaced
        -- White space is not last, so something follows it.
        have hne : items ≠ [] := by
          rintro rfl
          exact absurd (hend (.space ' ') rfl) (by decide)
        rw [collapseFrom, if_pos hspace, hpending hrest hne]
      · have hrest : ∀ here, Spaced here (item :: items) → collapseFrom true false items = items := by
          intro here hspaced
          rw [Spaced, if_neg hspace] at hspaced
          exact hin hspaced
        refine ⟨fun hspaced => ?_, fun hspaced _ => ?_, fun hspaced => ?_⟩
        · rw [collapseFrom, if_neg hspace, if_neg (by simp), hrest _ hspaced]
        · rw [collapseFrom, if_neg hspace, if_pos (by decide), hrest _ hspaced]
        · rw [collapseFrom, if_neg hspace, if_neg (by simp), hrest _ hspaced]
  exact (hall items hend).2.2 h

/-- After an item that is not white space, white space may stand. -/
theorem spaced_append {last : Item} (hlast : last.isSpace = false) (before after : List Item) :
    ∀ here, Spaced here (before ++ [last] ++ after) ↔
      Spaced here (before ++ [last]) ∧ Spaced true after := by
  induction before with
  | nil =>
    intro here
    simp [Spaced, hlast]
  | cons item before ih =>
    intro here
    rw [List.cons_append, List.cons_append, Spaced, Spaced]
    split
    · rw [ih false]
      tauto
    · exact ih true

theorem Spaced.of_append {items items' : List Item} : ∀ {here : Bool},
    Spaced here (items ++ items') → Spaced here items := by
  induction items with
  | nil => exact fun _ => trivial
  | cons item items ih =>
    intro here h
    rw [List.cons_append, Spaced] at h
    rw [Spaced]
    split
    next hspace =>
      rw [if_pos hspace] at h
      exact ⟨h.1, h.2.1, ih h.2.2⟩
    next hspace =>
      rw [if_neg hspace] at h
      exact ih h

/-- **Collapsing makes no text longer.** -/
theorem length_collapse (items : List Item) :
    (render (collapse items)).length ≤ (render items).length := by
  have hall : ∀ items started pending, (render (collapseFrom started pending items)).length ≤
      (render items).length + if pending && started then 1 else 0 := by
    intro items
    induction items with
    | nil => exact fun _ _ => Nat.zero_le _
    | cons item items ih =>
      intro started pending
      rw [collapseFrom]
      split
      next hspace =>
        have hone : item.text.length = 1 := by
          cases item with
          | space c => rfl
          | plain c => cases hspace
          | solid text => cases hspace
        have hrest := ih started started
        have hle : (if started && started then 1 else 0) ≤ 1 := by split <;> omega
        rw [render_cons, List.length_append, hone]
        omega
      next =>
        have hrest := ih true false
        rw [Bool.false_and, if_neg (by simp)] at hrest
        split
        · simp only [render_cons, List.length_append, Item.text, List.length_singleton]
          omega
        · simp only [render_cons, List.length_append]
          omega
  exact hall items false false

/-! ## Collapsed text is read as collapsed items -/

/-- What fits before something fits before the end, and before what closes
nothing. -/
theorem Fits.neutral {item : Item} {c : Char} (h : Fits item (some c)) :
    Fits item none ∧ Fits item (some ' ') := by
  cases item with
  | space d => exact ⟨h, h⟩
  | plain d => exact ⟨⟨h.1, h.2.1, by simp, by simp⟩, ⟨h.1, h.2.1, by simp, by simp⟩⟩
  | solid text =>
    rcases h with ⟨line, rfl, hline⟩ | ⟨block, rfl, hblock⟩ | ⟨d, close, region, rfl, hclose, hregion, -⟩
    · rcases hline with ⟨hnone, -⟩ | hall
      · cases hnone
      · exact ⟨.inl ⟨line, rfl, .inr hall⟩, .inl ⟨line, rfl, .inr hall⟩⟩
    · exact ⟨.inr (.inl ⟨block, rfl, hblock⟩), .inr (.inl ⟨block, rfl, hblock⟩)⟩
    · refine ⟨.inr (.inr ⟨d, close, region, rfl, hclose, hregion, nofun⟩),
        .inr (.inr ⟨d, close, region, rfl, hclose, hregion, ?_⟩)⟩
      intro _ heq
      obtain rfl := Option.some.inj heq
      rw [closing] at hclose
      split at hclose
      next hd =>
        obtain rfl := Option.some.inj hclose
        revert hd
        decide
      next =>
        split at hclose
        · exact absurd (Option.some.inj hclose) (by decide)
        · cases hclose

theorem Fits.text_ne_nil {item : Item} {after : Option Char} (h : Fits item after) :
    item.text ≠ [] := by
  cases item with
  | space c => nofun
  | plain c => nofun
  | solid text =>
    rcases h with ⟨_, rfl, -⟩ | ⟨_, rfl, -⟩ | ⟨_, _, _, rfl, -⟩ <;> nofun

theorem head?_render_cons {item : Item} {items : List Item} (h : item.text ≠ []) :
    (render (item :: items)).head? = item.text.head? := by
  rw [render_cons, List.head?_append_of_ne_nil _ h]

/-- After white space there is nothing, or a space. -/
theorem collapseFrom_pending (items : List Item) :
    collapseFrom true true items = [] ∨ ∃ rest, collapseFrom true true items = .space ' ' :: rest := by
  induction items with
  | nil => exact .inl rfl
  | cons item items ih =>
    rw [collapseFrom]
    split
    · exact ih
    · exact .inr ⟨_, if_pos rfl⟩

/-- An item still fits once what follows it is collapsed. -/
theorem Fits.collapsed {item : Item} {items : List Item} (hall : AllFit items)
    (h : Fits item (render items).head?) :
    Fits item (render (collapseFrom true false items)).head? := by
  cases items with
  | nil => exact h
  | cons next items =>
    have hne := hall.1.text_ne_nil
    obtain ⟨c, text, hc⟩ := List.exists_cons_of_ne_nil hne
    rw [head?_render_cons hne] at h
    rw [collapseFrom]
    split
    · rw [hc] at h
      have hneutral : Fits item none ∧ Fits item (some ' ') := Fits.neutral h
      rcases collapseFrom_pending items with heq | ⟨rest, heq⟩
      · rw [heq]
        exact hneutral.1
      · rw [heq]
        exact hneutral.2
    · rw [if_neg (by simp), head?_render_cons hne]
      exact h

/-- **Collapsing keeps what fits.** -/
theorem fits_collapseFrom {items : List Item} (h : AllFit items) :
    ∀ started pending, AllFit (collapseFrom started pending items) := by
  induction items with
  | nil => exact fun _ _ => trivial
  | cons item items ih =>
    intro started pending
    obtain ⟨hfit, hall⟩ := h
    rw [collapseFrom]
    split
    · exact ih hall started started
    · have hrest : AllFit (item :: collapseFrom true false items) :=
        ⟨hfit.collapsed hall, ih hall true false⟩
      split
      · exact ⟨show isTokenSpace ' ' = true from rfl, hrest⟩
      · exact hrest

/-- Of items that fit, those before the last few fit. -/
theorem AllFit.of_append {items items' : List Item} (h : AllFit (items ++ items')) : AllFit items := by
  induction items with
  | nil => exact trivial
  | cons item items ih =>
    refine ⟨?_, ih h.2⟩
    have hfit : Fits item (render (items ++ items')).head? := h.1
    cases items with
    | nil =>
      cases hafter : (render ([] ++ items')).head? with
      | none =>
        rw [hafter] at hfit
        exact hfit
      | some c =>
        rw [hafter] at hfit
        exact hfit.neutral.1
    | cons next items =>
      have hne := (ih h.2).1.text_ne_nil
      rw [List.cons_append, head?_render_cons hne] at hfit
      rw [head?_render_cons hne]
      exact hfit

/-! ## Ordinary characters -/

/-- The item an ordinary character is. -/
def itemOf (c : Char) : Item := if isTokenSpace c then .space c else .plain c

/-- A character that opens no region and no comment. -/
def Ordinary (c : Char) : Prop := closing c = none ∧ c ≠ '-' ∧ c ≠ '/'

instance (c : Char) : Decidable (Ordinary c) := inferInstanceAs (Decidable (_ ∧ _))

theorem takeItem_ordinary {c : Char} (h : Ordinary c) (rest : List Char) :
    takeItem (c :: rest) = some (itemOf c, rest) := by
  obtain ⟨hclose, hdash, hslash⟩ := h
  rw [takeItem, itemOf]
  by_cases hspace : isTokenSpace c = true
  · rw [if_pos hspace, if_pos hspace]
  · rw [if_neg hspace, if_neg hspace, if_neg (fun hboth => hdash hboth.1),
      if_neg (fun hboth => hslash hboth.1), hclose]

/-- Ordinary characters at the beginning of a text are read one by one. -/
theorem reads_ordinary {w rest : List Char} (hw : ∀ c ∈ w, Ordinary c) {items : List Item} :
    Reads (w ++ rest) items ↔ ∃ items', items = w.map itemOf ++ items' ∧ Reads rest items' := by
  induction w generalizing items with
  | nil => simp
  | cons c w ih =>
    have hc := takeItem_ordinary (hw c List.mem_cons_self) (w ++ rest)
    have hrest := @ih (fun d hd => hw d (List.mem_cons_of_mem _ hd))
    constructor
    · intro h
      cases h with
      | cons htake hreads =>
        rw [List.cons_append, hc] at htake
        cases htake
        obtain ⟨items', rfl, hitems'⟩ := hrest.mp hreads
        exact ⟨items', rfl, hitems'⟩
    · intro h
      obtain ⟨items', rfl, hitems'⟩ := h
      exact .cons hc (hrest.mpr ⟨items', rfl, hitems'⟩)

/-! ## Tokens -/

/-- Letters, digits, `_`, `$` and everything beyond ASCII. -/
def isIdentifierChar (c : Char) : Bool := c.isAlphanum || c = '_' || c = '$' || 128 ≤ c.toNat

/-- No word goes on into the rest. -/
def EndsWord : List Item → Prop
  | .plain c :: _ => isIdentifierChar c = false
  | _ => True

/-- How stretches are divided into tokens: of two letters and more a word is
made as long as it goes on, and a semicolon is a token of its own. -/
structure Lexer (τ : Type) where
  lex : List Item → List τ
  word : List Char → τ
  semicolon : τ
  lex_nil : lex [] = []
  lex_word : ∀ (w : List Char) (rest : List Item), 2 ≤ w.length → (∀ c ∈ w, c.isAlpha = true) →
    EndsWord rest → lex (w.map .plain ++ rest) = word w :: lex rest
  lex_semicolon : ∀ stretch, lex (stretch ++ [.plain ';']) = lex stretch ++ [semicolon]

/-- The tokens of a text read as these items. -/
def Lexer.tokens {τ : Type} (L : Lexer τ) (items : List Item) : List τ := (chunks items).flatMap L.lex

theorem Lexer.tokens_collapse {τ : Type} (L : Lexer τ) (items : List Item) :
    L.tokens (collapse items) = L.tokens items := by
  rw [tokens, tokens, chunks_collapse]

section Tokens

variable {τ : Type} (L : Lexer τ)

/-- White space at the end is of no token. -/
theorem chunksFrom_space {item : Item} (hspace : item.isSpace = true) (items : List Item) :
    ∀ current, chunksFrom current (items ++ [item]) = chunksFrom current items := by
  induction items with
  | nil =>
    intro current
    simp [chunksFrom, hspace]
  | cons first items ih =>
    intro current
    simp only [List.cons_append, chunksFrom, ih]

/-- **A semicolon at the end** is one more token. -/
theorem Lexer.tokens_semicolon (items : List Item) :
    L.tokens (items ++ [.plain ';']) = L.tokens items ++ [L.semicolon] := by
  have h : ∀ (items current : List Item),
      (chunksFrom current (items ++ [.plain ';'])).flatMap L.lex =
        (chunksFrom current items).flatMap L.lex ++ [L.semicolon] := by
    intro items
    induction items with
    | nil =>
      intro current
      have hone : chunksFrom current ([] ++ [.plain ';']) = [current ++ [.plain ';']] := by
        simp [chunksFrom, Item.isSpace]
      rw [hone, List.flatMap_singleton, L.lex_semicolon, chunksFrom]
      split
      next hnil => rw [hnil, L.lex_nil, List.flatMap_nil]
      next => rw [List.flatMap_singleton]
    | cons item items ih =>
      intro current
      rw [List.cons_append, chunksFrom, chunksFrom]
      split
      · split
        · exact ih []
        · rw [List.flatMap_cons, List.flatMap_cons, ih, List.append_assoc]
      · exact ih _
  exact h items []

/-- The stretch that goes on where another stands, and the stretches after it. -/
theorem chunksFrom_split (items : List Item) : ∃ first cs,
    (first = [] ∨ ∃ item rest, items = item :: rest ∧ ∃ tail, first = item :: tail) ∧
    (∀ current, current ≠ [] → chunksFrom current items = (current ++ first) :: cs) ∧
    chunksFrom [] items = if first = [] then cs else first :: cs := by
  induction items with
  | nil => exact ⟨[], [], .inl rfl, fun current h => by simp [chunksFrom, h], by simp [chunksFrom]⟩
  | cons item items ih =>
    by_cases hspace : item.isSpace = true
    · refine ⟨[], chunksFrom [] items, .inl rfl, fun current h => ?_, ?_⟩
      · rw [chunksFrom, if_pos hspace, if_neg h, List.append_nil]
      · rw [chunksFrom, if_pos hspace, if_pos rfl]
    · obtain ⟨first, cs, -, hcurrent, -⟩ := ih
      refine ⟨item :: first, cs, .inr ⟨item, items, rfl, first, rfl⟩, fun current _ => ?_, ?_⟩
      · rw [chunksFrom, if_neg hspace, hcurrent _ (by simp), List.append_assoc]
        rfl
      · rw [chunksFrom, if_neg hspace, hcurrent _ (by simp)]
        simp

/-- **A word at the beginning** is the first token. -/
theorem Lexer.tokens_word {w : List Char} {rest : List Item} (hlen : 2 ≤ w.length)
    (hw : ∀ c ∈ w, c.isAlpha = true) (hend : EndsWord rest) :
    L.tokens (w.map .plain ++ rest) = L.word w :: L.tokens rest := by
  have hplain : ∀ item ∈ w.map Item.plain, item.isSpace = false := by
    intro item hitem
    obtain ⟨c, -, rfl⟩ := List.mem_map.mp hitem
    rfl
  have hne : w.map Item.plain ≠ [] := by
    intro hnil
    rw [List.map_eq_nil_iff] at hnil
    rw [hnil] at hlen
    simp at hlen
  obtain ⟨first, cs, hfirst, hcurrent, hnone⟩ := chunksFrom_split rest
  have hendFirst : EndsWord first := by
    rcases hfirst with rfl | ⟨item, rest', rfl, tail, rfl⟩
    · trivial
    · cases item with
      | plain c => exact hend
      | space c => trivial
      | solid text => trivial
  rw [tokens, tokens, chunks, chunks, chunksFrom_append hplain, List.nil_append, hcurrent _ hne,
    List.flatMap_cons, L.lex_word w first hlen hw hendFirst, hnone, List.cons_append]
  split
  next hnil => rw [hnil, L.lex_nil, List.nil_append]
  next => rw [List.flatMap_cons]

/-- White space at the beginning is of no token. -/
theorem Lexer.tokens_space {item : Item} (hspace : item.isSpace = true) (items : List Item) :
    L.tokens (item :: items) = L.tokens items := by
  rw [tokens, tokens, chunks, chunks, chunksFrom, if_pos hspace, if_pos rfl]

end Tokens

/-! ### A division into tokens -/

/-- Two identifier characters in a row are of one token. -/
def joins : Item → Item → Bool
  | .plain c, .plain d => isIdentifierChar c && isIdentifierChar d
  | _, _ => false

/-- An item before groups, in the first of them or by itself. -/
def attach (item : Item) : List (List Item) → List (List Item)
  | (next :: group) :: groups =>
    if joins item next then (item :: next :: group) :: groups
    else [item] :: (next :: group) :: groups
  | groups => [item] :: groups

/-- Identifier characters in a row make a token, every other item is one. -/
def group : List Item → List (List Item)
  | [] => []
  | item :: rest => attach item (group rest)

theorem group_head (item : Item) (rest : List Item) :
    ∃ tail gs, group (item :: rest) = (item :: tail) :: gs := by
  rw [group, attach.eq_def]
  split
  · split
    · exact ⟨_, _, rfl⟩
    · exact ⟨_, _, rfl⟩
  · exact ⟨_, _, rfl⟩

theorem isIdentifierChar_of_isAlpha {c : Char} (h : c.isAlpha = true) : isIdentifierChar c = true := by
  simp [isIdentifierChar, Char.isAlphanum, h]

/-- Nothing is put in front of a group that does not begin with an identifier
character. -/
theorem group_last {item : Item} {rest : List Item} (hend : EndsWord rest) :
    group (item :: rest) = [item] :: group rest := by
  cases rest with
  | nil => rfl
  | cons next rest =>
    obtain ⟨tail, gs, hgroup⟩ := group_head next rest
    have hjoins : joins item next = false := by
      cases next with
      | plain d =>
        have hd : isIdentifierChar d = false := hend
        cases item <;> simp [joins, hd]
      | space d => cases item <;> rfl
      | solid text => cases item <;> rfl
    rw [group, hgroup, attach, if_neg (by simp [hjoins])]

theorem group_word {w : List Char} {rest : List Item} (hne : w ≠ [])
    (hw : ∀ c ∈ w, c.isAlpha = true) (hend : EndsWord rest) :
    group (w.map .plain ++ rest) = w.map .plain :: group rest := by
  induction w with
  | nil => exact absurd rfl hne
  | cons c w ih =>
    have hc := isIdentifierChar_of_isAlpha (hw c List.mem_cons_self)
    cases w with
    | nil => exact group_last hend
    | cons d w =>
      have hd := isIdentifierChar_of_isAlpha (hw d (by simp))
      have hrest := ih (by simp) (fun e he => hw e (List.mem_cons_of_mem _ he))
      have hjoins : joins (.plain c) (.plain d) = true := by simp [joins, hc, hd]
      rw [List.map_cons, List.cons_append, group, hrest, List.map_cons, attach, if_pos hjoins]

theorem group_semicolon (stretch : List Item) :
    group (stretch ++ [.plain ';']) = group stretch ++ [[.plain ';']] := by
  induction stretch with
  | nil => rfl
  | cons item rest ih =>
    cases rest with
    | nil =>
      have hend : EndsWord [.plain ';'] := by
        show isIdentifierChar ';' = false
        decide
      exact group_last hend
    | cons next rest =>
      obtain ⟨tail, gs, hgroup⟩ := group_head next rest
      have hleft : group (item :: next :: rest) = attach item ((next :: tail) :: gs) := by
        rw [group, hgroup]
      rw [List.cons_append, group, ih, hgroup, hleft, List.cons_append, attach, attach]
      split
      · rfl
      · rfl

/-- Tokens are runs of identifier characters, regions, and single characters. -/
def identifierLexer : Lexer (List Item) where
  lex := group
  word := fun w => w.map .plain
  semicolon := [.plain ';']
  lex_nil := rfl
  lex_word := by
    intro w rest hlen hw hend
    refine group_word ?_ hw hend
    rintro rfl
    simp at hlen
  lex_semicolon := group_semicolon

end SqliteText
