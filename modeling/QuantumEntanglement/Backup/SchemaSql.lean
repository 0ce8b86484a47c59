import QuantumEntanglement.Lib.SqliteText
import QuantumEntanglement.Migrations.Schema

/-
  Backup DDL — the canonical form of a schema definition

  A definition is read once from the left. What stands in quotes and comments
  is copied, every run of token white space elsewhere becomes one space, and
  one semicolon at the end is dropped. A regular expression then removes an
  `IF NOT EXISTS` after `CREATE`, an optional `UNIQUE` and the kind of object;
  it ignores case as the host language does, and ends the last word where the
  host language ends a word.

  What is proved:
    1. `scanLoop_spec` — the loop collapses the items of the text.
    2. `canonicalize_ok` — what the canonical form is read as.
    3. `tokens_upTo` — it has the tokens of the text, but for one clause and
       one semicolon.
    4. `schema_sql_laws` — texts of one canonical form have the same tokens,
       texts with the same stretches one canonical form; and which canonical
       forms are their own.
    5. `canonical_form_limits` — a second semicolon goes only in a second
       round, and a longer identifier is taken for the clause.

  Correspondence (Python ↔ Lean), of `backup_topology`:
    `_plain_string`                       ↔ the length check of `scanSchemaSql`
    its backwards trimming                ↔ `trimSchemaSql`
    its regular expression                ↔ `clauseMatch`
-/

namespace QuantumEntanglement.Backup

open SqliteText

/-! ## The code -/

/-- `ValueError`. -/
structure SchemaSqlError where
  message : String
  deriving DecidableEq

def maxSchemaSqlLength : Nat := 65536

/-- `output` with its `plain_flags`. -/
abbrev Output : Type := List (Char × Bool)

def emit (output : Output) (text : List Char) (plain : Bool) : Output :=
  output ++ text.map fun c => (c, plain)

/-- `flush_whitespace`. -/
def flushWhitespace (output : Output) (pending : Bool) : Output :=
  if pending && !output.isEmpty then emit output [' '] true else output

/-- The loop over the text; every round takes at least one character. -/
def scanLoop : Nat → Output → Bool → List Char → Except SchemaSqlError Output
  | _, output, _, [] => .ok output
  | 0, output, _, _ :: _ => .ok output
  | fuel + 1, output, pending, c :: rest =>
    if isTokenSpace c then scanLoop fuel output (!output.isEmpty) rest
    else
      let output := flushWhitespace output pending
      if c = '-' ∧ rest.head? = some '-' then
        scanLoop fuel (emit output ('-' :: '-' :: (lineEnd rest.tail).1) false) false
          (lineEnd rest.tail).2
      else if c = '/' ∧ rest.head? = some '*' then
        match blockEnd rest.tail with
        | none => .error ⟨"SQLite schema SQL contains an unterminated block comment"⟩
        | some (block, rest) => scanLoop fuel (emit output ('/' :: '*' :: block) false) false rest
      else
        match closing c with
        | some close =>
          match quotedRegion close rest with
          | none => .error ⟨"SQLite schema SQL contains an unterminated quoted region"⟩
          | some (region, rest) => scanLoop fuel (emit output (c :: region) false) false rest
        | none => scanLoop fuel (emit output [c] true) false rest

/-- The length check and the loop. -/
def scanSchemaSql (sql : List Char) : Except SchemaSqlError Output :=
  if sql = [] ∨ sql.length > maxSchemaSqlLength then
    .error ⟨"SQLite schema SQL must contain between 1 and " ++ toString maxSchemaSqlLength ++
      " characters"⟩
  else scanLoop sql.length [] false sql

/-- Token white space popped off the end. -/
def popWhitespace (output : Output) : Output :=
  (output.reverse.dropWhile fun p => p.2 && isTokenSpace p.1).reverse

/-- White space, one semicolon, and white space again. -/
def trimSchemaSql (output : Output) : Output :=
  let output := popWhitespace output
  if output.getLast? = some (';', true) then popWhitespace output.dropLast else output

section Clause

variable (alnum : Char → Bool)

/-- `\w`; of the characters beyond ASCII, what `str.isalnum` says. -/
def isWordChar (c : Char) : Bool := c.isAlphanum || c = '_' || (128 ≤ c.toNat && alnum c)

/-- `\b` after a letter. -/
def atWordEnd : List Char → Bool
  | [] => true
  | c :: _ => !isWordChar alnum c

/-- `(?: UNIQUE)?`: where `UNIQUE` is there, nothing matches without it. -/
def afterUnique (text : List Char) : List Char :=
  (Migrations.keyword " unique" text).getD text

/-- ` (?:TABLE|INDEX|TRIGGER|VIEW)`. -/
def afterKind (text : List Char) : Option (List Char) :=
  [" table", " index", " trigger", " view"].findSome? fun kind => Migrations.keyword kind text

/-- The match of the regular expression: its first group, and the text after
it. -/
def clauseMatch (text : List Char) : Option (List Char × List Char) := do
  let afterCreate ← Migrations.keyword "create" text
  let rest ← afterKind (afterUnique afterCreate)
  let after ← Migrations.keyword " if not exists" rest
  if atWordEnd alnum after then some (text.take (text.length - rest.length), after) else none

/-- `re.subn(…, r"\1", …, count=1)`. -/
def removeClause (text : List Char) : List Char :=
  match clauseMatch alnum text with
  | some (head, after) => head ++ after
  | none => text

/-- `canonicalize_backup_schema_sql`. -/
def canonicalizeBackupSchemaSql (sql : List Char) : Except SchemaSqlError (List Char) := do
  let output ← scanSchemaSql sql
  let text := (trimSchemaSql output).map Prod.fst
  if text = [] then .error ⟨"SQLite schema SQL has no canonical token content"⟩
  else .ok (removeClause alnum text)

end Clause

/-! ## The loop -/

/-- Characters of quotes and comments are not plain. -/
def flagged (item : Item) : Output :=
  match item with
  | .space c => [(c, true)]
  | .plain c => [(c, true)]
  | .solid text => text.map fun c => (c, false)

def flaggedAll (items : List Item) : Output := items.flatMap flagged

theorem flaggedAll_append (items items' : List Item) :
    flaggedAll (items ++ items') = flaggedAll items ++ flaggedAll items' := List.flatMap_append

theorem map_fst_flagged (item : Item) : (flagged item).map Prod.fst = item.text := by
  cases item <;> simp [flagged, Item.text, Function.comp_def]

theorem map_fst_flaggedAll (items : List Item) : (flaggedAll items).map Prod.fst = render items := by
  rw [flaggedAll, List.map_flatMap, render]
  congr 1
  funext item
  exact map_fst_flagged item

/-- **One round** takes one item. -/
theorem scanLoop_step (fuel : Nat) (output : Output) (pending : Bool) (c : Char) (rest : List Char)
    (out : Output) : scanLoop (fuel + 1) output pending (c :: rest) = .ok out ↔
      ∃ item rest', takeItem (c :: rest) = some (item, rest') ∧
        (if item.isSpace then scanLoop fuel output (!output.isEmpty) rest'
          else scanLoop fuel (flushWhitespace output pending ++ flagged item) false rest') = .ok out := by
  rw [scanLoop, takeItem]
  split
  · simp [Item.isSpace]
  · simp only
    split
    · simp [Item.isSpace, flagged, emit]
    · split
      · cases blockEnd rest.tail with
        | none => simp
        | some p => simp [Item.isSpace, flagged, emit]
      · cases closing c with
        | none => simp [Item.isSpace, flagged, emit]
        | some close =>
          cases hregion : quotedRegion close rest with
          | none => simp [hregion]
          | some p => simp [hregion, Item.isSpace, flagged, emit]

/-- **The loop collapses the items of the text.** -/
theorem scanLoop_spec (fuel : Nat) : ∀ (s : List Char) (output : Output) (pending : Bool)
    (out : Output), s.length ≤ fuel → (scanLoop fuel output pending s = .ok out ↔
      ∃ items, Reads s items ∧
        out = output ++ flaggedAll (collapseFrom (!output.isEmpty) pending items)) := by
  induction fuel with
  | zero =>
    intro s output pending out hlen
    obtain rfl : s = [] := List.length_eq_zero_iff.mp (by omega)
    rw [scanLoop, Except.ok.injEq]
    constructor
    · intro h
      exact ⟨[], .nil, by simp [collapseFrom, flaggedAll, h]⟩
    · intro h
      obtain ⟨items, hreads, rfl⟩ := h
      cases hreads with
      | nil => simp [collapseFrom, flaggedAll]
      | cons htake _ => cases htake
  | succ fuel ih =>
    intro s output pending out hlen
    cases s with
    | nil =>
      rw [scanLoop, Except.ok.injEq]
      constructor
      · intro h
        exact ⟨[], .nil, by simp [collapseFrom, flaggedAll, h]⟩
      · intro h
        obtain ⟨items, hreads, rfl⟩ := h
        cases hreads with
        | nil => simp [collapseFrom, flaggedAll]
        | cons htake _ => cases htake
    | cons c rest =>
      rw [scanLoop_step]
      -- What one item leaves is shorter, and what follows it is as the loop goes on.
      have hround : ∀ item rest', takeItem (c :: rest) = some (item, rest') →
          ((if item.isSpace then scanLoop fuel output (!output.isEmpty) rest'
            else scanLoop fuel (flushWhitespace output pending ++ flagged item) false rest') = .ok out ↔
          ∃ items, Reads rest' items ∧
            out = output ++ flaggedAll (collapseFrom (!output.isEmpty) pending (item :: items))) := by
        intro item rest' htake
        obtain ⟨hsplit, hfit⟩ := takeItem_fits htake
        have hshort : rest'.length ≤ fuel := by
          have hpos := List.length_pos_iff.mpr hfit.text_ne_nil
          have := congrArg List.length hsplit
          rw [List.length_append] at this
          omega
        have hne : flagged item ≠ [] := by
          intro hnil
          have := congrArg (List.map Prod.fst) hnil
          rw [map_fst_flagged] at this
          exact hfit.text_ne_nil this
        by_cases hspace : item.isSpace = true
        · rw [if_pos hspace, ih rest' _ _ _ hshort]
          simp only [collapseFrom, if_pos hspace]
        · rw [if_neg hspace, ih rest' _ _ _ hshort]
          have hstarted : (!(flushWhitespace output pending ++ flagged item).isEmpty) = true := by
            simp [hne]
          rw [hstarted]
          simp only [collapseFrom, if_neg hspace, flushWhitespace]
          by_cases hflush : (pending && !output.isEmpty) = true
          · rw [if_pos hflush]
            simp [emit, flaggedAll, flagged, hflush]
          · rw [if_neg hflush]
            simp only [if_neg hflush]
            simp [flaggedAll]
      constructor
      · intro h
        obtain ⟨item, rest', htake, hrest⟩ := h
        obtain ⟨items, hreads, rfl⟩ := (hround item rest' htake).mp hrest
        exact ⟨item :: items, .cons htake hreads, rfl⟩
      · intro h
        obtain ⟨items, hreads, heq⟩ := h
        cases hreads with
        | cons htake hrest => exact ⟨_, _, htake, (hround _ _ htake).mpr ⟨_, hrest, heq⟩⟩

theorem scanSchemaSql_ok {sql : List Char} {out : Output} : scanSchemaSql sql = .ok out ↔
    (sql ≠ [] ∧ sql.length ≤ maxSchemaSqlLength) ∧
      ∃ items, Reads sql items ∧ out = flaggedAll (collapse items) := by
  rw [scanSchemaSql]
  by_cases hbad : sql = [] ∨ sql.length > maxSchemaSqlLength
  · rw [if_pos hbad]
    constructor
    · exact fun h => nomatch h
    · intro h
      rcases hbad with hnil | hlong
      · exact absurd hnil h.1.1
      · exact absurd h.1.2 (by omega)
  · rw [if_neg hbad, scanLoop_spec _ _ _ _ _ (Nat.le_refl _)]
    rw [not_or, Nat.not_lt] at hbad
    exact ⟨fun h => ⟨hbad, h⟩, fun h => h.2⟩

/-! ## Trimming -/

def trimItems (items : List Item) : List Item := (items.reverse.dropWhile Item.isSpace).reverse

/-- What is left of the collapsed items once the end is trimmed. -/
def trimmedItems (items : List Item) : List Item :=
  if items.getLast? = some (.plain ';') then trimItems items.dropLast else items

theorem popWhitespace_concat (output : Output) (p : Char × Bool) :
    popWhitespace (output ++ [p]) =
      if p.2 && isTokenSpace p.1 then popWhitespace output else output ++ [p] := by
  rw [popWhitespace, List.reverse_concat, List.dropWhile_cons]
  split
  · rfl
  · simp

theorem trimItems_concat (items : List Item) (item : Item) :
    trimItems (items ++ [item]) = if item.isSpace then trimItems items else items ++ [item] := by
  rw [trimItems, List.reverse_concat, List.dropWhile_cons]
  split
  · rfl
  · simp

theorem fits_last {items : List Item} {item : Item} (h : AllFit (items ++ [item])) : Fits item none := by
  induction items with
  | nil => exact h.1
  | cons first items ih => exact ih h.2

/-- The last flagged character is of the last item. -/
theorem flagged_last {item : Item} (h : Fits item none) : ∃ before c, flagged item =
    before ++ [(c, match item with | .solid _ => false | _ => true)] ∧
      (∀ d, item = .space d ∨ item = .plain d → d = c ∧ before = []) := by
  cases item with
  | space c => exact ⟨[], c, rfl, by simp [eq_comm]⟩
  | plain c => exact ⟨[], c, rfl, by simp [eq_comm]⟩
  | solid text =>
    obtain ⟨before, c, rfl⟩ := (List.eq_nil_or_concat text).resolve_left h.text_ne_nil
    exact ⟨before.map fun c => (c, false), c, by simp [flagged], by simp⟩

/-- **Popping white space** pops the white space items. -/
theorem popWhitespace_flagged {items : List Item} (h : AllFit items) :
    popWhitespace (flaggedAll items) = flaggedAll (trimItems items) := by
  induction items using List.reverseRecOn with
  | nil => rfl
  | append_singleton items item ih =>
    obtain ⟨before, c, hflagged, hone⟩ := flagged_last (fits_last h)
    have hall : flaggedAll (items ++ [item]) = flaggedAll items ++ flagged item := by
      rw [flaggedAll_append]
      simp [flaggedAll]
    rw [hall, hflagged, ← List.append_assoc, popWhitespace_concat, trimItems_concat]
    cases item with
    | space d =>
      obtain ⟨rfl, rfl⟩ := hone d (.inl rfl)
      have hspace : isTokenSpace d = true := fits_last h
      have hitem : (Item.space d).isSpace = true := rfl
      rw [if_pos (by simp [hspace]), if_pos hitem, List.append_nil, ih h.of_append]
    | plain d =>
      obtain ⟨rfl, rfl⟩ := hone d (.inr rfl)
      have hspace : isTokenSpace d = false := (fits_last h).1
      rw [if_neg (by simp [hspace]), if_neg (by simp [Item.isSpace]), hall, hflagged,
        List.append_assoc]
    | solid text =>
      rw [if_neg (by simp), if_neg (by simp [Item.isSpace]), hall, hflagged, List.append_assoc]

/-- Collapsed items do not end with white space. -/
theorem collapseFrom_last (items : List Item) : ∀ started pending,
    collapseFrom started pending items = [] ∨ ∃ before item,
      collapseFrom started pending items = before ++ [item] ∧ item.isSpace = false := by
  induction items with
  | nil => exact fun _ _ => .inl rfl
  | cons item items ih =>
    intro started pending
    rw [collapseFrom]
    split
    · exact ih started started
    next hspace =>
      have hlast : ∃ before last, item :: collapseFrom true false items = before ++ [last] ∧
          last.isSpace = false := by
        rcases ih true false with hnil | ⟨before, last, heq, hlast⟩
        · exact ⟨[], item, by rw [hnil]; rfl, by simpa using hspace⟩
        · exact ⟨item :: before, last, by rw [heq]; rfl, hlast⟩
      obtain ⟨before, last, heq, hlast⟩ := hlast
      split
      · exact .inr ⟨.space ' ' :: before, last, by rw [heq]; rfl, hlast⟩
      · exact .inr ⟨before, last, heq, hlast⟩

/-- **What the trimming does** to collapsed items. -/
theorem trimSchemaSql_flagged {items : List Item} (h : AllFit (collapse items)) :
    trimSchemaSql (flaggedAll (collapse items)) = flaggedAll (trimmedItems (collapse items)) := by
  rw [trimSchemaSql, popWhitespace_flagged h, trimmedItems]
  rcases collapseFrom_last items false false with hnil | ⟨before, item, heq, hitem⟩
  · rw [collapse, hnil]
    rfl
  · rw [collapse, heq] at h ⊢
    have hkeep : trimItems (before ++ [item]) = before ++ [item] := by
      rw [trimItems_concat, if_neg (by simp [hitem])]
    rw [hkeep, List.getLast?_concat]
    obtain ⟨init, c, hflagged, hone⟩ := flagged_last (fits_last h)
    have hall : flaggedAll (before ++ [item]) = flaggedAll before ++ flagged item := by
      rw [flaggedAll_append]
      simp [flaggedAll]
    have hlast : (flaggedAll (before ++ [item])).getLast? = some (';', true) ↔
        some item = some (.plain ';') := by
      rw [hall, hflagged, ← List.append_assoc, List.getLast?_concat]
      cases item with
      | space d => cases hitem
      | plain d =>
        obtain ⟨rfl, -⟩ := hone d (.inr rfl)
        simp
      | solid text => simp
    by_cases hsemi : some item = some (.plain ';')
    · rw [if_pos (hlast.mpr hsemi), if_pos hsemi]
      obtain rfl := Option.some.inj hsemi
      have hdrop : (flaggedAll (before ++ [.plain ';'])).dropLast = flaggedAll before := by
        rw [flaggedAll_append]
        exact List.dropLast_concat
      rw [hdrop, List.dropLast_concat, popWhitespace_flagged h.of_append]
    · rw [if_neg (fun hc => hsemi (hlast.mp hc)), if_neg hsemi]

theorem allFit_trimmed {items : List Item} (h : AllFit items) : AllFit (trimmedItems items) := by
  rw [trimmedItems]
  split
  · have hdrop : AllFit items.dropLast := by
      rcases List.eq_nil_or_concat items with rfl | ⟨before, last, rfl⟩
      · exact trivial
      · rw [List.concat_eq_append, List.dropLast_concat]
        rw [List.concat_eq_append] at h
        exact h.of_append
    have hsplit := @List.takeWhile_append_dropWhile _ Item.isSpace items.dropLast.reverse
    have hback : items.dropLast = trimItems items.dropLast ++
        (items.dropLast.reverse.takeWhile Item.isSpace).reverse := by
      rw [trimItems, ← List.reverse_append, hsplit, List.reverse_reverse]
    rw [hback] at hdrop
    exact hdrop.of_append
  · exact h

theorem render_eq_nil {items : List Item} (h : AllFit items) : render items = [] ↔ items = [] := by
  cases items with
  | nil => simp [render]
  | cons item items =>
    rw [render_cons]
    simp [h.1.text_ne_nil]

section Canonical

variable {alnum : Char → Bool}

/-- **What is canonicalized**, and to what. -/
theorem canonicalize_ok {sql c : List Char} : canonicalizeBackupSchemaSql alnum sql = .ok c ↔
    (sql ≠ [] ∧ sql.length ≤ maxSchemaSqlLength) ∧ ∃ items, Reads sql items ∧
      trimmedItems (collapse items) ≠ [] ∧
        c = removeClause alnum (render (trimmedItems (collapse items))) := by
  have hrun : ∀ items, Reads sql items →
      (trimSchemaSql (flaggedAll (collapse items))).map Prod.fst =
        render (trimmedItems (collapse items)) ∧
      (render (trimmedItems (collapse items)) = [] ↔ trimmedItems (collapse items) = []) := by
    intro items hreads
    have hall := fits_collapseFrom (reads_iff.mp hreads).2 false false
    exact ⟨by rw [trimSchemaSql_flagged hall, map_fst_flaggedAll],
      render_eq_nil (allFit_trimmed hall)⟩
  rw [canonicalizeBackupSchemaSql]
  constructor
  · intro h
    cases hscan : scanSchemaSql sql with
    | error e =>
      rw [hscan] at h
      cases h
    | ok out =>
      obtain ⟨hlen, items, hreads, rfl⟩ := scanSchemaSql_ok.mp hscan
      rw [hscan] at h
      simp only [bind, Except.bind] at h
      obtain ⟨htext, hnil⟩ := hrun items hreads
      rw [htext] at h
      split at h
      · cases h
      next hne => exact ⟨hlen, items, hreads, fun heq => hne (hnil.mpr heq), (Except.ok.inj h).symm⟩
  · intro h
    obtain ⟨hlen, items, hreads, hne, rfl⟩ := h
    obtain ⟨htext, hnil⟩ := hrun items hreads
    rw [scanSchemaSql_ok.mpr ⟨hlen, items, hreads, rfl⟩]
    simp only [bind, Except.bind]
    rw [htext, if_neg (fun heq => hne (hnil.mp heq))]

end Canonical

/-! ## The clause -/

section Clause

open Migrations (keyword ignoreCase)

theorem keyword_ok {word : String} {text rest : List Char} (h : keyword word text = some rest) :
    ∃ w, text = w ++ rest ∧ w.map ignoreCase = word.toList := by
  rw [keyword] at h
  split at h
  next heq =>
    cases h
    exact ⟨text.take word.length, (List.take_append_drop _ _).symm, heq⟩
  next => cases h

/-- A character that is a letter or a space once case is ignored opens no
region and no comment. -/
theorem ordinary_of_ignoreCase {c : Char} (h : (ignoreCase c).isLower = true ∨ ignoreCase c = ' ') :
    Ordinary c := by
  refine ⟨?_, ?_, ?_⟩
  · rw [closing]
    split
    next hc =>
      rcases hc with rfl | rfl | rfl <;> exact absurd h (by decide)
    next =>
      split
      next hc =>
        subst hc
        exact absurd h (by decide)
      next => rfl
  · rintro rfl
    exact absurd h (by decide)
  · rintro rfl
    exact absurd h (by decide)

/-- The first group and the clause, by their words. -/
structure Matched (head clause : List Char) : Prop where
  parts : ∃ create unique kind, head = create ++ unique ++ kind ∧
    create.map ignoreCase = "create".toList ∧
    (unique = [] ∨ unique.map ignoreCase = " unique".toList) ∧
    (∃ word ∈ [" table", " index", " trigger", " view"], kind.map ignoreCase = word.toList) ∧
    clause.map ignoreCase = " if not exists".toList

/-- **What is matched**, and where it stands. -/
theorem clauseMatch_ok {alnum : Char → Bool} {text head after : List Char}
    (h : clauseMatch alnum text = some (head, after)) :
    ∃ clause, text = head ++ clause ++ after ∧ Matched head clause ∧ atWordEnd alnum after = true := by
  rw [clauseMatch] at h
  obtain ⟨afterCreate, hcreate, h⟩ := Option.bind_eq_some_iff.mp h
  obtain ⟨rest, hkind, h⟩ := Option.bind_eq_some_iff.mp h
  obtain ⟨after', hclause, h⟩ := Option.bind_eq_some_iff.mp h
  obtain ⟨create, rfl, hcreate'⟩ := keyword_ok hcreate
  obtain ⟨clause, rfl, hclause'⟩ := keyword_ok hclause
  have hunique : ∃ unique, afterCreate = unique ++ afterUnique afterCreate ∧
      (unique = [] ∨ unique.map ignoreCase = " unique".toList) := by
    rw [afterUnique]
    cases hu : keyword " unique" afterCreate with
    | none => exact ⟨[], rfl, .inl rfl⟩
    | some rest =>
      obtain ⟨unique, rfl, hunique'⟩ := keyword_ok hu
      exact ⟨unique, rfl, .inr hunique'⟩
  obtain ⟨unique, hsplit, hunique'⟩ := hunique
  obtain ⟨word, hword, hfound⟩ := List.exists_of_findSome?_eq_some hkind
  obtain ⟨kind, hkind', hkindText⟩ := keyword_ok hfound
  split at h
  next hend =>
    cases h
    have htext : create ++ afterCreate = (create ++ unique ++ kind) ++ (clause ++ after) := by
      rw [hsplit, hkind']
      simp
    have htake : (create ++ afterCreate).take
        ((create ++ afterCreate).length - (clause ++ after).length) = create ++ unique ++ kind := by
      rw [htext, List.length_append, Nat.add_sub_cancel, List.take_left]
    refine ⟨clause, ?_, ?_, hend⟩
    · rw [htake, htext]
      simp
    · rw [htake]
      exact ⟨create, unique, kind, rfl, hcreate', hunique', ⟨word, hword, hkindText⟩, hclause'⟩
  next => cases h

/-- The words of the match hold letters and spaces. -/
theorem Matched.ordinary {head clause : List Char} (h : Matched head clause) :
    ∀ c ∈ head ++ clause, Ordinary c := by
  obtain ⟨create, unique, kind, rfl, hcreate, hunique, ⟨word, hword, hkind⟩, hclause⟩ := h.parts
  have hwords : ∀ (w : List Char) (word : String), w.map ignoreCase = word.toList →
      (∀ d ∈ word.toList, d.isLower = true ∨ d = ' ') → ∀ c ∈ w, Ordinary c := by
    intro w word hw hletters c hc
    exact ordinary_of_ignoreCase (hletters _ (hw ▸ List.mem_map_of_mem hc))
  intro c hc
  simp only [List.mem_append] at hc
  rcases hc with ((hc | hc) | hc) | hc
  · exact hwords _ _ hcreate (by decide) c hc
  · rcases hunique with rfl | hunique
    · cases hc
    · exact hwords _ _ hunique (by decide) c hc
  · refine hwords _ _ hkind ?_ c hc
    have hall : ∀ word ∈ [" table", " index", " trigger", " view"],
        ∀ d ∈ word.toList, d.isLower = true ∨ d = ' ' := by decide
    exact hall word hword
  · exact hwords _ _ hclause (by decide) c hc

end Clause

/-! ## Tokens -/

/-- A word, in any case. -/
def Spells (w : List Char) (word : String) : Prop := w.map Char.toLower = word.toList

section Tokens

variable {τ : Type} (L : Lexer τ)

/-- The tokens of `CREATE`, an optional `UNIQUE` and the kind of object. -/
def IsHead (head : List τ) : Prop :=
  ∃ create kind, Spells create "create" ∧
    (∃ word ∈ ["table", "index", "trigger", "view"], Spells kind word) ∧
    (head = [L.word create, L.word kind] ∨
      ∃ unique, Spells unique "unique" ∧ head = [L.word create, L.word unique, L.word kind])

/-- The tokens of `IF NOT EXISTS`. -/
def IsClause (clause : List τ) : Prop :=
  ∃ i n e, Spells i "if" ∧ Spells n "not" ∧ Spells e "exists" ∧
    clause = [L.word i, L.word n, L.word e]

/-- The tokens, but for one `IF NOT EXISTS` directly after `CREATE [UNIQUE]
kind` and one semicolon at the end. -/
def UpTo (core tokens : List τ) : Prop :=
  ∃ head clause rest semi, core = head ++ rest ∧ tokens = head ++ clause ++ rest ++ semi ∧
    (clause = [] ∨ IsHead L head ∧ IsClause L clause) ∧ (semi = [] ∨ semi = [L.semicolon])

theorem tokens_trim (items : List Item) : L.tokens (trimItems items) = L.tokens items := by
  induction items using List.reverseRecOn with
  | nil => rfl
  | append_singleton items item ih =>
    rw [trimItems_concat]
    split
    next hspace =>
      rw [ih, Lexer.tokens, Lexer.tokens, chunks, chunks, chunksFrom_space hspace]
    next => rfl

/-- **Trimming** drops a semicolon at most. -/
theorem tokens_trimmed (items : List Item) : ∃ semi,
    L.tokens items = L.tokens (trimmedItems items) ++ semi ∧ (semi = [] ∨ semi = [L.semicolon]) := by
  rw [trimmedItems]
  split
  next hlast =>
    rcases List.eq_nil_or_concat items with rfl | ⟨before, last, rfl⟩
    · cases hlast
    · rw [List.concat_eq_append, List.getLast?_concat] at hlast
      obtain rfl := Option.some.inj hlast
      refine ⟨[L.semicolon], ?_, .inr rfl⟩
      rw [List.concat_eq_append, List.dropLast_concat, tokens_trim, L.tokens_semicolon]
  next => exact ⟨[], by rw [List.append_nil], .inl rfl⟩

theorem isAlpha_of_toLower {c : Char} (h : c.toLower.isLower = true) : c.isAlpha = true := by
  by_cases hupper : c.isUpper = true
  · simp [Char.isAlpha, hupper]
  · have hsame : c.toLower = c := by
      simp only [Char.isUpper, Bool.and_eq_true, decide_eq_true_eq] at hupper
      rw [Char.toLower, dif_neg hupper]
    rw [hsame] at h
    simp [Char.isAlpha, h]

/-- A spelled word and what it is read as. -/
theorem Spells.word {w : List Char} {word : String} (h : Spells w word)
    (hword : ∀ c ∈ word.toList, c.isLower = true) :
    (∀ c ∈ w, c.isAlpha = true) ∧ w.length = word.toList.length := by
  refine ⟨fun c hc => isAlpha_of_toLower (hword _ (h ▸ List.mem_map_of_mem hc)), ?_⟩
  have := congrArg List.length h
  rwa [List.length_map] at this

theorem itemOf_alpha {w : List Char} (h : ∀ c ∈ w, c.isAlpha = true) :
    w.map itemOf = w.map .plain := by
  apply List.map_congr_left
  intro c hc
  have halpha := h c hc
  have hspace : isTokenSpace c = false := by
    rw [isTokenSpace]
    by_contra hne
    simp only [Bool.not_eq_false, Bool.or_eq_true, decide_eq_true_eq] at hne
    rcases hne with (((rfl | rfl) | rfl) | rfl) | rfl <;> revert halpha <;> decide
  rw [itemOf, if_neg (by simp [hspace])]

/-- **A spelled word before a space** is one token. -/
theorem tokens_spelled {w : List Char} {word : String} (h : Spells w word)
    (hword : ∀ c ∈ word.toList, c.isLower = true) (hlen : 2 ≤ word.toList.length) {rest : List Item}
    (hend : EndsWord rest) : L.tokens (w.map itemOf ++ rest) = L.word w :: L.tokens rest := by
  obtain ⟨halpha, hlength⟩ := h.word hword
  rw [itemOf_alpha halpha, L.tokens_word (by omega) halpha hend]

end Tokens

/-! ## The tokens of the canonical form -/

section Standard

variable {alnum : Char → Bool}

/-- The clause the code finds, if any, is one to SQLite: its words are ASCII,
and the last of them is not the beginning of a longer identifier. -/
def StandardClause (alnum : Char → Bool) (sql : List Char) : Prop :=
  ∀ items head clause after, Reads sql items →
    render (trimmedItems (collapse items)) = head ++ clause ++ after →
    clauseMatch alnum (render (trimmedItems (collapse items))) = some (head, after) →
      (∀ c ∈ head ++ clause, c.toNat < 128) ∧ ∀ c, after.head? = some c → isIdentifierChar c = false

theorem ignoreCase_ascii {c : Char} (h : c.toNat < 128) : Migrations.ignoreCase c = c.toLower := by
  have hother : ∀ n : UInt32, 128 ≤ n.toNat → c.val ≠ n := by
    intro n hn heq
    have : c.toNat = n.toNat := congrArg UInt32.toNat heq
    omega
  rw [Migrations.ignoreCase, if_neg, if_neg (hother _ (by decide)), if_neg (hother _ (by decide))]
  rintro (heq | heq)
  · exact hother _ (by decide) heq
  · exact hother _ (by decide) heq

theorem toLower_space {c : Char} (hascii : c.toNat < 128) (h : c.toLower = ' ') : c = ' ' := by
  have hall : ∀ n < 128, (Char.ofNat n).toLower = ' ' → Char.ofNat n = ' ' := by decide
  have := hall c.toNat hascii
  rw [Char.ofNat_toNat] at this
  exact this h

/-- A word after a space. -/
theorem spells_space {w : List Char} (hascii : ∀ c ∈ w, c.toNat < 128) {tail : List Char}
    (h : w.map Char.toLower = ' ' :: tail) : ∃ w', w = ' ' :: w' ∧ w'.map Char.toLower = tail := by
  obtain ⟨c, w', rfl, hc, htail⟩ := List.map_eq_cons_iff.mp h
  rw [toLower_space (hascii c List.mem_cons_self) hc]
  exact ⟨w', rfl, htail⟩

/-- The words of the match, in ASCII. -/
theorem Matched.spelled {head clause : List Char} (h : Matched head clause)
    (hascii : ∀ c ∈ head ++ clause, c.toNat < 128) :
    ∃ create unique kind i n e, Spells create "create" ∧
      (unique = [] ∨ ∃ u, unique = ' ' :: u ∧ Spells u "unique") ∧
      (∃ word ∈ ["table", "index", "trigger", "view"], Spells kind word) ∧
      Spells i "if" ∧ Spells n "not" ∧ Spells e "exists" ∧
      head = create ++ unique ++ ' ' :: kind ∧ clause = ' ' :: i ++ ' ' :: n ++ ' ' :: e := by
  obtain ⟨create, unique, kind, rfl, hcreate, hunique, ⟨word, hword, hkind⟩, hclause⟩ := h.parts
  have hlower : ∀ {w : List Char} {text : List Char}, (∀ c ∈ w, c.toNat < 128) →
      w.map Migrations.ignoreCase = text → w.map Char.toLower = text := by
    intro w text hw heq
    rw [← heq]
    exact List.map_congr_left fun c hc => (ignoreCase_ascii (hw c hc)).symm
  simp only [List.mem_append] at hascii
  have hcreate' := hlower (fun c hc => hascii c (.inl (.inl (.inl hc)))) hcreate
  have hkind' := hlower (fun c hc => hascii c (.inl (.inr hc))) hkind
  have hclause' := hlower (fun c hc => hascii c (.inr hc)) hclause
  obtain ⟨kind', rfl, hkindWord⟩ : ∃ kind', kind = ' ' :: kind' ∧
      ∃ word ∈ ["table", "index", "trigger", "view"], Spells kind' word := by
    have hsplit : ∃ word' ∈ ["table", "index", "trigger", "view"],
        word.toList = ' ' :: word'.toList := by
      have hall : ∀ word ∈ [" table", " index", " trigger", " view"],
          ∃ word' ∈ ["table", "index", "trigger", "view"], word.toList = ' ' :: word'.toList := by
        decide
      exact hall word hword
    obtain ⟨word', hword', heq⟩ := hsplit
    rw [heq] at hkind'
    obtain ⟨kind', rfl, hspelled⟩ := spells_space (fun c hc => hascii c (.inl (.inr hc))) hkind'
    exact ⟨kind', rfl, word', hword', hspelled⟩
  have hunique' : unique = [] ∨ ∃ u, unique = ' ' :: u ∧ Spells u "unique" := by
    rcases hunique with hnil | hunique
    · exact .inl hnil
    · have huniqueAscii : ∀ c ∈ unique, c.toNat < 128 := fun c hc => hascii c (.inl (.inl (.inr hc)))
      exact .inr (spells_space huniqueAscii (hlower huniqueAscii hunique))
  -- The clause is three words, each after a space.
  have hclauseAscii : ∀ c ∈ clause, c.toNat < 128 := fun c hc => hascii c (.inr hc)
  obtain ⟨rest₁, rfl, hrest₁⟩ := @spells_space clause hclauseAscii
    ("if".toList ++ (' ' :: ("not".toList ++ ' ' :: "exists".toList))) hclause'
  obtain ⟨i, rest₂, rfl, hi, hrest₂⟩ := List.map_eq_append_iff.mp hrest₁
  obtain ⟨rest₃, rfl, hrest₃⟩ := spells_space (fun c hc => hclauseAscii c (by simp [hc])) hrest₂
  obtain ⟨n, rest₄, rfl, hn, hrest₄⟩ := List.map_eq_append_iff.mp hrest₃
  obtain ⟨e, rfl, he⟩ := spells_space (fun c hc => hclauseAscii c (by simp [hc])) hrest₄
  exact ⟨create, unique, kind', i, n, e, hcreate', hunique', hkindWord, hi, hn, he, rfl, by simp⟩

/-- A word after a space is one token. -/
theorem tokens_next {τ : Type} (L : Lexer τ) {w : List Char} {word : String} (h : Spells w word)
    (hword : ∀ c ∈ word.toList, c.isLower = true) (hlen : 2 ≤ word.toList.length) {rest : List Item}
    (hend : EndsWord rest) : L.tokens (.space ' ' :: (w.map itemOf ++ rest)) = L.word w :: L.tokens rest := by
  rw [L.tokens_space rfl, tokens_spelled L h hword hlen hend]

/-- **The tokens** of the canonical form are those of the text, but for one
clause and one semicolon. -/
theorem tokens_upTo {τ : Type} (L : Lexer τ) {sql c : List Char} {items : List Item}
    (hreads : Reads sql items) (hrun : canonicalizeBackupSchemaSql alnum sql = .ok c)
    (hclause : StandardClause alnum sql) :
    ∃ items', Reads c items' ∧ UpTo L (L.tokens items') (L.tokens items) := by
  obtain ⟨-, items₀, hreads₀, -, rfl⟩ := canonicalize_ok.mp hrun
  obtain rfl := hreads.unique hreads₀
  have hall := allFit_trimmed (fits_collapseFrom (reads_iff.mp hreads).2 false false)
  have htext : Reads (render (trimmedItems (collapse items))) (trimmedItems (collapse items)) :=
    reads_iff.mpr ⟨rfl, hall⟩
  obtain ⟨semi, hsemi, hsemi'⟩ := tokens_trimmed L (collapse items)
  rw [L.tokens_collapse] at hsemi
  rw [removeClause]
  cases hmatch : clauseMatch alnum (render (trimmedItems (collapse items))) with
  | none =>
    refine ⟨_, htext, L.tokens (trimmedItems (collapse items)), [], [], semi, by simp, ?_,
      .inl rfl, hsemi'⟩
    simpa using hsemi
  | some found =>
    obtain ⟨head, after⟩ := found
    obtain ⟨clause, hsplit, hmatched, -⟩ := clauseMatch_ok hmatch
    obtain ⟨hascii, hafter⟩ := hclause items head clause after hreads hsplit hmatch
    rw [hsplit] at htext
    obtain ⟨rest, hitems, hrest⟩ := (reads_ordinary hmatched.ordinary).mp htext
    have hend : EndsWord rest := by
      cases hrest with
      | nil => trivial
      | @cons _ tail item rest htake _ =>
        cases item with
        | plain d =>
          obtain ⟨htaken, -⟩ := takeItem_fits htake
          exact hafter d (by rw [htaken]; rfl)
        | space d => trivial
        | solid text => trivial
    obtain ⟨create, unique, kind, i, n, e, hcreate, hunique, ⟨word, hword, hkind⟩, hi, hn, he, rfl,
      rfl⟩ := hmatched.spelled hascii
    have hkindWord : (∀ c ∈ word.toList, c.isLower = true) ∧ 2 ≤ word.toList.length := by
      have hevery : ∀ word ∈ ["table", "index", "trigger", "view"],
          (∀ c ∈ word.toList, c.isLower = true) ∧ 2 ≤ word.toList.length := by decide
      exact hevery word hword
    have hspace : itemOf ' ' = .space ' ' := by decide
    have hspaceEnds : ∀ rest, EndsWord (.space ' ' :: rest) := fun _ => trivial
    -- The words before the clause, whatever follows them.
    have hhead : ∃ tokens, IsHead L tokens ∧ ∀ rest, EndsWord rest →
        L.tokens ((create ++ unique ++ ' ' :: kind).map itemOf ++ rest) = tokens ++ L.tokens rest := by
      rcases hunique with rfl | ⟨u, rfl, hu⟩
      · refine ⟨_, ⟨create, kind, hcreate, ⟨word, hword, hkind⟩, .inl rfl⟩, fun rest hrest => ?_⟩
        have hform : (create ++ [] ++ ' ' :: kind).map itemOf ++ rest =
            create.map itemOf ++ .space ' ' :: (kind.map itemOf ++ rest) := by simp [hspace]
        rw [hform, tokens_spelled L hcreate (by decide) (by decide) (hspaceEnds _),
          tokens_next L hkind hkindWord.1 hkindWord.2 hrest]
        rfl
      · refine ⟨_, ⟨create, kind, hcreate, ⟨word, hword, hkind⟩, .inr ⟨u, hu, rfl⟩⟩,
          fun rest hrest => ?_⟩
        have hform : (create ++ ' ' :: u ++ ' ' :: kind).map itemOf ++ rest =
            create.map itemOf ++
              .space ' ' :: (u.map itemOf ++ .space ' ' :: (kind.map itemOf ++ rest)) := by
          simp [hspace]
        rw [hform, tokens_spelled L hcreate (by decide) (by decide) (hspaceEnds _),
          tokens_next L hu (by decide) (by decide) (hspaceEnds _),
          tokens_next L hkind hkindWord.1 hkindWord.2 hrest]
        rfl
    obtain ⟨headTokens, hisHead, hheadTokens⟩ := hhead
    have hclauseForm : (' ' :: i ++ ' ' :: n ++ ' ' :: e).map itemOf ++ rest =
        .space ' ' :: (i.map itemOf ++
          .space ' ' :: (n.map itemOf ++ .space ' ' :: (e.map itemOf ++ rest))) := by
      simp [hspace]
    have hclauseTokens : L.tokens ((' ' :: i ++ ' ' :: n ++ ' ' :: e).map itemOf ++ rest) =
        [L.word i, L.word n, L.word e] ++ L.tokens rest := by
      rw [hclauseForm, tokens_next L hi (by decide) (by decide) (hspaceEnds _),
        tokens_next L hn (by decide) (by decide) (hspaceEnds _),
        tokens_next L he (by decide) (by decide) hend]
      rfl
    refine ⟨(create ++ unique ++ ' ' :: kind).map itemOf ++ rest, ?_, headTokens,
      [L.word i, L.word n, L.word e], L.tokens rest, semi, hheadTokens rest hend, ?_,
      .inr ⟨hisHead, i, n, e, hi, hn, he, rfl⟩, hsemi'⟩
    · refine (reads_ordinary fun c hc => ?_).mpr ⟨rest, rfl, hrest⟩
      exact hmatched.ordinary c (List.mem_append_left _ hc)
    · have hfollow : EndsWord ((' ' :: i ++ ' ' :: n ++ ' ' :: e).map itemOf ++ rest) := by
        rw [hclauseForm]
        trivial
      rw [hsemi, hitems, List.map_append, List.append_assoc, hheadTokens _ hfollow, hclauseTokens]
      simp

end Standard

/-! ## The canonical form, read again -/

section Again

variable {alnum : Char → Bool}

theorem endsSolid_concat {before : List Item} {last : Item} :
    EndsSolid (before ++ [last]) ↔ last.isSpace = false := by
  rw [EndsSolid, List.getLast?_concat]
  simp

theorem endsSolid_trimItems (items : List Item) : EndsSolid (trimItems items) := by
  induction items using List.reverseRecOn with
  | nil => exact fun _ h => nomatch h
  | append_singleton items item ih =>
    rw [trimItems_concat]
    split
    · exact ih
    next hspace => exact endsSolid_concat.mpr (by simpa using hspace)

theorem endsSolid_collapse (items : List Item) : EndsSolid (collapse items) := by
  rcases collapseFrom_last items false false with hnil | ⟨before, item, heq, hitem⟩
  · rw [collapse, hnil]
    exact fun _ h => nomatch h
  · rw [collapse, heq]
    exact endsSolid_concat.mpr hitem

/-- What the trimming leaves is the beginning of the items. -/
theorem trimmedItems_append (items : List Item) : ∃ cut, items = trimmedItems items ++ cut := by
  rw [trimmedItems]
  split
  next hlast =>
    rcases List.eq_nil_or_concat items with rfl | ⟨before, last, rfl⟩
    · cases hlast
    · rw [List.concat_eq_append, List.dropLast_concat]
      have hsplit := @List.takeWhile_append_dropWhile _ Item.isSpace before.reverse
      refine ⟨(before.reverse.takeWhile Item.isSpace).reverse ++ [last], ?_⟩
      rw [trimItems, ← List.append_assoc, ← List.reverse_append, hsplit, List.reverse_reverse]
  next => exact ⟨[], by rw [List.append_nil]⟩

theorem endsSolid_trimmed {items : List Item} (h : EndsSolid items) :
    EndsSolid (trimmedItems items) := by
  rw [trimmedItems]
  split
  · exact endsSolid_trimItems _
  · exact h

/-- A word that ends with a letter does not end with white space. -/
theorem ends_letter {w : List Char} {word : String} (h : w.map Migrations.ignoreCase = word.toList)
    (hword : word.toList.getLast?.any Char.isLower = true) :
    ∃ before c, w = before ++ [c] ∧ (itemOf c).isSpace = false := by
  obtain ⟨d, hd, hlower⟩ := (Option.any_eq_true _ _).mp hword
  rcases List.eq_nil_or_concat w with rfl | ⟨before, c, rfl⟩
  · rw [← h] at hd
    cases hd
  · rw [List.concat_eq_append, List.map_append] at h
    rw [← h, List.map_singleton, List.getLast?_concat] at hd
    obtain rfl := Option.some.inj hd
    refine ⟨before, c, List.concat_eq_append, ?_⟩
    have hspace : isTokenSpace c = false := by
      rw [isTokenSpace]
      by_contra hne
      simp only [Bool.not_eq_false, Bool.or_eq_true, decide_eq_true_eq] at hne
      rcases hne with (((rfl | rfl) | rfl) | rfl) | rfl <;> revert hlower <;> decide
    rw [itemOf, if_neg (by simp [hspace])]
    rfl

/-- The first group and the clause end with a letter. -/
theorem Matched.ends {head clause : List Char} (h : Matched head clause) :
    (∃ before c, head = before ++ [c] ∧ (itemOf c).isSpace = false) ∧
      ∃ before c, clause = before ++ [c] ∧ (itemOf c).isSpace = false := by
  obtain ⟨create, unique, kind, rfl, -, -, ⟨word, hword, hkind⟩, hclause⟩ := h.parts
  have hkinds : ∀ word ∈ [" table", " index", " trigger", " view"],
      word.toList.getLast?.any Char.isLower = true := by decide
  obtain ⟨before, c, rfl, hc⟩ := ends_letter hkind (hkinds word hword)
  exact ⟨⟨create ++ unique ++ before, c, by simp, hc⟩, ends_letter hclause (by decide)⟩

theorem Matched.clause_ne_nil {head clause : List Char} (h : Matched head clause) : clause ≠ [] := by
  obtain ⟨-, before, c, rfl, -⟩ := h.ends
  simp

/-- **The canonical form** is read as items that collapsing does not change,
and is no longer than the text. -/
theorem canonical_collapsed {sql c : List Char} (h : canonicalizeBackupSchemaSql alnum sql = .ok c) :
    (c ≠ [] ∧ c.length ≤ maxSchemaSqlLength) ∧ ∃ items, Reads c items ∧ collapse items = items := by
  obtain ⟨⟨-, hlen⟩, items, hreads, hne, rfl⟩ := canonicalize_ok.mp h
  obtain ⟨rfl, hfit⟩ := reads_iff.mp hreads
  have hall := allFit_trimmed (fits_collapseFrom hfit false false)
  have htext : Reads (render (trimmedItems (collapse items))) (trimmedItems (collapse items)) :=
    reads_iff.mpr ⟨rfl, hall⟩
  obtain ⟨cut, hcut⟩ := trimmedItems_append (collapse items)
  have hspaced : Spaced false (trimmedItems (collapse items)) := by
    have : Spaced false (collapse items) := spaced_collapseFrom items false false
    rw [hcut] at this
    exact this.of_append
  have hend := endsSolid_trimmed (endsSolid_collapse items)
  have hshort : (render (trimmedItems (collapse items))).length ≤ maxSchemaSqlLength := by
    have hcollapse := length_collapse items
    rw [hcut, render_append, List.length_append] at hcollapse
    omega
  rw [removeClause]
  cases hmatch : clauseMatch alnum (render (trimmedItems (collapse items))) with
  | none =>
    refine ⟨⟨fun hnil => hne ((render_eq_nil hall).mp hnil), hshort⟩, _, htext, ?_⟩
    exact collapse_spaced hspaced hend
  | some found =>
    obtain ⟨head, after⟩ := found
    obtain ⟨clause, hsplit, hmatched, -⟩ := clauseMatch_ok hmatch
    obtain ⟨⟨headInit, headLast, hhead, hheadLast⟩, clauseInit, clauseLast, hclause, hclauseLast⟩ :=
      hmatched.ends
    rw [hsplit] at htext hshort
    obtain ⟨rest, hitems, hrest⟩ := (reads_ordinary hmatched.ordinary).mp htext
    have hheadReads : Reads (head ++ after) (head.map itemOf ++ rest) :=
      (reads_ordinary fun c hc => hmatched.ordinary c (List.mem_append_left _ hc)).mpr ⟨rest, rfl, hrest⟩
    refine ⟨⟨by simp [hhead], ?_⟩, _, hheadReads, ?_⟩
    · simp only [List.length_append] at hshort ⊢
      omega
    · -- White space is as it was before the clause, and as it was after it.
      have hsplitItems : trimmedItems (collapse items) = headInit.map itemOf ++ [itemOf headLast] ++
          (clauseInit.map itemOf ++ [itemOf clauseLast] ++ rest) := by
        rw [hitems, hhead, hclause]
        simp
      have hheadItems : head.map itemOf = headInit.map itemOf ++ [itemOf headLast] := by
        rw [hhead]
        simp
      rw [hsplitItems] at hspaced hend
      obtain ⟨hbefore, hmiddle⟩ := (spaced_append hheadLast _ _ false).mp hspaced
      obtain ⟨-, hafter⟩ := (spaced_append hclauseLast _ _ true).mp hmiddle
      rw [hheadItems]
      refine collapse_spaced ((spaced_append hheadLast _ _ false).mpr ⟨hbefore, hafter⟩) ?_
      rcases List.eq_nil_or_concat rest with rfl | ⟨before, last, rfl⟩
      · rw [List.append_nil]
        exact endsSolid_concat.mpr hheadLast
      · rw [List.concat_eq_append, ← List.append_assoc] at hend ⊢
        rw [← List.append_assoc] at hend
        exact endsSolid_concat.mpr (endsSolid_concat.mp hend)

theorem length_removeClause (text : List Char) :
    (removeClause alnum text).length ≤ text.length ∧
      (removeClause alnum text = text ↔ clauseMatch alnum text = none) := by
  rw [removeClause]
  cases hmatch : clauseMatch alnum text with
  | none => simp
  | some found =>
    obtain ⟨head, after⟩ := found
    obtain ⟨clause, rfl, hmatched, -⟩ := clauseMatch_ok hmatch
    have hpos := List.length_pos_iff.mpr hmatched.clause_ne_nil
    refine ⟨by simp, fun heq => ?_, fun hnone => nomatch hnone⟩
    have := congrArg List.length heq
    simp only [List.length_append] at this
    omega

/-- Trimming changes nothing exactly if no semicolon is last. -/
theorem length_trimmed {items : List Item} (h : AllFit items) :
    (render (trimmedItems items)).length ≤ (render items).length ∧
      ((render (trimmedItems items)).length = (render items).length ↔
        items.getLast? ≠ some (.plain ';')) := by
  obtain ⟨cut, hcut⟩ := trimmedItems_append items
  have hlen : (render items).length = (render (trimmedItems items)).length + (render cut).length := by
    rw [← List.length_append, ← render_append, ← hcut]
  refine ⟨by omega, fun heq hlast => ?_, fun hlast => ?_⟩
  · rcases List.eq_nil_or_concat items with rfl | ⟨before, last, rfl⟩
    · cases hlast
    · rw [List.concat_eq_append] at *
      rw [List.getLast?_concat] at hlast
      obtain rfl := Option.some.inj hlast
      have htrim : trimmedItems (before ++ [.plain ';']) = trimItems before := by
        rw [trimmedItems, if_pos List.getLast?_concat, List.dropLast_concat]
      have hshort : (render (trimItems before)).length ≤ (render before).length := by
        have hsplit := @List.takeWhile_append_dropWhile _ Item.isSpace before.reverse
        have hback : before = trimItems before ++ (before.reverse.takeWhile Item.isSpace).reverse := by
          rw [trimItems, ← List.reverse_append, hsplit, List.reverse_reverse]
        have := congrArg (fun items => (render items).length) hback
        simp only [render_append, List.length_append] at this
        omega
      rw [htrim, render_append, List.length_append] at heq
      have hone : (render [Item.plain ';']).length = 1 := rfl
      omega
  · rw [trimmedItems, if_neg hlast]

/-- **A canonical form is its own** exactly if no semicolon ends it and no
clause begins it. -/
theorem canonical_fixed {sql c : List Char} (h : canonicalizeBackupSchemaSql alnum sql = .ok c) :
    canonicalizeBackupSchemaSql alnum c = .ok c ↔
      (¬∃ items, Reads c (items ++ [.plain ';'])) ∧ clauseMatch alnum c = none := by
  obtain ⟨hlen, items, hreads, hcollapse⟩ := canonical_collapsed h
  obtain ⟨hrender, hfit⟩ := reads_iff.mp hreads
  obtain ⟨htrimLe, htrim⟩ := length_trimmed hfit
  have hlast : (∃ items, Reads c (items ++ [.plain ';'])) ↔ items.getLast? = some (.plain ';') := by
    constructor
    · intro hexists
      obtain ⟨before, hbefore⟩ := hexists
      rw [hreads.unique hbefore, List.getLast?_concat]
    · intro hsemi
      obtain ⟨before, rfl⟩ := List.getLast?_eq_some_iff.mp hsemi
      exact ⟨before, hreads⟩
  rw [hlast, canonicalize_ok]
  constructor
  · intro hagain
    obtain ⟨-, items', hreads', -, heq⟩ := hagain
    obtain rfl := hreads.unique hreads'
    rw [hcollapse] at heq
    obtain ⟨hremoveLe, hremove⟩ := @length_removeClause alnum (render (trimmedItems items))
    have hlength := congrArg List.length heq
    have hrenderLength := congrArg List.length hrender
    have hnone := htrim.mp (by omega)
    have hsame : trimmedItems items = items := by rw [trimmedItems, if_neg hnone]
    rw [hsame, ← hrender] at heq
    exact ⟨hnone, (@length_removeClause alnum c).2.mp heq.symm⟩
  · intro hboth
    obtain ⟨hnone, hmatch⟩ := hboth
    have hsame : trimmedItems items = items := by rw [trimmedItems, if_neg hnone]
    refine ⟨hlen, items, hreads, ?_, ?_⟩
    · rw [hcollapse, hsame]
      rintro rfl
      exact hlen.1 hrender
    · rw [hcollapse, hsame, ← hrender]
      exact ((@length_removeClause alnum c).2.mpr hmatch).symm

end Again

/-! ## The laws -/

/-- **The canonical form of a definition.** Texts of one canonical form have
the same tokens and comments, however the stretches are divided into tokens,
but for one clause and one semicolon each; texts with the same stretches have
one canonical form; and a canonical form is its own exactly if no semicolon
ends it and no clause begins it. -/
theorem schema_sql_laws (alnum : Char → Bool) {τ : Type} (L : Lexer τ) :
    (∀ a b c, canonicalizeBackupSchemaSql alnum a = .ok c →
      canonicalizeBackupSchemaSql alnum b = .ok c →
      StandardClause alnum a → StandardClause alnum b →
        ∃ xs ys core, Reads a xs ∧ Reads b ys ∧
          UpTo L core (L.tokens xs) ∧ UpTo L core (L.tokens ys)) ∧
    (∀ a b xs ys c d, Reads a xs → Reads b ys → chunks xs = chunks ys →
      canonicalizeBackupSchemaSql alnum a = .ok c →
      canonicalizeBackupSchemaSql alnum b = .ok d → c = d) ∧
    (∀ a c, canonicalizeBackupSchemaSql alnum a = .ok c →
      (canonicalizeBackupSchemaSql alnum c = .ok c ↔
        (¬∃ items, Reads c (items ++ [.plain ';'])) ∧ clauseMatch alnum c = none)) := by
  refine ⟨?_, ?_, fun a c h => canonical_fixed h⟩
  · intro a b c ha hb haClause hbClause
    obtain ⟨-, xs, hxs, -⟩ := canonicalize_ok.mp ha
    obtain ⟨-, ys, hys, -⟩ := canonicalize_ok.mp hb
    obtain ⟨zs, hzs, haUpTo⟩ := tokens_upTo L hxs ha haClause
    obtain ⟨zs', hzs', hbUpTo⟩ := tokens_upTo L hys hb hbClause
    obtain rfl := hzs.unique hzs'
    exact ⟨xs, ys, L.tokens zs, hxs, hys, haUpTo, hbUpTo⟩
  · intro a b xs ys c d hxs hys hchunks ha hb
    obtain ⟨-, xs', hxs', -, rfl⟩ := canonicalize_ok.mp ha
    obtain ⟨-, ys', hys', -, rfl⟩ := canonicalize_ok.mp hb
    obtain rfl := hxs.unique hxs'
    obtain rfl := hys.unique hys'
    rw [collapse_eq_of_chunks hchunks]

/-- To SQLite the last word is `EXISTS$x`. -/
def longIdentifier : List Char := "CREATE TABLE IF NOT EXISTS$x".toList

def withoutClause : List Char := "CREATE TABLE$x".toList

/-- A text of ordinary characters is read one by one. -/
theorem reads_map_itemOf {text : List Char} (h : ∀ c ∈ text, Ordinary c) :
    Reads text (text.map itemOf) := by
  have := (@reads_ordinary text [] h (text.map itemOf)).mpr ⟨[], by simp, .nil⟩
  rwa [List.append_nil] at this

theorem upTo_length {τ : Type} {L : Lexer τ} {core tokens : List τ} (h : UpTo L core tokens) :
    core.length ≤ tokens.length ∧ (tokens.length ≤ core.length + 1 ∨
      ∃ head clause rest, tokens = head ++ clause ++ rest ∧ IsHead L head ∧ IsClause L clause) := by
  obtain ⟨head, clause, rest, semi, rfl, rfl, hclause, hsemi⟩ := h
  have hsemiLength : semi.length ≤ 1 := by
    rcases hsemi with rfl | rfl <;> simp
  refine ⟨by simp only [List.length_append]; omega, ?_⟩
  rcases hclause with rfl | ⟨hhead, hclause⟩
  · refine .inl ?_
    simp only [List.length_append, List.length_nil]
    omega
  · exact .inr ⟨head, clause, rest ++ semi, by simp, hhead, hclause⟩

/-- **What the canonical form does not do.** A second semicolon is dropped in a
second round only; and an identifier that begins with `EXISTS` is cut in two,
so that texts of different tokens have one canonical form. -/
theorem canonical_form_limits :
    (canonicalizeBackupSchemaSql (fun _ => false) "x;;".toList = .ok "x;".toList ∧
      canonicalizeBackupSchemaSql (fun _ => false) "x;".toList = .ok "x".toList) ∧
    canonicalizeBackupSchemaSql (fun _ => false) longIdentifier = .ok withoutClause ∧
    canonicalizeBackupSchemaSql (fun _ => false) withoutClause = .ok withoutClause ∧
    ∃ xs ys, Reads longIdentifier xs ∧ Reads withoutClause ys ∧
      ¬∃ core, UpTo identifierLexer core (identifierLexer.tokens xs) ∧
        UpTo identifierLexer core (identifierLexer.tokens ys) := by
  refine ⟨by decide, by decide +kernel, by decide +kernel, longIdentifier.map itemOf,
    withoutClause.map itemOf, reads_map_itemOf (by decide), reads_map_itemOf (by decide), ?_⟩
  have hlong : identifierLexer.tokens (longIdentifier.map itemOf) =
      ["CREATE", "TABLE", "IF", "NOT", "EXISTS$x"].map fun w => w.toList.map .plain := by
    decide +kernel
  have hwithout : identifierLexer.tokens (withoutClause.map itemOf) =
      ["CREATE", "TABLE$x"].map fun w => w.toList.map .plain := by
    decide +kernel
  rw [hlong, hwithout]
  intro h
  obtain ⟨core, hcoreLong, hcore⟩ := h
  have hshort := (upTo_length hcore).1
  rcases (upTo_length hcoreLong).2 with hlength | ⟨head, clause, rest, heq, hhead, hclause⟩
  · simp only [List.length_map, List.length_cons, List.length_nil] at hshort hlength
    omega
  · -- Three words after `CREATE TABLE`: the last of them has eight characters.
    obtain ⟨i, n, e, -, -, he, rfl⟩ := hclause
    have hsix : e.length = 6 := (he.word (by decide)).2
    have htokens := congrArg List.length heq
    obtain ⟨create, kind, -, -, rfl | ⟨unique, -, rfl⟩⟩ := hhead
    · obtain rfl : rest = [] := by
        apply List.eq_nil_of_length_eq_zero
        simp only [List.length_map, List.length_append, List.length_cons, List.length_nil] at htokens
        omega
      have hlast := congrArg List.getLast? heq
      simp only [List.map_cons, List.map_nil, List.append_nil, List.getLast?_append,
        List.getLast?_cons_cons, List.getLast?_singleton, Option.some_or, Option.some.injEq] at hlast
      have hword : identifierLexer.word e = e.map Item.plain := rfl
      have hlastLength := congrArg List.length hlast
      rw [hword, List.length_map, List.length_map, hsix] at hlastLength
      exact absurd hlastLength (by decide)
    · simp only [List.length_map, List.length_append, List.length_cons, List.length_nil] at htokens
      omega

end QuantumEntanglement.Backup
