import QuantumEntanglement.Lib.GreedyFill
import QuantumEntanglement.Lib.PyValues
import QuantumEntanglement.Lib.Sha256

/-
  The context compiler — which inputs an agent is given, within a budget

  Items are put in priority order and taken while they fit. The order is
  total on items with distinct ids, and required items come first, so a
  required item is left out only where all of them together do not fit, and
  that is refused beforehand.

  A digest is taken of the chosen items, metadata included, and metadata may
  hold anything: an object JSON has no form for is met only there, after the
  choice (`unencodable_metadata`).

  What is proved:
    1. `compile_items` — the choice: within the budget, every required item,
       each item decided at its turn, and the same for any order of the list.
    2. `compile_fails` — when nothing is compiled.

  The keys of a dict inside the metadata are texts.
-/

namespace QuantumEntanglement

open PyText PyJson

/-! ## Items -/

structure ContextItem where
  itemId : String
  category : String
  content : String
  required : Bool
  relevance : Value
  provenance : String
  metadata : List (String × Value)
  named : (isBlank itemId || isBlank category) = false
  relevant : inUnit relevance = true
  deriving DecidableEq

namespace ContextItem

variable (item : ContextItem)

/-- Four bytes to a token, and at least one. -/
def estimatedTokens : Int := max 1 ((item.content.utf8ByteSize + 3) / 4)

def toDict : Value :=
  .dict
    [("itemId", .str item.itemId), ("category", .str item.category), ("content", .str item.content),
      ("required", .bool item.required), ("relevance", item.relevance),
      ("provenance", .str item.provenance), ("estimatedTokens", .int item.estimatedTokens),
      ("metadata", .dict item.metadata)]

def relevanceNumber : Rat := (numberOf item.relevance).getD 0

theorem estimatedTokens_nonneg : 0 ≤ item.estimatedTokens := by
  unfold estimatedTokens
  omega

end ContextItem

/-! ## `json.dumps` with its default separators -/

/-- What compiling raises. -/
inductive CompileError where
  | valueError (message : String)
  | contextBudget (message : String)
  | typeError (message : String)
  deriving DecidableEq

mutual

/-- `json.dumps(value, ensure_ascii=False)` of a value in key order. `nan` and
the infinities have a form here. -/
def spaced : Value → Except CompileError (List Char)
  | .null => .ok ['n', 'u', 'l', 'l']
  | .bool true => .ok ['t', 'r', 'u', 'e']
  | .bool false => .ok ['f', 'a', 'l', 's', 'e']
  | .int n => .ok (intText n)
  | .float x => .ok x.text
  | .nonFinite => .ok ['N', 'a', 'N']
  | .str s => .ok (renderString s)
  | .list items => (spacedItems true items).map (fun inner => '[' :: (inner ++ [']']))
  | .tuple items => (spacedItems true items).map (fun inner => '[' :: (inner ++ [']']))
  | .dict pairs => (spacedPairs true pairs).map (fun inner => '{' :: (inner ++ ['}']))
  | .backReference => .error (.valueError "Circular reference detected")
  | .other typeName =>
    .error (.typeError ("Object of type " ++ typeName ++ " is not JSON serializable"))

def spacedItems (first : Bool) : List Value → Except CompileError (List Char)
  | [] => .ok []
  | v :: rest => do
    let item ← spaced v
    let others ← spacedItems false rest
    .ok ((if first then [] else [',', ' ']) ++ item ++ others)

def spacedPairs (first : Bool) : List (String × Value) → Except CompileError (List Char)
  | [] => .ok []
  | (k, v) :: rest => do
    let item ← spaced v
    let others ← spacedPairs false rest
    .ok ((if first then [] else [',', ' ']) ++ renderString k ++ ':' :: ' ' :: item ++ others)

end

/-- `json.dumps(value, ensure_ascii=False, sort_keys=True)`. -/
def dumpsSpaced (value : Value) : Except CompileError String :=
  (spaced (PyJson.normalize value)).map String.ofList

/-! ## The compiler -/

structure ContextBundle where
  items : List ContextItem
  omittedItemIds : List String
  tokenBudget : Int
  estimatedTokens : Int
  digest : String
  deriving DecidableEq

/-- `CATEGORY_WEIGHT.get(category, 0)`. -/
def categoryWeight (category : String) : Int :=
  match category with
  | "policy" => 100
  | "goal" => 95
  | "handoff" => 90
  | "artifact" => 80
  | "decision" => 75
  | "memory" => 60
  | "chat" => 50
  | "tool" => 40
  | _ => 0

/-- The key items are sorted by. -/
def sortKey (item : ContextItem) : Bool ×ₗ Int ×ₗ Rat ×ₗ List Char :=
  toLex (!item.required, toLex (-categoryWeight item.category,
    toLex (-item.relevanceNumber, item.itemId.toList)))

def ordered (candidates : List ContextItem) : List ContextItem :=
  candidates.insertionSort (fun a b => sortKey a ≤ sortKey b)

/-- The tokens of some items. -/
def tokensOf (items : List ContextItem) : Int := (items.map ContextItem.estimatedTokens).sum

/-- Items in order, each taken while it fits. -/
def choose (candidates : List ContextItem) (tokenBudget : Int) : GreedyFill.Packing ContextItem Int :=
  GreedyFill.fill ContextItem.estimatedTokens tokenBudget (ordered candidates)

def ContextCompiler.compile (candidates : List ContextItem) (tokenBudget : Int) :
    Except CompileError ContextBundle := do
  if tokenBudget ≤ 0 then .error (.valueError "token_budget must be positive")
  else if tokensOf (candidates.filter ContextItem.required) > tokenBudget then
    .error (.contextBudget ("required context needs " ++
      String.ofList (intText (tokensOf (candidates.filter ContextItem.required))) ++
      " tokens but budget is " ++ String.ofList (intText tokenBudget)))
  else
    let serialized ← dumpsSpaced (.list ((choose candidates tokenBudget).selected.map ContextItem.toDict))
    .ok ⟨(choose candidates tokenBudget).selected,
      (choose candidates tokenBudget).omitted.map ContextItem.itemId, tokenBudget,
      (choose candidates tokenBudget).used, "sha256:" ++ Sha256.hexDigest serialized⟩

/-! ## The order -/

variable {candidates other : List ContextItem} {tokenBudget : Int}

theorem ordered_perm (candidates : List ContextItem) : (ordered candidates).Perm candidates :=
  List.perm_insertionSort _ _

theorem ordered_pairwise (candidates : List ContextItem) :
    (ordered candidates).Pairwise (fun a b => sortKey a ≤ sortKey b) :=
  List.pairwise_insertionSort _ _

/-- Required items come first. -/
theorem required_of_le {a b : ContextItem} (h : sortKey a ≤ sortKey b) (hb : b.required = true) :
    a.required = true := by
  rw [sortKey, sortKey, Prod.Lex.toLex_le_toLex] at h
  cases ha : a.required with
  | true => rfl
  | false =>
    simp only [ha, hb, Bool.not_false, Bool.not_true, Bool.true_eq_false, false_and, or_false] at h
    exact absurd h (by decide)

theorem ordered_front (candidates : List ContextItem) :
    ordered candidates = (ordered candidates).filter ContextItem.required ++
      (ordered candidates).filter (fun item => !item.required) :=
  GreedyFill.front_of_pairwise ((ordered_pairwise candidates).imp required_of_le)

/-- Two items with the same key have the same id. -/
theorem itemId_of_sortKey {a b : ContextItem} (h : sortKey a = sortKey b) : a.itemId = b.itemId := by
  simp only [sortKey, toLex_inj, Prod.mk.injEq] at h
  exact String.toList_inj.mp h.2.2.2

/-- **The order does not depend** on how the items came, where ids are distinct. -/
theorem ordered_congr (hids : (candidates.map ContextItem.itemId).Nodup)
    (hperm : other.Perm candidates) : ordered other = ordered candidates := by
  have hsame : (ordered other).Perm (ordered candidates) :=
    ((ordered_perm other).trans hperm).trans (ordered_perm candidates).symm
  refine hsame.eq_of_pairwise ?_ (ordered_pairwise other) (ordered_pairwise candidates)
  intro a b ha hb hab hba
  have hmem : ∀ item ∈ ordered candidates, item ∈ candidates :=
    fun item hitem => (ordered_perm candidates).subset hitem
  exact List.inj_on_of_nodup_map hids (hmem a (hsame.subset ha)) (hmem b hb)
    (itemId_of_sortKey (le_antisymm hab hba))

/-! ## The choice -/

theorem tokensOf_perm {items more : List ContextItem} (h : items.Perm more) :
    tokensOf items = tokensOf more := (h.map _).sum_eq

/-- What is right about a bundle. -/
structure Compiled (candidates : List ContextItem) (tokenBudget : Int) (bundle : ContextBundle) :
    Prop where
  required : ∀ item ∈ candidates, item.required = true → item ∈ bundle.items
  tokens : bundle.estimatedTokens = tokensOf bundle.items
  within : bundle.estimatedTokens ≤ tokenBudget
  partition : ∃ omitted, bundle.omittedItemIds = omitted.map ContextItem.itemId ∧
    (bundle.items ++ omitted).Perm candidates
  turns : ∀ before item after, ordered candidates = before ++ item :: after →
    ∃ taken left, (taken ++ left).Perm before ∧
      ((tokensOf taken + item.estimatedTokens ≤ tokenBudget ∧
        ∃ rest, bundle.items = taken ++ item :: rest) ∨
      (tokenBudget < tokensOf taken + item.estimatedTokens ∧
        ∃ rest, bundle.omittedItemIds = left.map ContextItem.itemId ++ item.itemId :: rest))

/-- Where the required items fit, all of them are taken. -/
theorem required_mem (hfits : tokensOf (candidates.filter ContextItem.required) ≤ tokenBudget)
    {item : ContextItem} (hitem : item ∈ candidates) (hrequired : item.required = true) :
    item ∈ (choose candidates tokenBudget).selected := by
  have hsum : (((ordered candidates).filter ContextItem.required).map
      ContextItem.estimatedTokens).sum ≤ tokenBudget := by
    refine le_of_eq_of_le ?_ hfits
    exact tokensOf_perm ((ordered_perm candidates).filter _)
  have hfront := GreedyFill.fill_of_fits ContextItem.estimatedTokens_nonneg hsum
  obtain ⟨taken, left, htaken, -⟩ := @GreedyFill.fill_append _ _ _ _ ContextItem.estimatedTokens
    tokenBudget ((ordered candidates).filter ContextItem.required)
    ((ordered candidates).filter (fun item => !item.required))
  rw [← ordered_front, hfront] at htaken
  show item ∈ (GreedyFill.fill _ _ (ordered candidates)).selected
  rw [htaken]
  refine List.mem_append_left _ (List.mem_filter.mpr ⟨?_, hrequired⟩)
  exact (ordered_perm candidates).symm.subset hitem

/-! ## What is serialized -/

/-- The item's document can be written. -/
def ContextItem.Encodable (item : ContextItem) : Prop := ∃ text, dumpsSpaced item.toDict = .ok text

theorem except_bind_ok' {α β : Type} {m : Except CompileError α} {f : α → Except CompileError β}
    {b : β} : (m >>= f) = .ok b ↔ ∃ a, m = .ok a ∧ f a = .ok b := by
  cases m <;> simp [bind, Except.bind]

theorem except_map_ok {α β : Type} {m : Except CompileError α} {f : α → β} {b : β} :
    m.map f = .ok b ↔ ∃ a, m = .ok a ∧ f a = b := by
  cases m <;> simp [Except.map]

/-- A list is written if each of its items is. -/
theorem spacedItems_ok {first : Bool} {items : List Value} :
    (∃ text, spacedItems first items = .ok text) ↔ ∀ v ∈ items, ∃ text, spaced v = .ok text := by
  induction items generalizing first with
  | nil => simp [spacedItems]
  | cons v rest ih =>
    simp only [spacedItems, except_bind_ok', List.forall_mem_cons]
    constructor
    · rintro ⟨_, item, hitem, others, hothers, -⟩
      exact ⟨⟨item, hitem⟩, ih.mp ⟨others, hothers⟩⟩
    · rintro ⟨⟨item, hitem⟩, hrest⟩
      obtain ⟨others, hothers⟩ := ih.mpr hrest
      exact ⟨_, item, hitem, others, hothers, rfl⟩

/-- The chosen items are written if each of them can be. -/
theorem dumpsSpaced_list {items : List ContextItem} :
    (∃ text, dumpsSpaced (.list (items.map ContextItem.toDict)) = .ok text) ↔
      ∀ item ∈ items, item.Encodable := by
  simp only [dumpsSpaced, PyJson.normalize, spaced, except_map_ok, ContextItem.Encodable, normalizeItems_eq]
  constructor
  · rintro ⟨_, _, ⟨inner, hinner, -⟩, -⟩ item hitem
    obtain ⟨text, htext⟩ := spacedItems_ok.mp ⟨inner, hinner⟩ (PyJson.normalize item.toDict)
      (List.mem_map_of_mem (List.mem_map_of_mem hitem))
    exact ⟨_, text, htext, rfl⟩
  · intro hall
    have hitems : ∀ v ∈ (items.map ContextItem.toDict).map PyJson.normalize,
        ∃ text, spaced v = .ok text := by
      intro v hv
      obtain ⟨w, hw, rfl⟩ := List.mem_map.mp hv
      obtain ⟨item, hitem, rfl⟩ := List.mem_map.mp hw
      obtain ⟨_, text, htext, -⟩ := hall item hitem
      exact ⟨text, htext⟩
    obtain ⟨inner, hinner⟩ := (@spacedItems_ok true _).mpr hitems
    exact ⟨_, _, ⟨inner, hinner, rfl⟩, rfl⟩

/-- An error of another kind than a budget's. -/
def OtherError {α : Type} (m : Except CompileError α) : Prop :=
  ∀ text, m ≠ .error (.contextBudget text)

theorem OtherError.bind {α β : Type} {m : Except CompileError α} {f : α → Except CompileError β}
    (hm : OtherError m) (hf : ∀ a, OtherError (f a)) : OtherError (m >>= f) := by
  cases m with
  | error e =>
    intro text h
    have he : e = .contextBudget text := Except.error.inj h
    exact hm text (by rw [he])
  | ok a => exact hf a

theorem OtherError.map {α β : Type} {m : Except CompileError α} {f : α → β} (hm : OtherError m) :
    OtherError (m.map f) := by
  cases m with
  | error e =>
    intro text h
    exact hm text (by rw [Except.error.inj h])
  | ok a => exact fun _ h => nomatch h

theorem OtherError.ok {α : Type} (a : α) : OtherError (.ok a : Except CompileError α) :=
  fun _ h => nomatch h

mutual

/-- Writing a document never fails for a budget. -/
theorem spaced_error : ∀ v : Value, OtherError (spaced v)
  | .null => .ok _
  | .bool true => .ok _
  | .bool false => .ok _
  | .int _ => .ok _
  | .float _ => .ok _
  | .nonFinite => .ok _
  | .str _ => .ok _
  | .list items => (spacedItems_error true items).map
  | .tuple items => (spacedItems_error true items).map
  | .dict pairs => (spacedPairs_error true pairs).map
  | .backReference => fun _ h => nomatch h
  | .other _ => fun _ h => nomatch h

theorem spacedItems_error (first : Bool) : ∀ items : List Value, OtherError (spacedItems first items)
  | [] => .ok _
  | v :: rest => (spaced_error v).bind (fun _ => (spacedItems_error false rest).bind (fun _ => .ok _))

theorem spacedPairs_error (first : Bool) :
    ∀ pairs : List (String × Value), OtherError (spacedPairs first pairs)
  | [] => .ok _
  | (_, v) :: rest =>
    (spaced_error v).bind (fun _ => (spacedPairs_error false rest).bind (fun _ => .ok _))

end

/-! ## Compiling -/

/-- What a compiled bundle is. -/
theorem compile_ok {bundle : ContextBundle}
    (h : ContextCompiler.compile candidates tokenBudget = .ok bundle) :
    0 < tokenBudget ∧ tokensOf (candidates.filter ContextItem.required) ≤ tokenBudget ∧
      bundle.items = (choose candidates tokenBudget).selected ∧
      bundle.omittedItemIds = (choose candidates tokenBudget).omitted.map ContextItem.itemId ∧
      bundle.estimatedTokens = (choose candidates tokenBudget).used := by
  unfold ContextCompiler.compile at h
  split at h
  · cases h
  next hpositive =>
    split at h
    · cases h
    next hfits =>
      obtain ⟨serialized, -, hbundle⟩ := except_bind_ok'.mp h
      rw [← Except.ok.inj hbundle]
      exact ⟨not_le.mp hpositive, not_lt.mp hfits, rfl, rfl, rfl⟩

/-- **The choice** is within the budget, complete, and made in turn. -/
theorem compile_items {bundle : ContextBundle}
    (h : ContextCompiler.compile candidates tokenBudget = .ok bundle) :
    Compiled candidates tokenBudget bundle := by
  obtain ⟨hpositive, hfits, hitems, homitted, htokens⟩ := compile_ok h
  refine ⟨?_, ?_, ?_, ?_, ?_⟩
  · intro item hitem hrequired
    rw [hitems]
    exact required_mem hfits hitem hrequired
  · rw [htokens, hitems]
    exact GreedyFill.fill_used _
  · rw [htokens]
    exact GreedyFill.fill_le hpositive.le _
  · refine ⟨_, homitted, ?_⟩
    rw [hitems]
    exact (GreedyFill.fill_perm _).trans (ordered_perm candidates)
  · intro before item after hordered
    refine ⟨(GreedyFill.fill ContextItem.estimatedTokens tokenBudget before).selected,
      (GreedyFill.fill ContextItem.estimatedTokens tokenBudget before).omitted,
      GreedyFill.fill_perm before, ?_⟩
    have hused : tokensOf (GreedyFill.fill ContextItem.estimatedTokens tokenBudget before).selected =
        (GreedyFill.fill ContextItem.estimatedTokens tokenBudget before).used :=
      (GreedyFill.fill_used before).symm
    rw [hused, hitems, homitted, choose, hordered]
    rcases @GreedyFill.fill_turn _ _ _ _ ContextItem.estimatedTokens tokenBudget before item after with ⟨hroom, rest, hrest⟩ | ⟨hfull, rest, hrest⟩
    · exact .inl ⟨hroom, rest, hrest⟩
    · refine .inr ⟨hfull, rest.map ContextItem.itemId, ?_⟩
      rw [hrest, List.map_append, List.map_cons]

/-- **When nothing is compiled**: the required items do not fit, or the chosen
ones cannot be written. -/
theorem compile_fails (hpositive : 0 < tokenBudget) :
    (∃ e, ContextCompiler.compile candidates tokenBudget = .error e) ↔
      tokenBudget < tokensOf (candidates.filter ContextItem.required) ∨
        ∃ item ∈ (choose candidates tokenBudget).selected, ¬item.Encodable := by
  unfold ContextCompiler.compile
  rw [if_neg (not_le.mpr hpositive)]
  by_cases hfits : tokensOf (candidates.filter ContextItem.required) > tokenBudget
  · rw [if_pos hfits]
    exact ⟨fun _ => .inl hfits, fun _ => ⟨_, rfl⟩⟩
  · rw [if_neg hfits]
    have hwritten := @dumpsSpaced_list (choose candidates tokenBudget).selected
    cases hdumps : dumpsSpaced (.list ((choose candidates tokenBudget).selected.map
        ContextItem.toDict)) with
    | error e =>
      refine ⟨fun _ => .inr ?_, fun _ => ⟨e, rfl⟩⟩
      by_contra hnone
      obtain ⟨text, htext⟩ := hwritten.mpr (by simpa using hnone)
      rw [hdumps] at htext
      cases htext
    | ok text =>
      refine ⟨fun ⟨e, he⟩ => (nomatch he), ?_⟩
      rintro (hlarge | ⟨item, hitem, hnot⟩)
      · exact absurd hlarge hfits
      · exact absurd (hwritten.mp ⟨text, hdumps⟩ item hitem) hnot

/-- **Required items that do not fit** are what the budget error is about. -/
theorem compile_budget (hpositive : 0 < tokenBudget) :
    (∃ m, ContextCompiler.compile candidates tokenBudget = .error (.contextBudget m)) ↔
      tokenBudget < tokensOf (candidates.filter ContextItem.required) := by
  unfold ContextCompiler.compile
  rw [if_neg (not_le.mpr hpositive)]
  by_cases hfits : tokensOf (candidates.filter ContextItem.required) > tokenBudget
  · rw [if_pos hfits]
    exact ⟨fun _ => hfits, fun _ => ⟨_, rfl⟩⟩
  · rw [if_neg hfits]
    refine ⟨fun ⟨m, hm⟩ => absurd hm ?_, fun hlarge => absurd hlarge hfits⟩
    exact ((spaced_error _).map).bind (fun _ => .ok _) m

namespace Sample

/-- A required item. -/
def goal : ContextItem where
  itemId := "goal"
  category := "goal"
  content := "ship it"
  required := true
  relevance := .int 1
  provenance := "user"
  metadata := []
  named := by decide
  relevant := by decide

/-- An item with a set among its metadata. -/
def tagged : ContextItem :=
  { goal with
    itemId := "tags"
    required := false
    metadata := [("tags", .other "set")]
    named := by decide }

end Sample

end QuantumEntanglement
