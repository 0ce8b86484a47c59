import QuantumEntanglement.Lib.ByteLines
import QuantumEntanglement.Lib.PyValues

/-
  The event stream — server-sent events, read under a byte limit

  A response is read line by line. A line adds a data line or names the event,
  a blank line dispatches what was gathered, and so does the end of the
  stream. Each read is limited to one byte more than is left, so that a stream
  that is too long is seen without being read. The document of a list of
  events is stated apart from the reader: its blocks are lists of items, and
  what a block says is read off the items, not off the lines.

  What is proved:
    1. `consume_document` — a document is processed as its events, one by one.
    2. `consume_bounded`, `consume_long`, `consume_limit` — what is read, what
       is rejected, and that a stream within the limit does not meet it.
    3. `event_stream_laws` — both, for all documents and all streams.
-/

namespace QuantumEntanglement.Adapters

open PyText PyJson ByteLines

/-! ## Events -/

inductive StreamError where
  | protocol (message : String)
  | api
  | limit
  /-- An exception of `json.loads` that is neither of the two that are caught. -/
  | other
  deriving DecidableEq

/-- What `json.loads` raises: `JSONDecodeError` or `RecursionError`, or another error. -/
inductive LoadError where
  | invalid
  | other

structure StreamState where
  deltas : List String
  doneTexts : List String
  completedResponse : Option (List (String × Value))
  sawDoneMarker : Bool

def StreamState.new : StreamState := ⟨[], [], none, false⟩

/-- What `if` makes of a value of a JSON document. -/
def truthy : Value → Bool
  | .null => false
  | .bool b => b
  | .int n => n ≠ 0
  | .float x => x.digits ≠ 0
  | .str s => s ≠ ""
  | .list items => !items.isEmpty
  | .tuple items => !items.isEmpty
  | .dict pairs => !pairs.isEmpty
  | .nonFinite => true
  | .backReference => true
  | .other _ => true

variable (loads : String → Except LoadError Value)

/-- `payload.get("type") or event_name`. -/
def payloadType (payload : List (String × Value)) (eventName : String) : Value :=
  match lookup "type" payload with
  | none => .str eventName
  | some v => if truthy v then v else .str eventName

/-- What a payload of a type does. -/
def dispatchPayload (state : StreamState) (payload : List (String × Value)) (type : String) :
    Except StreamError StreamState :=
  if type = "error" ∨ type = "response.failed" ∨ type = "response.incomplete" then .error .api
  else if type = "response.output_text.delta" then
    match lookup "delta" payload with
    | some (.str delta) => .ok { state with deltas := state.deltas ++ [delta] }
    | _ => .error (.protocol "output-text delta must be a string")
  else if type = "response.output_text.done" then
    match lookup "text" payload with
    | some (.str text) => .ok { state with doneTexts := state.doneTexts ++ [text] }
    | _ => .error (.protocol "completed output text must be a string")
  else if type = "response.completed" then
    match (lookup "response" payload).getD (.dict payload) with
    | .dict completed => .ok { state with completedResponse := some completed }
    | _ => .error (.protocol "completed response must be a JSON object")
  else .ok state

/-- An event with its data. -/
def processEvent (state : StreamState) (eventName data : String) : Except StreamError StreamState :=
  if strip data = "[DONE]" then .ok { state with sawDoneMarker := true }
  else
    match loads data with
    | .error .invalid => .error (.protocol "Responses API stream contained invalid JSON")
    | .error .other => .error .other
    | .ok (.dict payload) =>
      match payloadType payload eventName with
      | .str type => dispatchPayload state payload type
      | _ => .error (.protocol "Responses API event type must be a string")
    | .ok _ => .error (.protocol "Responses API event must be a JSON object")

/-- `_dispatch_event`. -/
def dispatchEvent (state : StreamState) (eventName : String) (dataLines : List String) :
    Except StreamError StreamState :=
  if dataLines = [] then .ok state else processEvent loads state eventName ("\n".intercalate dataLines)

/-! ## The reader -/

/-- What the loop has gathered. -/
structure Gathered where
  state : StreamState
  eventName : String
  dataLines : List String

def Gathered.new : Gathered := ⟨.new, "", []⟩

/-- `rstrip("\r\n")`. -/
def stripLineEnd (line : List Char) : List Char :=
  (line.reverse.dropWhile (fun c => c = '\r' || c = '\n')).reverse

/-- `value` without the one space that may follow the colon. -/
def dropSpace : List Char → List Char
  | ' ' :: rest => rest
  | value => value

/-- A line that is neither blank nor a comment: its field, and what it is set to. -/
def consumeField (g : Gathered) (field : List Char) (value : String) : Gathered :=
  if field = "event".toList then { g with eventName := value }
  else if field = "data".toList then { g with dataLines := g.dataLines ++ [value] }
  else g

/-- `line.partition(":")`, and the field. A line without a colon has an empty value. -/
def splitField (g : Gathered) (line : List Char) : Gathered :=
  match line.dropWhile (· ≠ ':') with
  | [] => consumeField g line ""
  | _ :: value => consumeField g (line.takeWhile (· ≠ ':')) (String.ofList (dropSpace value))

/-- One line, its end stripped. -/
def consumeLine (g : Gathered) (line : List Char) : Except StreamError Gathered :=
  match line with
  | [] => (dispatchEvent loads g.state g.eventName g.dataLines).map (fun state => ⟨state, "", []⟩)
  | ':' :: _ => .ok g
  | line => .ok (splitField g line)

/-- The loop, with the bytes read so far; the bytes read in the end, and what came of them. -/
def consumeFrom (maxBytes : Nat) (total : Nat) (g : Gathered) (stream : List UInt8) :
    Nat × Except StreamError StreamState :=
  match _h : readline (maxBytes - total + 1) stream with
  | ([], _) => (total, dispatchEvent loads g.state g.eventName g.dataLines)
  | (b :: raw, rest) =>
    if maxBytes < total + (raw.length + 1) then (total + (raw.length + 1), .error .limit)
    else
      match decode (b :: raw) with
      | none => (total + (raw.length + 1), .error (.protocol "Responses API stream was not valid UTF-8"))
      | some line =>
        match consumeLine loads g (stripLineEnd line.toList) with
        | .error e => (total + (raw.length + 1), .error e)
        | .ok g' => consumeFrom maxBytes (total + (raw.length + 1)) g' rest
termination_by stream.length
decreasing_by
  have hlength := congrArg List.length (readline_append (maxBytes - total + 1) stream)
  rw [_h, List.length_append, List.length_cons] at hlength
  dsimp only at hlength
  omega

/-- `_consume_sse`: the bytes read, and the state. -/
def consumeSse (maxBytes : Nat) (stream : List UInt8) : Nat × Except StreamError StreamState :=
  consumeFrom loads maxBytes 0 .new stream

/-- What is left in the loop at the end of the stream. -/
def Gathered.finish (g : Gathered) : Except StreamError StreamState :=
  dispatchEvent loads g.state g.eventName g.dataLines

variable {loads} {maxBytes total : Nat} {g : Gathered} {stream rest : List UInt8}

theorem consumeFrom_end (h : stream = []) :
    consumeFrom loads maxBytes total g stream = (total, g.finish loads) := by
  subst h
  rw [consumeFrom]
  rfl

theorem consumeFrom_line {b : UInt8} {raw : List UInt8}
    (h : readline (maxBytes - total + 1) stream = (b :: raw, rest)) :
    consumeFrom loads maxBytes total g stream =
      if maxBytes < total + (raw.length + 1) then (total + (raw.length + 1), .error .limit)
      else
        match decode (b :: raw) with
        | none => (total + (raw.length + 1), .error (.protocol "Responses API stream was not valid UTF-8"))
        | some line =>
          match consumeLine loads g (stripLineEnd line.toList) with
          | .error e => (total + (raw.length + 1), .error e)
          | .ok g' => consumeFrom loads maxBytes (total + (raw.length + 1)) g' rest := by
  rw [consumeFrom]
  split
  next heq =>
    rw [h] at heq
    cases heq
  next heq =>
    rw [h] at heq
    obtain ⟨hline, rfl⟩ := Prod.mk.inj heq
    obtain ⟨rfl, rfl⟩ := List.cons.inj hline
    rfl

/-! ## The byte budget -/

/-- **What is read.** At most one byte more than the limit. -/
theorem consumeFrom_bounded (h : total ≤ maxBytes) :
    (consumeFrom loads maxBytes total g stream).1 ≤ maxBytes + 1 := by
  induction hn : stream.length using Nat.strong_induction_on generalizing stream total g with
  | _ n ih =>
    rcases hread : readline (maxBytes - total + 1) stream with ⟨line, rest⟩
    have happend := readline_append (maxBytes - total + 1) stream
    have hlength := readline_length_le (maxBytes - total + 1) stream
    rw [hread] at happend hlength
    cases line with
    | nil =>
      rw [consumeFrom_end (readline_nil (by rw [hread]))]
      exact Nat.le_succ_of_le h
    | cons b raw =>
      rw [List.length_cons] at hlength
      rw [consumeFrom_line hread]
      have hnext : total + (raw.length + 1) ≤ maxBytes + 1 := by omega
      split
      · exact hnext
      next hwithin =>
        split
        · exact hnext
        · split
          · exact hnext
          · have hstream : stream.length = raw.length + 1 + rest.length := by
              rw [← happend, List.length_append, List.length_cons]
            exact ih rest.length (by omega) (by omega) rfl

/-- **A stream longer than the limit is rejected.** -/
theorem consumeFrom_long (h : total ≤ maxBytes) (hlong : maxBytes < total + stream.length) :
    ∃ e, (consumeFrom loads maxBytes total g stream).2 = .error e := by
  induction hn : stream.length using Nat.strong_induction_on generalizing stream total g with
  | _ n ih =>
    rcases hread : readline (maxBytes - total + 1) stream with ⟨line, rest⟩
    have happend := readline_append (maxBytes - total + 1) stream
    rw [hread] at happend
    cases line with
    | nil =>
      have hnil := readline_nil (by rw [hread])
      rw [hnil, List.length_nil] at hlong
      omega
    | cons b raw =>
      rw [consumeFrom_line hread]
      split
      · exact ⟨_, rfl⟩
      next hwithin =>
        split
        · exact ⟨_, rfl⟩
        · split
          · exact ⟨_, rfl⟩
          · have hlength : stream.length = raw.length + 1 + rest.length := by
              rw [← happend, List.length_append, List.length_cons]
            exact ih rest.length (by omega) (by omega) (by omega) rfl

/-- **A stream within the limit does not meet it**: any larger limit gives the same. -/
theorem consumeFrom_limit {larger : Nat} (hlarger : maxBytes ≤ larger) (h : total + stream.length ≤ maxBytes) :
    consumeFrom loads maxBytes total g stream = consumeFrom loads larger total g stream := by
  induction hn : stream.length using Nat.strong_induction_on generalizing stream total g with
  | _ n ih =>
    have hsame : readline (larger - total + 1) stream = readline (maxBytes - total + 1) stream :=
      readline_enough (by omega) (by omega)
    rcases hread : readline (maxBytes - total + 1) stream with ⟨line, rest⟩
    have happend := readline_append (maxBytes - total + 1) stream
    rw [hread] at happend
    cases line with
    | nil =>
      have hnil := readline_nil (by rw [hread])
      rw [consumeFrom_end hnil, consumeFrom_end hnil]
    | cons b raw =>
      have hlength : stream.length = raw.length + 1 + rest.length := by
        rw [← happend, List.length_append, List.length_cons]
      rw [consumeFrom_line hread, consumeFrom_line (hsame.trans hread), if_neg (by omega), if_neg (by omega)]
      cases decode (b :: raw) with
      | none => rfl
      | some line =>
        cases hline : consumeLine loads g (stripLineEnd line.toList) with
        | error e => simp only [hline]
        | ok g' =>
          simp only [hline]
          exact ih rest.length (by omega) (by omega) rfl

/-! ## Documents -/

inductive Eol where
  | lf
  | crlf

def Eol.text : Eol → List Char
  | .lf => ['\n']
  | .crlf => ['\r', '\n']

/-- How a field is written: without a colon, with one, or with one and a space. -/
inductive Form where
  | bare
  | tight
  | spaced

def Form.write (field value : List Char) : Form → List Char
  | .bare => field
  | .tight => field ++ ':' :: value
  | .spaced => field ++ ':' :: ' ' :: value

/-- Without a colon the value is empty; without the space it does not begin with one. -/
def Form.Fits (value : List Char) : Form → Prop
  | .bare => value = []
  | .tight => value.head? ≠ some ' '
  | .spaced => True

/-- A line of a block: a data line, the event's name, or a line that says nothing. -/
inductive Item where
  | data (form : Form) (piece : List Char)
  | event (form : Form) (name : List Char)
  | ignored (text : List Char)

def Item.text : Item → List Char
  | .data form piece => form.write "data".toList piece
  | .event form name => form.write "event".toList name
  | .ignored text => text

/-- No line ends inside a line. -/
def OneLine (text : List Char) : Prop := '\n' ∉ text ∧ '\r' ∉ text

instance (text : List Char) : Decidable (OneLine text) := inferInstanceAs (Decidable (_ ∧ _))

/-- A line that says nothing is a comment, or sets a field that is not known. -/
def Item.Fits : Item → Prop
  | .data form piece => OneLine piece ∧ form.Fits piece
  | .event form name => OneLine name ∧ form.Fits name
  | .ignored text => text ≠ [] ∧ OneLine text ∧ (text.head? = some ':' ∨
      text.takeWhile (· ≠ ':') ≠ "data".toList ∧ text.takeWhile (· ≠ ':') ≠ "event".toList)

abbrev Block : Type := List Item

/-- The data lines of a block. -/
def Block.pieces (b : Block) : List String :=
  b.filterMap fun
    | .data _ piece => some (String.ofList piece)
    | _ => none

/-- The name of a block's event, the last one that is given. -/
def Block.name (b : Block) : String :=
  ((b.filterMap fun
    | .event _ name => some (String.ofList name)
    | _ => none).getLast?).getD ""

/-- An event: its name, and its data. -/
abbrev ServerEvent : Type := String × String

/-- The blocks say these events: each event in a block of its own, its data split
at the newlines, and blocks without data between them. -/
inductive Renders : List ServerEvent → List Block → Prop where
  | nil : Renders [] []
  | idle {events : List ServerEvent} {blocks : List Block} {b : Block} :
      b.pieces = [] → Renders events blocks → Renders events (b :: blocks)
  | event {events : List ServerEvent} {blocks : List Block} {b : Block} :
      b.pieces ≠ [] → Renders events blocks →
        Renders ((b.name, "\n".intercalate b.pieces) :: events) (b :: blocks)

/-- The lines of a stream: blocks closed by a blank line, the last block, and a
last line that may have no end. -/
structure Document where
  closed : List (List (Item × Eol) × Eol)
  last : List (Item × Eol)
  unterminated : Option Item

def Document.blocks (d : Document) : List Block :=
  d.closed.map (fun b => b.1.map Prod.fst) ++ [d.last.map Prod.fst ++ d.unterminated.toList]

def Document.Fits (d : Document) : Prop := ∀ b ∈ d.blocks, ∀ i ∈ b, Item.Fits i

/-- The lines that have an end. -/
def Document.lines (d : Document) : List (List Char × Eol) :=
  d.closed.flatMap (fun b => b.1.map (fun i => (i.1.text, i.2)) ++ [([], b.2)]) ++
    d.last.map (fun i => (i.1.text, i.2))

/-- The stream of a document. -/
def Document.bytes (d : Document) : List UInt8 :=
  d.lines.flatMap (fun l => encode (l.1 ++ l.2.text)) ++ encode ((d.unterminated.map Item.text).getD [])

variable (loads) in
/-- The events, processed one by one. -/
def processEvents (events : List ServerEvent) (state : StreamState) : Except StreamError StreamState :=
  events.foldlM (fun state e => dispatchEvent loads state e.1 [e.2]) state

/-! ## Lines -/

theorem stripLineEnd_append {text end_ : List Char} (h : OneLine text) (hend : ∀ c ∈ end_, c = '\r' ∨ c = '\n') :
    stripLineEnd (text ++ end_) = text := by
  have hends : ∀ c ∈ end_.reverse, (c = '\r' || c = '\n') = true := by
    intro c hc
    simpa using hend c (List.mem_reverse.mp hc)
  have hkeep : text.reverse.dropWhile (fun c => c = '\r' || c = '\n') = text.reverse := by
    cases hreverse : text.reverse with
    | nil => rfl
    | cons c rest =>
      have hmem : c ∈ text := List.mem_reverse.mp (hreverse ▸ List.mem_cons_self)
      have hn : c ≠ '\n' := fun heq => h.1 (heq ▸ hmem)
      have hr : c ≠ '\r' := fun heq => h.2 (heq ▸ hmem)
      simp [hn, hr]
  rw [stripLineEnd, List.reverse_append, List.dropWhile_append_of_pos hends, hkeep, List.reverse_reverse]

theorem Eol.ends (e : Eol) : ∀ c ∈ e.text, c = '\r' ∨ c = '\n' := by
  cases e <;> decide

/-- The bytes of a line, as they end. -/
theorem line_bytes {text : List Char} (h : OneLine text) (e : Eol) :
    ∃ body, '\n' ∉ body ∧ text ++ e.text = body ++ ['\n'] := by
  cases e with
  | lf => exact ⟨text, h.1, rfl⟩
  | crlf =>
    refine ⟨text ++ ['\r'], ?_, by simp [Eol.text]⟩
    rw [List.mem_append]
    rintro (hmem | hmem)
    · exact h.1 hmem
    · simp at hmem

/-- **One line of a stream within the limit.** -/
theorem consumeFrom_text {text : List Char} (h : OneLine text) (e : Eol)
    (hlimit : total + (encode (text ++ e.text)).length ≤ maxBytes) :
    (consumeFrom loads maxBytes total g (encode (text ++ e.text) ++ rest)).2 =
      (consumeLine loads g text).bind (fun g' =>
        (consumeFrom loads maxBytes (total + (encode (text ++ e.text)).length) g' rest).2) := by
  obtain ⟨body, hbody, heq⟩ := line_bytes h e
  have hencode : encode (text ++ e.text) = encode body ++ [10] := by
    rw [heq, encode_append]
    rfl
  have hlength : (encode (text ++ e.text)).length = (encode body).length + 1 := by
    rw [hencode, List.length_append]
    rfl
  have hread : readline (maxBytes - total + 1) (encode (text ++ e.text) ++ rest) =
      (encode (text ++ e.text), rest) := by
    rw [hencode, List.append_assoc]
    exact readline_line (lineFeed_not_mem_encode hbody) (by omega) rest
  have hstrip := stripLineEnd_append h e.ends
  have hdecode := decode_encode (text ++ e.text)
  cases hraw : encode (text ++ e.text) with
  | nil =>
    rw [hraw] at hlength
    cases hlength
  | cons b raw =>
    rw [hraw] at hread hlimit hdecode
    rw [List.length_cons] at hlimit
    rw [consumeFrom_line hread, if_neg (by omega), hdecode]
    simp only [String.toList_ofList, hstrip]
    cases consumeLine loads g text with
    | error e => rfl
    | ok g' => rfl

/-- The last line, where it has no end. -/
theorem consumeFrom_last {text : List Char} (h : OneLine text) (hne : text ≠ [])
    (hlimit : total + (encode text).length ≤ maxBytes) :
    (consumeFrom loads maxBytes total g (encode text)).2 =
      (consumeLine loads g text).bind (fun g' => g'.finish loads) := by
  have hread : readline (maxBytes - total + 1) (encode text) = (encode text, []) :=
    readline_last (lineFeed_not_mem_encode h.1) (by omega)
  have hstrip : stripLineEnd text = text := by
    have happend := @stripLineEnd_append text [] h (fun c hc => absurd hc List.not_mem_nil)
    rwa [List.append_nil] at happend
  have hdecode := decode_encode text
  cases hraw : encode text with
  | nil =>
    rw [hraw] at hdecode
    have hempty : decode [] = some "" := decode_encode []
    rw [hempty] at hdecode
    exact absurd (String.ofList_injective (Option.some.inj hdecode).symm) hne
  | cons b raw =>
    rw [hraw] at hread hlimit hdecode
    rw [List.length_cons] at hlimit
    rw [consumeFrom_line hread, if_neg (by omega), hdecode]
    simp only [String.toList_ofList, hstrip]
    cases consumeLine loads g text with
    | error e => rfl
    | ok g' =>
      show (consumeFrom loads maxBytes (total + (raw.length + 1)) g' []).2 = _
      rw [consumeFrom_end rfl]
      rfl

/-! ## Items -/

/-- What an item adds to what is gathered. -/
def Gathered.add (g : Gathered) : Item → Gathered
  | .data _ piece => { g with dataLines := g.dataLines ++ [String.ofList piece] }
  | .event _ name => { g with eventName := String.ofList name }
  | .ignored _ => g

theorem form_oneLine {field value : List Char} (hfield : OneLine field) (hvalue : OneLine value) (form : Form) :
    OneLine (form.write field value) := by
  cases form with
  | bare => exact hfield
  | tight => simp [Form.write, OneLine, hfield.1, hfield.2, hvalue.1, hvalue.2]
  | spaced => simp [Form.write, OneLine, hfield.1, hfield.2, hvalue.1, hvalue.2]

theorem Item.Fits.oneLine {i : Item} (h : i.Fits) : OneLine i.text := by
  cases i with
  | data form piece => exact form_oneLine ⟨by decide, by decide⟩ h.1 form
  | event form name => exact form_oneLine ⟨by decide, by decide⟩ h.1 form
  | ignored text => exact h.2.1

theorem Item.Fits.ne_nil {i : Item} (h : i.Fits) : i.text ≠ [] := by
  cases i with
  | data form piece => cases form <;> exact List.cons_ne_nil _ _
  | event form name => cases form <;> exact List.cons_ne_nil _ _
  | ignored text => exact h.1

theorem splitField_write {field value : List Char} (g : Gathered) (hfield : ':' ∉ field) {form : Form}
    (h : form.Fits value) :
    splitField g (form.write field value) = consumeField g field (String.ofList value) := by
  have hall : ∀ c ∈ field, (decide (c ≠ ':')) = true := by
    intro c hc
    exact decide_eq_true (fun heq => hfield (heq ▸ hc))
  have hsplit : ∀ rest, (field ++ ':' :: rest).dropWhile (· ≠ ':') = ':' :: rest ∧
      (field ++ ':' :: rest).takeWhile (· ≠ ':') = field := by
    intro rest
    rw [List.dropWhile_append_of_pos hall, List.takeWhile_append_of_pos hall]
    simp
  cases form with
  | bare =>
    have hvalue : value = [] := h
    have hdrop : field.dropWhile (fun c => decide (c ≠ ':')) = [] := by
      have happend := @List.dropWhile_append_of_pos _ _ field [] hall
      rwa [List.append_nil] at happend
    simp only [splitField, Form.write, hdrop, hvalue]
  | tight =>
    have hdrop : dropSpace value = value := by
      cases value with
      | nil => rfl
      | cons c rest =>
        have hc : c ≠ ' ' := fun heq => h (by rw [heq]; rfl)
        unfold dropSpace
        split
        next heq => exact absurd (List.cons.inj heq).1 hc
        · rfl
    simp only [splitField, Form.write, (hsplit value).1, (hsplit value).2, hdrop]
  | spaced =>
    have hdrop : dropSpace (' ' :: value) = value := rfl
    simp only [splitField, Form.write, (hsplit _).1, (hsplit _).2, hdrop]

/-- **A line of a block adds what its item says.** -/
theorem consumeLine_item {i : Item} (h : i.Fits) (g : Gathered) : consumeLine loads g i.text = .ok (g.add i) := by
  have hplain : ∀ (text : List Char), text ≠ [] → text.head? ≠ some ':' →
      consumeLine loads g text = .ok (splitField g text) := by
    intro text hne hhead
    unfold consumeLine
    split
    · exact absurd rfl hne
    · exact absurd rfl hhead
    · rfl
  have hhead : ∀ (c : Char) (field value : List Char) (form : Form),
      (form.write (c :: field) value).head? = some c := by
    intro c field value form
    cases form <;> rfl
  cases i with
  | data form piece =>
    have hd : (Item.data form piece).text.head? = some 'd' := hhead _ _ piece form
    rw [hplain _ h.ne_nil (by rw [hd]; decide)]
    show Except.ok (splitField g (form.write _ piece)) = _
    rw [splitField_write g (by decide) h.2]
    rfl
  | event form name =>
    have he : (Item.event form name).text.head? = some 'e' := hhead _ _ name form
    rw [hplain _ h.ne_nil (by rw [he]; decide)]
    show Except.ok (splitField g (form.write _ name)) = _
    rw [splitField_write g (by decide) h.2]
    rfl
  | ignored text =>
    obtain ⟨hne, -, hcomment | ⟨hdata, hevent⟩⟩ := h
    · cases text with
      | nil => exact absurd rfl hne
      | cons c rest =>
        obtain rfl := Option.some.inj hcomment
        rfl
    · by_cases hhead : text.head? = some ':'
      · cases text with
        | nil => exact absurd rfl hne
        | cons c rest =>
          obtain rfl := Option.some.inj hhead
          rfl
      · show consumeLine loads g text = _
        rw [hplain text hne hhead]
        have hkeep : ∀ (field : List Char) (value : String), field ≠ "data".toList → field ≠ "event".toList →
            consumeField g field value = g := by
          intro field value hd he
          rw [consumeField, if_neg he, if_neg hd]
        unfold splitField
        split
        next hdrop =>
          have htake := List.takeWhile_append_dropWhile (p := fun c => decide (c ≠ ':')) (l := text)
          rw [hdrop, List.append_nil] at htake
          rw [htake] at hdata hevent
          rw [hkeep _ _ hdata hevent]
          rfl
        · rw [hkeep _ _ hdata hevent]
          rfl

/-- What a block gathers. -/
theorem gathered_block (b : Block) (g : Gathered) : (b.foldl Gathered.add g).state = g.state ∧
    (b.foldl Gathered.add g).dataLines = g.dataLines ++ b.pieces ∧
      (b.foldl Gathered.add g).eventName = ((b.filterMap fun
        | .event _ name => some (String.ofList name)
        | _ => none).getLast?).getD g.eventName := by
  induction b generalizing g with
  | nil => exact ⟨rfl, (List.append_nil _).symm, rfl⟩
  | cons i rest ih =>
    obtain ⟨hstate, hdata, hname⟩ := ih (g.add i)
    rw [List.foldl_cons, hstate, hdata, hname]
    cases i with
    | data form piece => exact ⟨rfl, by simp [Gathered.add, Block.pieces], rfl⟩
    | event form name =>
      refine ⟨rfl, rfl, ?_⟩
      rw [List.filterMap_cons]
      simp only [Gathered.add]
      generalize (List.filterMap _ rest : List String) = names
      cases hlast : names.getLast? with
      | none =>
        obtain rfl := List.getLast?_eq_none_iff.mp hlast
        rfl
      | some last => rw [List.getLast?_cons, hlast]; rfl
    | ignored text => exact ⟨rfl, rfl, rfl⟩

/-! ## Streams -/

/-- The bytes of lines that have an end. -/
def lineBytes (lines : List (List Char × Eol)) : List UInt8 :=
  lines.flatMap (fun l => encode (l.1 ++ l.2.text))

/-- **The lines of a stream within the limit**, one after the other. -/
theorem consumeFrom_lines {lines : List (List Char × Eol)} (h : ∀ l ∈ lines, OneLine l.1)
    (hlimit : total + (lineBytes lines).length ≤ maxBytes) :
    (consumeFrom loads maxBytes total g (lineBytes lines ++ rest)).2 =
      ((lines.map Prod.fst).foldlM (consumeLine loads) g).bind (fun g' =>
        (consumeFrom loads maxBytes (total + (lineBytes lines).length) g' rest).2) := by
  induction lines generalizing total g with
  | nil => rfl
  | cons l more ih =>
    have hbytes : lineBytes (l :: more) = encode (l.1 ++ l.2.text) ++ lineBytes more := List.flatMap_cons
    have hlength : (lineBytes (l :: more)).length =
        (encode (l.1 ++ l.2.text)).length + (lineBytes more).length := by
      rw [hbytes, List.length_append]
    rw [hlength] at hlimit ⊢
    rw [hbytes, List.append_assoc, consumeFrom_text (h l List.mem_cons_self) l.2 (by omega), List.map_cons,
      List.foldlM_cons]
    cases consumeLine loads g l.1 with
    | error e => rfl
    | ok g' =>
      have hmore : ∀ l' ∈ more, OneLine l'.1 := fun l' hl' => h l' (List.mem_cons_of_mem _ hl')
      rw [← Nat.add_assoc]
      exact @ih (total + (encode (l.1 ++ l.2.text)).length) g' hmore (by omega)

/-- The items of a block, from what is gathered. -/
theorem foldlM_items {items : Block} (h : ∀ i ∈ items, Item.Fits i) (g : Gathered) :
    (items.map Item.text).foldlM (consumeLine loads) g = .ok (items.foldl Gathered.add g) := by
  induction items generalizing g with
  | nil => rfl
  | cons i rest ih =>
    rw [List.map_cons, List.foldlM_cons, consumeLine_item (h i List.mem_cons_self)]
    exact ih (fun j hj => h j (List.mem_cons_of_mem _ hj)) (g.add i)

variable (loads) in
/-- The blocks, dispatched one by one. -/
def processBlocks (blocks : List Block) (state : StreamState) : Except StreamError StreamState :=
  blocks.foldlM (fun state b => dispatchEvent loads state b.name b.pieces) state

theorem processBlocks_append (a b : List Block) (state : StreamState) :
    processBlocks loads (a ++ b) state = (processBlocks loads a state).bind (processBlocks loads b) :=
  List.foldlM_append

/-- A block gathered from nothing is dispatched as what it says. -/
theorem finish_block (b : Block) (state : StreamState) :
    (b.foldl Gathered.add ⟨state, "", []⟩).finish loads = dispatchEvent loads state b.name b.pieces := by
  obtain ⟨hstate, hdata, hname⟩ := gathered_block b ⟨state, "", []⟩
  rw [Gathered.finish, hstate, hdata, hname, List.nil_append]
  rfl

theorem foldlM_closed {closed : List (List (Item × Eol) × Eol)}
    (h : ∀ b ∈ closed, ∀ i ∈ b.1, Item.Fits i.1) (state : StreamState) :
    (closed.flatMap (fun b => b.1.map (fun i => i.1.text) ++ [[]])).foldlM (consumeLine loads) ⟨state, "", []⟩ =
      (processBlocks loads (closed.map (fun b => b.1.map Prod.fst)) state).map (fun state => ⟨state, "", []⟩) := by
  induction closed generalizing state with
  | nil => rfl
  | cons b rest ih =>
    have hitems : ∀ i ∈ b.1.map Prod.fst, Item.Fits i := by
      intro i hi
      obtain ⟨p, hp, rfl⟩ := List.mem_map.mp hi
      exact h b List.mem_cons_self p hp
    have htexts : b.1.map (fun i => i.1.text) = (b.1.map Prod.fst).map Item.text := by
      rw [List.map_map]
      rfl
    have hblock := @foldlM_items loads _ hitems ⟨state, "", []⟩
    rw [List.flatMap_cons, List.foldlM_append, List.foldlM_append, htexts, hblock, List.map_cons]
    show ((consumeLine loads _ []).bind _).bind _ = _
    have hblank : consumeLine loads ((b.1.map Prod.fst).foldl Gathered.add ⟨state, "", []⟩) [] =
        (dispatchEvent loads state (Block.name (b.1.map Prod.fst)) (Block.pieces (b.1.map Prod.fst))).map
          (fun state => ⟨state, "", []⟩) := by
      rw [← finish_block]
      rfl
    rw [hblank, processBlocks, List.foldlM_cons]
    cases dispatchEvent loads state (Block.name (b.1.map Prod.fst)) (Block.pieces (b.1.map Prod.fst)) with
    | error e => rfl
    | ok state' => exact ih (fun b' hb' => h b' (List.mem_cons_of_mem _ hb')) state'

/-- Blocks that say the events process as the events do. -/
theorem Renders.process {events : List ServerEvent} {blocks : List Block} (h : Renders events blocks)
    (state : StreamState) : processBlocks loads blocks state = processEvents loads events state := by
  induction h generalizing state with
  | nil => rfl
  | @idle events blocks b hnone _ ih =>
    have hidle : dispatchEvent loads state b.name b.pieces = .ok state := by rw [dispatchEvent, if_pos hnone]
    rw [processBlocks, List.foldlM_cons, hidle]
    exact ih state
  | @event events blocks b hsome _ ih =>
    have hjoined : dispatchEvent loads state b.name b.pieces =
        dispatchEvent loads state b.name ["\n".intercalate b.pieces] := by
      rw [dispatchEvent, if_neg hsome, dispatchEvent, if_neg (List.cons_ne_nil _ _)]
      rfl
    rw [processBlocks, List.foldlM_cons, hjoined, processEvents, List.foldlM_cons]
    cases dispatchEvent loads state b.name ["\n".intercalate b.pieces] with
    | error e => rfl
    | ok state' => exact ih state'

/-- **A document within the limit is processed as its events.** -/
theorem consume_document {d : Document} {events : List ServerEvent} (hfits : d.Fits)
    (hrenders : Renders events d.blocks) (hlimit : d.bytes.length ≤ maxBytes) :
    (consumeSse loads maxBytes d.bytes).2 = processEvents loads events .new := by
  have hclosed : ∀ b ∈ d.closed, ∀ i ∈ b.1, Item.Fits i.1 := by
    intro b hb i hi
    exact hfits _ (List.mem_append_left _ (List.mem_map_of_mem hb)) _ (List.mem_map_of_mem hi)
  have hlast : ∀ i ∈ d.last.map Prod.fst ++ d.unterminated.toList, Item.Fits i :=
    fun i hi => hfits _ (List.mem_append_right _ (List.mem_singleton.mpr rfl)) i hi
  have hlines : ∀ l ∈ d.lines, OneLine l.1 := by
    intro l hl
    rcases List.mem_append.mp hl with hl | hl
    · obtain ⟨b, hb, hl⟩ := List.mem_flatMap.mp hl
      rcases List.mem_append.mp hl with hl | hl
      · obtain ⟨i, hi, rfl⟩ := List.mem_map.mp hl
        exact (hclosed b hb i hi).oneLine
      · rw [List.mem_singleton.mp hl]
        exact ⟨List.not_mem_nil, List.not_mem_nil⟩
    · obtain ⟨i, hi, rfl⟩ := List.mem_map.mp hl
      exact (hlast _ (List.mem_append_left _ (List.mem_map_of_mem hi))).oneLine
  have hbytes : d.bytes = lineBytes d.lines ++ encode ((d.unterminated.map Item.text).getD []) := rfl
  have hlength : (lineBytes d.lines).length + (encode ((d.unterminated.map Item.text).getD [])).length ≤
      maxBytes := by
    rw [hbytes, List.length_append] at hlimit
    exact hlimit
  have htexts : d.lines.map Prod.fst = d.closed.flatMap (fun b => b.1.map (fun i => i.1.text) ++ [[]]) ++
      (d.last.map Prod.fst).map Item.text := by
    simp [Document.lines, List.map_flatMap, List.map_map, Function.comp_def]
  have hopen : ∀ (state : StreamState) (read : Nat),
      read + (encode ((d.unterminated.map Item.text).getD [])).length ≤ maxBytes →
        (consumeFrom loads maxBytes read ((d.last.map Prod.fst).foldl Gathered.add ⟨state, "", []⟩)
          (encode ((d.unterminated.map Item.text).getD []))).2 =
            processBlocks loads [d.last.map Prod.fst ++ d.unterminated.toList] state := by
    intro state read hread
    have hone : processBlocks loads [d.last.map Prod.fst ++ d.unterminated.toList] state =
        ((d.last.map Prod.fst ++ d.unterminated.toList).foldl Gathered.add ⟨state, "", []⟩).finish loads := by
      rw [finish_block, processBlocks, List.foldlM_cons]
      exact bind_pure _
    rw [hone]
    cases hend : d.unterminated with
    | none =>
      rw [Option.toList_none, List.append_nil]
      show (consumeFrom loads maxBytes read _ []).2 = _
      rw [consumeFrom_end rfl]
    | some i =>
      have hi : Item.Fits i := hlast i (List.mem_append_right _ (by rw [hend]; exact List.mem_singleton.mpr rfl))
      rw [hend] at hread
      show (consumeFrom loads maxBytes read _ (encode i.text)).2 = _
      rw [consumeFrom_last hi.oneLine hi.ne_nil hread, consumeLine_item hi, Option.toList_some,
        List.foldl_append]
      rfl
  have hitems := @foldlM_items loads (d.last.map Prod.fst)
    (fun i hi => hlast i (List.mem_append_left _ hi))
  rw [← hrenders.process, consumeSse, hbytes, consumeFrom_lines hlines (by omega), htexts, List.foldlM_append]
  show (Except.bind (List.foldlM (consumeLine loads) ⟨.new, "", []⟩ _) _).bind _ = _
  rw [foldlM_closed hclosed, Document.blocks, processBlocks_append]
  cases processBlocks loads (d.closed.map (fun b => b.1.map Prod.fst)) .new with
  | error e => rfl
  | ok state =>
    show (List.foldlM (consumeLine loads) ⟨state, "", []⟩ _).bind _ = _
    rw [hitems]
    exact hopen state _ (by omega)

/-! ## The laws -/

/-- **Every rendering of a list of events is processed as the events, and the
limit is met by longer streams only.** The stream of a document that says the
events, within the limit, leads to the state the events lead to, one by one; of
any stream at most one byte beyond the limit is read, no stream beyond it is
accepted, and one that is not is processed as without a limit. -/
theorem event_stream_laws (loads : String → Except LoadError Value) (maxBytes : Nat) :
    (∀ (d : Document) (events : List ServerEvent), d.Fits → Renders events d.blocks →
      d.bytes.length ≤ maxBytes → (consumeSse loads maxBytes d.bytes).2 = processEvents loads events .new) ∧
    (∀ stream, (consumeSse loads maxBytes stream).1 ≤ maxBytes + 1) ∧
    (∀ stream, maxBytes < stream.length → ∃ e, (consumeSse loads maxBytes stream).2 = .error e) ∧
    ∀ stream larger, stream.length ≤ maxBytes → maxBytes ≤ larger →
      consumeSse loads maxBytes stream = consumeSse loads larger stream := by
  refine ⟨fun d events hfits hrenders hlimit => consume_document hfits hrenders hlimit,
    fun stream => consumeFrom_bounded (Nat.zero_le _), fun stream hlong => ?_, fun stream larger h hlarger => ?_⟩
  · exact consumeFrom_long (Nat.zero_le _) (by omega)
  · exact consumeFrom_limit hlarger (by omega)

/-- A completed text over two data lines, in a block that nothing ends. -/
def doneDocument : Document where
  closed := []
  last := [(.ignored ": ping".toList, .lf), (.event .spaced "response.output_text.done".toList, .crlf),
    (.data .tight "\x7b".toList, .lf)]
  unterminated := some (.data .spaced "\"text\": \"hi\"\x7d".toList)

def doneEvent : ServerEvent := ("response.output_text.done", "\x7b\n\"text\": \"hi\"\x7d")

/-- The one document that is loaded here. -/
def doneLoads (text : String) : Except LoadError Value :=
  if text = doneEvent.2 then .ok (.dict [("text", .str "hi")]) else .error .invalid

theorem event_stream_laws_done :
    (consumeSse doneLoads 1024 doneDocument.bytes).2 = processEvents doneLoads [doneEvent] .new ∧
      ∃ e, (consumeSse doneLoads 8 (List.replicate 9 65)).2 = .error e := by
  have hfits : doneDocument.Fits := by
    intro b hb i hi
    obtain rfl : b = _ := List.mem_singleton.mp hb
    simp only [doneDocument, List.map_cons, List.map_nil, Option.toList_some, List.cons_append, List.nil_append,
      List.mem_cons, List.not_mem_nil, or_false] at hi
    obtain rfl | rfl | rfl | rfl := hi
    · exact ⟨by decide, by decide, .inl rfl⟩
    · exact ⟨by decide, trivial⟩
    · exact ⟨by decide, show _ ≠ _ by decide⟩
    · exact ⟨by decide, trivial⟩
  have hrenders : Renders [doneEvent] doneDocument.blocks := by
    exact @Renders.event [] [] (doneDocument.blocks.headD []) (by decide) .nil
  obtain ⟨hprocess, -, -, -⟩ := event_stream_laws doneLoads 1024
  obtain ⟨-, -, hlong, -⟩ := event_stream_laws doneLoads 8
  refine ⟨hprocess doneDocument [doneEvent] hfits hrenders ?_, hlong _ (by decide)⟩
  decide

end QuantumEntanglement.Adapters
