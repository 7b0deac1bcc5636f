import LiteralLint.Proofs.Rules

/-! # Scans by Index

  The scan as a loop that reads the characters of a line by index. In a scan
  state, the current line is cut where the scan is, so that nothing can be
  read outside of it. A cursor has the whole line and an index, and each read
  states what happens where the index is out of range.

  The key ideas:

  - A cursor shows a scan state when the line, cut at the index, is what the
    state has passed and has ahead (`Cursor.Shows`).
  - A field that a region has no use for is reset (`Cursor.Keeps`). Outside of
    literals these are the content, the escape and the quotes, and inside of
    one, what is kept for the other delimiter.
  - Each rule of a scan is one step of a cursor that shows the state before
    it, and no read of that step is out of range (`Cursor.Shows.follows`). The
    rules for line ends are the cases of loading the next line
    (`Cursor.Shows.nextLine`, `Cursor.Shows.finish`).

  A null character stands for the end of the line where the cursor looks
  ahead. What is proved of steps includes that it is never seen as such.
-/

namespace LiteralLint

namespace Scan

/-! ### Cursors -/

/-- An index that is not one of its line. -/
structure OutOfRange where
  index : Nat
  size : Nat
  deriving DecidableEq, Repr

/-- A scan with an index into the current line. When a literal is closed or
    dropped, its content, its escape and its quotes are reset; its mark and the
    number of its line stay until the next one opens. -/
structure Cursor where
  /-- The lines not yet entered. -/
  pending : List String
  /-- The characters of the current line. -/
  chars : Array Char
  /-- The index of the next character. -/
  pos : Nat
  /-- The number of the current line. -/
  line : Nat
  /-- The delimiter of the literal that is open. -/
  delimiter? : Option Delimiter
  /-- The content of the literal so far. -/
  content : String
  /-- The mark of the literal. -/
  mark : Mark
  /-- The number of the line on which the literal opens. -/
  start : Nat
  /-- Whether the next character of a single literal is escaped. -/
  escaped : Bool
  /-- How many quotes of a triple literal are held back. -/
  quotes : Nat
  /-- The events so far, in order. -/
  log : List Event
  deriving DecidableEq, Repr

namespace Cursor

/-- The cursor before a source is scanned. -/
def initial (source : Source) : Cursor :=
  ⟨source.lines.toList, #[], 0, 0, none, "", .bare, 0, false, 0, []⟩

/-! ### Reading by Index -/

/-- Whether the current line has been passed. -/
def atLineEnd (c : Cursor) : Bool := c.chars.size ≤ c.pos

/-- The character at an index. -/
def charAt (c : Cursor) (index : Nat) : Except OutOfRange Char :=
  match c.chars[index]? with
  | some char => .ok char
  | none => .error ⟨index, c.chars.size⟩

/-- The next character, and a null character at the end of the line. -/
def peek (c : Cursor) : Except OutOfRange Char :=
  if c.atLineEnd then .ok '\x00' else c.charAt c.pos

/-- The character before the next one. There is none at the start of the
    line. -/
def previous? (c : Cursor) : Except OutOfRange (Option Char) :=
  if c.pos = 0 then .ok none else (c.charAt (c.pos - 1)).map some

/-- How many of the next three characters are quotes in a row. The part of the
    line that is looked at begins at the index. -/
def quotesAhead (c : Cursor) : Except OutOfRange Nat :=
  if c.pos ≤ c.chars.size then
    .ok (((c.chars.toList.drop c.pos).take 3).takeWhile (· = '"')).length
  else .error ⟨c.pos, c.chars.size⟩

/-- Pass the next character, unless the line has been passed. -/
def advance (c : Cursor) : Cursor :=
  if c.atLineEnd then c else { c with pos := c.pos + 1 }

/-! ### Steps -/

/-- The quotes held back become content. -/
def flush (c : Cursor) : Cursor :=
  { c with content := c.content ++ String.ofList (List.replicate c.quotes '"'), quotes := 0 }

/-- Forget the open literal. -/
def clear (c : Cursor) : Cursor :=
  { c with delimiter? := none, content := "", escaped := false, quotes := 0 }

/-- Close the open literal. -/
def close (c : Cursor) (delimiter : Delimiter) : Option Literal × Cursor :=
  (some ⟨c.content, c.mark, c.start, delimiter⟩,
    { c.clear with log := c.log ++ [.closed c.start delimiter c.mark] })

/-- Drop the open literal. -/
def discard (c : Cursor) (delimiter : Delimiter) : Cursor :=
  { c.clear with log := c.log ++ [.discarded c.start delimiter] }

/-- The cursor as it is when a literal opens here, after the character
    `preceding?`. -/
def begin (c : Cursor) (preceding? : Option Char) : Cursor :=
  { c with
    mark := .ofPreceding preceding?
    start := c.line
    content := ""
    escaped := false
    quotes := 0 }

/-- Open a literal on so many quotes, and close it if it is empty. -/
def openOn (c : Cursor) (quotes : Nat) : Option Literal × Cursor :=
  match quotes with
  | 3 => (none, { c with pos := c.pos + 3, delimiter? := some .triple })
  | 2 => { c with pos := c.pos + 2 }.close .single
  | _ => (none, { c with pos := c.pos + 1, delimiter? := some .single })

/-- Open a literal. -/
def openLiteral (c : Cursor) : Except OutOfRange (Option Literal × Cursor) := do
  let preceding? ← c.previous?
  let quotes ← c.quotesAhead
  return (c.begin preceding?).openOn quotes

/-- Take in a character of a single literal that has been passed. -/
def readSingle (c : Cursor) (char : Char) : Option Literal × Cursor :=
  if char = '"' ∧ c.escaped = false then c.close .single
  else (none, { c with content := c.content.push char, escaped := char = '\\' && !c.escaped })

/-- Take in a character of a triple literal that has been passed. -/
def readTriple (c : Cursor) (char : Char) : Option Literal × Cursor :=
  if char = '"' then
    if c.quotes + 1 = 3 then c.close .triple else (none, { c with quotes := c.quotes + 1 })
  else (none, { c.flush with content := c.flush.content.push char })

/-- Pass a character, or the quotes that open a literal; the answer is the
    literal that this completes, if any. -/
def step (c : Cursor) : Except OutOfRange (Option Literal × Cursor) := do
  let char ← c.peek
  match c.delimiter? with
  | none => if char = '"' then c.openLiteral else return (none, c.advance)
  | some .single => return c.advance.readSingle char
  | some .triple => return c.advance.readTriple char

/-- The cursor after it passes a character that is neither a quote nor a
    backslash: outside of literals it forgets the character, and inside it
    keeps it. -/
def passing (c : Cursor) (char : Char) : Cursor :=
  match c.delimiter? with
  | none => { c with pos := c.pos + 1 }
  | some .single =>
    { c with pos := c.pos + 1, content := c.content.push char, escaped := false }
  | some .triple =>
    { c.flush with pos := c.pos + 1, content := c.flush.content.push char }

/-- The end of the current line: it drops a single literal and is content of a
    triple one. -/
def endLine (c : Cursor) : Cursor :=
  match c.delimiter? with
  | none => c
  | some .single => c.discard .single
  | some .triple => { c.flush with content := c.flush.content.push '\n' }

/-- The end of the source: it drops the literal that is open. -/
def endSource (c : Cursor) : Cursor :=
  match c.delimiter? with
  | none => c
  | some delimiter => c.discard delimiter

/-- End the current line and load the next one; the answer is whether there is
    one. -/
def nextLine (c : Cursor) : Bool × Cursor :=
  match c.pending with
  | text :: pending =>
    (true,
      { c.endLine with
        line := c.line + 1, chars := text.toList.toArray, pos := 0, pending := pending })
  | [] => (false, { c.endLine.endSource with chars := #[], pos := 0 })

/-! ### What a Cursor Shows -/

/-- A cursor keeps what a region remembers, and what the region has no use for
    is reset. Outside of literals, only the mark and the line of the last one
    are left. -/
def Keeps (c : Cursor) : Region → Prop
  | .outside => c.delimiter? = none ∧ c.content = "" ∧ c.escaped = false ∧ c.quotes = 0
  | .single opening content escaped =>
    c.delimiter? = some .single ∧ c.content = String.ofList content.reverse
      ∧ c.mark = opening.mark ∧ c.start = opening.line ∧ c.escaped = escaped ∧ c.quotes = 0
  | .triple opening content quotes =>
    c.delimiter? = some .triple ∧ c.content = String.ofList content.reverse
      ∧ c.mark = opening.mark ∧ c.start = opening.line ∧ c.escaped = false ∧ c.quotes = quotes

/-- A cursor shows a scan state: it is at the same place of the same line and
    inside of the same region. Once nothing is ahead, the characters passed do
    not matter. -/
structure Shows (c : Cursor) (s : State) : Prop where
  line_eq : c.line = s.line
  pending_eq : c.pending = s.pending
  pos_le : c.pos ≤ c.chars.size
  rest_eq : c.chars.toList.drop c.pos = s.rest
  passed_eq : s.rest ≠ [] → (c.chars.toList.take c.pos).reverse = s.passed
  keeps : c.Keeps s.region

theorem shows_initial (source : Source) : (initial source).Shows (.initial source) where
  line_eq := rfl
  pending_eq := rfl
  pos_le := Nat.le_refl _
  rest_eq := rfl
  passed_eq := fun _ => rfl
  keeps := ⟨rfl, rfl, rfl, rfl⟩

/-- Whatever is open, nothing is kept of it once it is closed. -/
theorem keeps_close (c : Cursor) (delimiter : Delimiter) :
    (c.close delimiter).2.Keeps .outside :=
  ⟨rfl, rfl, rfl, rfl⟩

/-- Nor is anything kept of a literal that is dropped. -/
theorem keeps_discard (c : Cursor) (delimiter : Delimiter) :
    (c.discard delimiter).Keeps .outside :=
  ⟨rfl, rfl, rfl, rfl⟩

variable {c d : Cursor} {s t : State} {label : Label}

/-! ### Reads in Range -/

section Range

/-- No more quotes are counted than characters are ahead. -/
theorem exists_quotesAhead (hle : c.pos ≤ c.chars.size) :
    ∃ quotes, c.quotesAhead = .ok quotes ∧ c.pos + quotes ≤ c.chars.size := by
  refine ⟨_, if_pos hle, ?_⟩
  have hcount := (((c.chars.toList.drop c.pos).take 3).takeWhile_sublist (· = '"')).length_le
  have hsize : c.chars.toList.length = c.chars.size := Array.length_toList
  rw [List.length_take, List.length_drop, hsize] at hcount
  omega

variable (hlt : c.pos < c.chars.size)
include hlt

theorem atLineEnd_of_lt : c.atLineEnd = false := decide_eq_false (Nat.not_le.2 hlt)

theorem peek_of_lt : c.peek = .ok c.chars[c.pos] := by
  rw [peek, atLineEnd_of_lt hlt, charAt, Array.getElem?_eq_getElem hlt]
  rfl

theorem previous?_of_lt :
    c.previous? = .ok (if c.pos = 0 then none else c.chars[c.pos - 1]?) := by
  rw [previous?]
  split
  · rfl
  · rw [charAt, Array.getElem?_eq_getElem (by omega)]
    rfl

theorem advance_of_lt : c.advance = { c with pos := c.pos + 1 } := by
  rw [advance, atLineEnd_of_lt hlt]
  rfl

end Range

/-- Nothing is ahead where the cursor has passed the line. -/
theorem Shows.atLineEnd_iff (h : c.Shows s) : c.atLineEnd = true ↔ s.rest = [] := by
  rw [← h.rest_eq, List.drop_eq_nil_iff, atLineEnd, decide_eq_true_eq, Array.length_toList]

section Reads

variable {char : Char} {rest : List Char}

theorem Shows.getElem? (h : c.Shows s) (hrest : s.rest = char :: rest) :
    c.chars[c.pos]? = some char := by
  rw [← Array.getElem?_toList, ← List.head?_drop, h.rest_eq, hrest]
  rfl

theorem Shows.pos_lt (h : c.Shows s) (hrest : s.rest = char :: rest) : c.pos < c.chars.size :=
  (Array.getElem?_eq_some_iff.1 (h.getElem? hrest)).1

/-- The next character is the first one ahead. -/
theorem Shows.peek_eq (h : c.Shows s) (hrest : s.rest = char :: rest) : c.peek = .ok char := by
  obtain ⟨hlt, hchar⟩ := Array.getElem?_eq_some_iff.1 (h.getElem? hrest)
  rw [peek_of_lt hlt, hchar]

theorem Shows.advance_eq (h : c.Shows s) (hrest : s.rest = char :: rest) :
    c.advance = { c with pos := c.pos + 1 } :=
  advance_of_lt (h.pos_lt hrest)

/-- The character before is the last one passed. -/
theorem Shows.previous?_eq (h : c.Shows s) (hrest : s.rest = char :: rest) :
    c.previous? = .ok s.passed.head? := by
  have hpassed := h.passed_eq (by simp [hrest])
  -- Both sides have no character at the start of the line.
  rw [previous?_of_lt (h.pos_lt hrest), ← hpassed, List.head?_reverse, List.getLast?_take]
  split
  · rfl
  · have hlt := h.pos_lt hrest
    rw [Array.getElem?_toList, Array.getElem?_eq_getElem (by omega)]
    rfl

theorem Shows.quotesAhead_eq (h : c.Shows s) :
    c.quotesAhead = .ok ((s.rest.take 3).takeWhile (· = '"')).length := by
  rw [quotesAhead, if_pos h.pos_le, h.rest_eq]

end Reads

/-! ### Steps on a Line -/

/-- From `c` to `d`, a number of characters of the line are passed. -/
structure Passes (c d : Cursor) (count : Nat) : Prop where
  chars_eq : d.chars = c.chars
  pos_eq : d.pos = c.pos + count
  line_eq : d.line = c.line
  pending_eq : d.pending = c.pending

/-- A cursor that passes what is ahead shows the state after it. -/
theorem Shows.pass {line : Nat} {passed rest : List Char} {pending : List String}
    {region region' : Region} (word : List Char)
    (h : c.Shows ⟨line, passed, word ++ rest, pending, region⟩)
    (hpass : Passes c d word.length) (hkeeps : d.Keeps region') :
    d.Shows ⟨line, word.reverse ++ passed, rest, pending, region'⟩ := by
  obtain ⟨hchars, hpos, hline, hpending⟩ := hpass
  -- What is ahead is at the index of the line, so its length bounds the index.
  have hrest := h.rest_eq
  refine ⟨hline.trans h.line_eq, hpending.trans h.pending_eq, ?_, ?_, fun hne => ?_, hkeeps⟩
  · have hlength := congrArg List.length hrest
    have hle := h.pos_le
    rw [List.length_drop, Array.length_toList, List.length_append] at hlength
    rw [hchars, hpos]
    omega
  · rw [hchars, hpos, ← List.drop_drop, hrest, List.drop_left]
  · have hpassed := h.passed_eq (by simp_all)
    rw [hchars, hpos, List.take_add, hrest, List.take_left, List.reverse_append, hpassed]

/-- A step of a cursor is a step of a scan: it answers with the literal that
    the step of the scan completes, adds its event, and passes between one and
    three characters. -/
structure Follows (c : Cursor) (label : Label) (t : State) (d : Cursor) : Prop where
  step_eq : c.step = .ok (label.literal?, d)
  passes : Passes c d 1 ∨ Passes c d 2 ∨ Passes c d 3
  shows : d.Shows t
  log_eq : d.log = c.log ++ label.event?.toList

section Steps

variable {line : Nat} {passed rest : List Char} {pending : List String} {opening : Opening}
  {content : List Char} {escaped : Bool} {quotes : Nat} {char : Char}

/-- The delimiter that is open decides what a step does with the character that
    it sees. -/
theorem step_eq (hpeek : c.peek = .ok char) :
    c.step = match c.delimiter? with
      | none => if char = '"' then c.openLiteral else .ok (none, c.advance)
      | some .single => .ok (c.advance.readSingle char)
      | some .triple => .ok (c.advance.readTriple char) := by
  unfold Cursor.step
  rw [hpeek]
  rfl

theorem step_outside (hpeek : c.peek = .ok char) (hnone : c.delimiter? = none) :
    c.step = if char = '"' then c.openLiteral else .ok (none, c.advance) := by
  rw [step_eq hpeek, hnone]

theorem step_single (hpeek : c.peek = .ok char) (hsingle : c.delimiter? = some .single) :
    c.step = .ok (c.advance.readSingle char) := by
  rw [step_eq hpeek, hsingle]

theorem step_triple (hpeek : c.peek = .ok char) (htriple : c.delimiter? = some .triple) :
    c.step = .ok (c.advance.readTriple char) := by
  rw [step_eq hpeek, htriple]

/-- A character that is neither a quote nor a backslash is passed, whichever it
    is. -/
theorem step_passing (hlt : c.pos < c.chars.size) (hquote : c.chars[c.pos] ≠ '"')
    (hbackslash : c.chars[c.pos] ≠ '\\') : c.step = .ok (none, c.passing c.chars[c.pos]) := by
  have hpass := advance_of_lt hlt
  rw [step_eq (peek_of_lt hlt), passing]
  cases hopen : c.delimiter? with
  | none => simp [hpass, hopen, hquote]
  | some delimiter =>
    cases delimiter with
    | single => simp [hpass, hopen, readSingle, hquote, hbackslash]
    | triple => simp [hpass, hopen, readTriple, flush, hquote]

/-- What opens is decided by the character before the quotes and by how many
    they are. -/
theorem Shows.step_quote (h : c.Shows ⟨line, passed, '"' :: rest, pending, .outside⟩) :
    c.step = .ok ((c.begin passed.head?).openOn
      ((('"' :: rest).take 3).takeWhile (· = '"')).length) := by
  rw [step_outside (h.peek_eq rfl) h.keeps.1, if_pos rfl, openLiteral, h.previous?_eq rfl,
    h.quotesAhead_eq]
  rfl

/-! Each rule that passes characters, as a step. -/

theorem Shows.follows_skip (h : c.Shows ⟨line, passed, char :: rest, pending, .outside⟩)
    (hchar : char ≠ '"') :
    ∃ d, c.Follows .skipped ⟨line, char :: passed, rest, pending, .outside⟩ d := by
  refine ⟨{ c with pos := c.pos + 1 }, ?_, .inl ⟨rfl, rfl, rfl, rfl⟩,
    h.pass [char] ⟨rfl, rfl, rfl, rfl⟩ h.keeps, (List.append_nil _).symm⟩
  rw [step_outside (h.peek_eq rfl) h.keeps.1, if_neg hchar, h.advance_eq rfl]
  rfl

theorem Shows.follows_openTriple
    (h : c.Shows ⟨line, passed, '"' :: '"' :: '"' :: rest, pending, .outside⟩) :
    ∃ d, c.Follows (.opened ⟨line, passed⟩ .triple)
      ⟨line, '"' :: '"' :: '"' :: passed, rest, pending, .triple ⟨line, passed⟩ [] 0⟩ d := by
  refine ⟨{ c.begin passed.head? with pos := c.pos + 3, delimiter? := some .triple }, ?_,
    .inr (.inr ⟨rfl, rfl, rfl, rfl⟩),
    h.pass ['"', '"', '"'] ⟨rfl, rfl, rfl, rfl⟩ ⟨rfl, rfl, rfl, h.line_eq, rfl, rfl⟩,
    (List.append_nil _).symm⟩
  rw [h.step_quote]
  rfl

/-- No more quotes are ahead than there are. -/
theorem takeWhile_quotes_of_head? (hrest : rest.head? ≠ some '"') (count : Nat) :
    (rest.take count).takeWhile (· = '"') = [] := by
  cases count with
  | zero => rfl
  | succ count =>
    cases rest with
    | nil => rfl
    | cons char rest => exact List.takeWhile_cons_of_neg (by simpa using hrest)

theorem Shows.follows_pair (h : c.Shows ⟨line, passed, '"' :: '"' :: rest, pending, .outside⟩)
    (hrest : rest.head? ≠ some '"') :
    ∃ d, c.Follows (.paired ⟨line, passed⟩)
      ⟨line, '"' :: '"' :: passed, rest, pending, .outside⟩ d := by
  have hcount : ((('"' :: '"' :: rest).take 3).takeWhile (· = '"')).length = 2 := by
    simp [takeWhile_quotes_of_head? hrest]
  obtain rfl : c.line = line := h.line_eq
  let d := { c.begin passed.head? with pos := c.pos + 2 }
  refine ⟨(d.close .single).2, ?_, .inr (.inl ⟨rfl, rfl, rfl, rfl⟩),
    h.pass ['"', '"'] ⟨rfl, rfl, rfl, rfl⟩ (keeps_close d .single), rfl⟩
  rw [h.step_quote, hcount]
  rfl

theorem Shows.follows_openSingle (h : c.Shows ⟨line, passed, '"' :: rest, pending, .outside⟩)
    (hrest : rest.head? ≠ some '"') :
    ∃ d, c.Follows (.opened ⟨line, passed⟩ .single)
      ⟨line, '"' :: passed, rest, pending, .single ⟨line, passed⟩ [] false⟩ d := by
  have hcount : ((('"' :: rest).take 3).takeWhile (· = '"')).length = 1 := by
    simp [takeWhile_quotes_of_head? hrest]
  refine ⟨{ c.begin passed.head? with pos := c.pos + 1, delimiter? := some .single }, ?_,
    .inl ⟨rfl, rfl, rfl, rfl⟩,
    h.pass ['"'] ⟨rfl, rfl, rfl, rfl⟩ ⟨rfl, rfl, rfl, h.line_eq, rfl, rfl⟩,
    (List.append_nil _).symm⟩
  rw [h.step_quote, hcount]
  rfl

/-- A quote closes a literal that is kept. -/
theorem Shows.follows_close {region : Region} {delimiter : Delimiter}
    (h : c.Shows ⟨line, passed, '"' :: rest, pending, region⟩)
    (hstep : c.step = .ok (c.advance.close delimiter))
    (hcontent : c.content = String.ofList content.reverse) (hmark : c.mark = opening.mark)
    (hstart : c.start = opening.line) :
    ∃ d, c.Follows (.closed opening delimiter content)
      ⟨line, '"' :: passed, rest, pending, .outside⟩ d := by
  let d := { c with pos := c.pos + 1 }
  refine ⟨(d.close delimiter).2, ?_, .inl ⟨rfl, rfl, rfl, rfl⟩,
    h.pass ['"'] ⟨rfl, rfl, rfl, rfl⟩ (keeps_close d delimiter), ?_⟩
  · rw [hstep, h.advance_eq rfl, Label.literal?, ← hcontent, ← hmark, ← hstart]
    rfl
  · rw [Label.event?, ← hmark, ← hstart]
    rfl

theorem Shows.follows_closeSingle
    (h : c.Shows ⟨line, passed, '"' :: rest, pending, .single opening content false⟩) :
    ∃ d, c.Follows (.closed opening .single content)
      ⟨line, '"' :: passed, rest, pending, .outside⟩ d := by
  obtain ⟨hsingle, hcontent, hmark, hstart, hescaped, -⟩ := h.keeps
  refine h.follows_close ?_ hcontent hmark hstart
  rw [step_single (h.peek_eq rfl) hsingle, h.advance_eq rfl, readSingle, if_pos ⟨rfl, hescaped⟩]

/-- A character is put after a content that is kept. -/
theorem push_ofList_reverse (content : List Char) (char : Char) :
    (String.ofList content.reverse).push char = String.ofList (char :: content).reverse := by
  apply String.toList_injective
  simp

/-- Quotes that were held back and a character are put after a content that is
    kept. -/
theorem flush_push (hcontent : c.content = String.ofList content.reverse) (char : Char) :
    c.flush.content.push char = String.ofList (char :: withQuotes c.quotes content).reverse := by
  apply String.toList_injective
  simp [flush, hcontent, withQuotes]

theorem Shows.follows_readSingle
    (h : c.Shows ⟨line, passed, char :: rest, pending, .single opening content escaped⟩)
    (hchar : ¬ (char = '"' ∧ escaped = false)) :
    ∃ d, c.Follows .read ⟨line, char :: passed, rest, pending,
      .single opening (char :: content) (char = '\\' && !escaped)⟩ d := by
  obtain ⟨hsingle, hcontent, hmark, hstart, rfl, hquotes⟩ := h.keeps
  have hpush : c.content.push char = String.ofList (char :: content).reverse := by
    rw [hcontent, push_ofList_reverse]
  refine ⟨{ c with
      pos := c.pos + 1
      content := c.content.push char
      escaped := char = '\\' && !c.escaped }, ?_,
    .inl ⟨rfl, rfl, rfl, rfl⟩,
    h.pass [char] ⟨rfl, rfl, rfl, rfl⟩ ⟨hsingle, hpush, hmark, hstart, rfl, hquotes⟩,
    (List.append_nil _).symm⟩
  rw [step_single (h.peek_eq rfl) hsingle, h.advance_eq rfl, readSingle, if_neg hchar]
  rfl

theorem Shows.follows_closeTriple
    (h : c.Shows ⟨line, passed, '"' :: rest, pending, .triple opening content 2⟩) :
    ∃ d, c.Follows (.closed opening .triple content)
      ⟨line, '"' :: passed, rest, pending, .outside⟩ d := by
  obtain ⟨htriple, hcontent, hmark, hstart, -, hquotes⟩ := h.keeps
  refine h.follows_close ?_ hcontent hmark hstart
  rw [step_triple (h.peek_eq rfl) htriple, h.advance_eq rfl, readTriple, if_pos rfl,
    if_pos (congrArg (· + 1) hquotes)]

theorem Shows.follows_holdQuote
    (h : c.Shows ⟨line, passed, '"' :: rest, pending, .triple opening content quotes⟩)
    (hquotes : quotes ≠ 2) :
    ∃ d, c.Follows .read
      ⟨line, '"' :: passed, rest, pending, .triple opening content (quotes + 1)⟩ d := by
  obtain ⟨htriple, hcontent, hmark, hstart, hescaped, rfl⟩ := h.keeps
  refine ⟨{ c with pos := c.pos + 1, quotes := c.quotes + 1 }, ?_, .inl ⟨rfl, rfl, rfl, rfl⟩,
    h.pass ['"'] ⟨rfl, rfl, rfl, rfl⟩ ⟨htriple, hcontent, hmark, hstart, hescaped, rfl⟩,
    (List.append_nil _).symm⟩
  have hthird : c.quotes + 1 ≠ 3 := by omega
  rw [step_triple (h.peek_eq rfl) htriple, h.advance_eq rfl, readTriple, if_pos rfl, if_neg hthird]
  rfl

theorem Shows.follows_readTriple
    (h : c.Shows ⟨line, passed, char :: rest, pending, .triple opening content quotes⟩)
    (hchar : char ≠ '"') :
    ∃ d, c.Follows .read ⟨line, char :: passed, rest, pending,
      .triple opening (char :: withQuotes quotes content) 0⟩ d := by
  obtain ⟨htriple, hcontent, hmark, hstart, hescaped, rfl⟩ := h.keeps
  have hpush := flush_push hcontent char
  refine ⟨{ c.flush with pos := c.pos + 1, content := c.flush.content.push char }, ?_,
    .inl ⟨rfl, rfl, rfl, rfl⟩,
    h.pass [char] ⟨rfl, rfl, rfl, rfl⟩ ⟨htriple, hpush, hmark, hstart, hescaped, rfl⟩,
    (List.append_nil _).symm⟩
  rw [step_triple (h.peek_eq rfl) htriple, h.advance_eq rfl, readTriple, if_neg hchar]
  rfl

end Steps

/-- **A cursor follows a scan along the line.** Whatever the scan does with what
    is ahead, a cursor that shows its state does it in one step. -/
theorem Shows.follows (h : c.Shows s) (hrule : Rule s label t) (hrest : s.rest ≠ []) :
    ∃ d, c.Follows label t d := by
  cases hrule with
  | skip hchar => exact h.follows_skip hchar
  | openTriple => exact h.follows_openTriple
  | pair hhead => exact h.follows_pair hhead
  | openSingle hhead => exact h.follows_openSingle hhead
  | closeSingle => exact h.follows_closeSingle
  | readSingle hchar => exact h.follows_readSingle hchar
  | closeTriple => exact h.follows_closeTriple
  | holdQuote hquotes => exact h.follows_holdQuote hquotes
  | readTriple hchar => exact h.follows_readTriple hchar
  | turnOutside | turnSingle | turnTriple | dropSingle | dropTriple => exact absurd rfl hrest

/-! ### Line Ends -/

section LineEnds

variable {line : Nat} {passed : List Char} {text : String} {pending : List String}
  {region : Region}

theorem endLine_outside (hnone : c.delimiter? = none) : c.endLine = c := by
  rw [endLine, hnone]

theorem endLine_single (hsingle : c.delimiter? = some .single) :
    c.endLine = c.discard .single := by
  rw [endLine, hsingle]

theorem endLine_triple (htriple : c.delimiter? = some .triple) :
    c.endLine = { c.flush with content := c.flush.content.push '\n' } := by
  rw [endLine, htriple]

theorem endSource_outside (hnone : c.delimiter? = none) : c.endSource = c := by
  rw [endSource, hnone]

theorem endSource_open {delimiter : Delimiter} (hopen : c.delimiter? = some delimiter) :
    c.endSource = c.discard delimiter := by
  rw [endSource, hopen]

theorem nextLine_cons (hpending : c.pending = text :: pending) :
    c.nextLine
      = (true, { c.endLine with
          line := c.line + 1, chars := text.toList.toArray, pos := 0, pending := pending }) := by
  unfold nextLine
  rw [hpending]

theorem nextLine_nil (hpending : c.pending = []) :
    c.nextLine = (false, { c.endLine.endSource with chars := #[], pos := 0 }) := by
  unfold nextLine
  rw [hpending]

/-- A cursor that loads a line shows the scan at its start, inside of the region
    that the end of the line before leaves. -/
theorem exists_loaded (hpending : c.pending = text :: pending) (hend : c.endLine = d)
    (hline : c.line + 1 = line) (hkeeps : d.Keeps region) :
    ∃ e, c.nextLine = (true, e) ∧ e.Shows ⟨line, [], text.toList, pending, region⟩
      ∧ e.log = d.log ∧ c.pending.length = e.pending.length + 1 := by
  let e := { d with line := c.line + 1, chars := text.toList.toArray, pos := 0, pending }
  have hnext : c.nextLine = (true, e) := by rw [nextLine_cons hpending, hend]
  have hregion : e.Keeps region := by cases region <;> exact hkeeps
  exact ⟨e, hnext, ⟨hline, rfl, Nat.zero_le _, rfl, fun _ => rfl, hregion⟩, rfl,
    congrArg List.length hpending⟩

/-- A cursor that finds no further line shows the end of the scan. -/
theorem exists_ended (hpending : c.pending = []) (hend : c.endLine.endSource = d)
    (hline : d.line = line) (hlast : d.pending = []) (hkeeps : d.Keeps .outside) :
    ∃ e, c.nextLine = (false, e) ∧ e.Shows ⟨line, passed, [], [], .outside⟩
      ∧ e.log = d.log := by
  let e := { d with chars := #[], pos := 0 }
  have hnext : c.nextLine = (false, e) := by rw [nextLine_nil hpending, hend]
  exact ⟨e, hnext, ⟨hline, hlast, Nat.zero_le _, rfl, fun hne => absurd rfl hne, hkeeps⟩, rfl⟩

/-- **A cursor follows a scan across line ends.** It loads the next line, which
    completes no literal. -/
theorem Shows.nextLine (h : c.Shows s) (hrule : Rule s label t) (hrest : s.rest = [])
    (hpending : s.pending ≠ []) :
    ∃ d, c.nextLine = (true, d) ∧ label.literal? = none ∧ d.Shows t
      ∧ d.log = c.log ++ label.event?.toList ∧ c.pending.length = d.pending.length + 1 := by
  have hline := congrArg (· + 1) h.line_eq
  cases hrule with
  | turnOutside =>
    obtain ⟨d, hnext, hd, hlog, hless⟩ :=
      exists_loaded h.pending_eq (endLine_outside h.keeps.1) hline h.keeps
    exact ⟨d, hnext, rfl, hd, hlog.trans (List.append_nil _).symm, hless⟩
  | turnSingle =>
    obtain ⟨hsingle, -, -, hstart, -⟩ := h.keeps
    obtain ⟨d, hnext, hd, hlog, hless⟩ :=
      exists_loaded h.pending_eq (endLine_single hsingle) hline (keeps_discard c .single)
    refine ⟨d, hnext, rfl, hd, ?_, hless⟩
    rw [hlog, Label.event?, ← hstart]
    rfl
  | turnTriple =>
    obtain ⟨htriple, hcontent, hmark, hstart, hescaped, rfl⟩ := h.keeps
    have hkeeps : Keeps { c.flush with content := c.flush.content.push '\n' } (.triple _ _ _) :=
      ⟨htriple, flush_push hcontent '\n', hmark, hstart, hescaped, rfl⟩
    obtain ⟨d, hnext, hd, hlog, hless⟩ :=
      exists_loaded h.pending_eq (endLine_triple htriple) hline hkeeps
    exact ⟨d, hnext, rfl, hd, hlog.trans (List.append_nil _).symm, hless⟩
  | dropSingle | dropTriple => exact absurd rfl hpending
  | _ => cases hrest

/-- **A cursor follows a scan to its end.** It finds no further line, drops the
    literal that is open, and leaves the call for the next literal without
    one. -/
theorem Shows.finish (h : c.Shows s) (hrest : s.rest = []) (hpending : s.pending = []) :
    ∃ d, c.nextLine = (false, d) ∧ (next s).literal? = none ∧ d.Shows (next s).state
      ∧ d.log = c.log ++ (next s).events := by
  obtain ⟨line, passed, rest, pending, region⟩ := s
  obtain rfl : rest = [] := hrest
  obtain rfl : pending = [] := hpending
  have hended : next ⟨line, passed, [], [], .outside⟩ = ⟨none, [], _⟩ := next_of_end rfl
  cases region with
  | outside =>
    have hlast : c.endLine.endSource = c := by
      rw [endLine_outside h.keeps.1, endSource_outside h.keeps.1]
    obtain ⟨d, hnext, hd, hlog⟩ :=
      exists_ended h.pending_eq hlast h.line_eq h.pending_eq h.keeps
    rw [hended]
    exact ⟨d, hnext, rfl, hd, hlog.trans (List.append_nil _).symm⟩
  | single opening content escaped =>
    obtain ⟨hsingle, -, -, hstart, -⟩ := h.keeps
    have hlast : c.endLine.endSource = c.discard .single := by
      rw [endLine_single hsingle]
      exact endSource_outside rfl
    obtain ⟨d, hnext, hd, hlog⟩ :=
      exists_ended h.pending_eq hlast h.line_eq h.pending_eq (keeps_discard _ _)
    rw [next_of_silent (step?_eq_some_iff.2 .dropSingle) rfl, hended]
    refine ⟨d, hnext, rfl, hd, ?_⟩
    rw [hlog, Label.event?, ← hstart]
    rfl
  | triple opening content quotes =>
    -- The end of the last line is content for as long as it takes to drop it.
    obtain ⟨htriple, -, -, hstart, -⟩ := h.keeps
    have hlast : c.endLine.endSource
        = { c.flush with content := c.flush.content.push '\n' }.discard .triple := by
      rw [endLine_triple htriple]
      exact endSource_open htriple
    obtain ⟨d, hnext, hd, hlog⟩ :=
      exists_ended h.pending_eq hlast h.line_eq h.pending_eq (keeps_discard _ _)
    rw [next_of_silent (step?_eq_some_iff.2 .dropTriple) rfl, hended]
    refine ⟨d, hnext, rfl, hd, ?_⟩
    rw [hlog, Label.event?, ← hstart]
    rfl

end LineEnds

end Cursor

end Scan

end LiteralLint
