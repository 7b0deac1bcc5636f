import LiteralLint.Event
import LiteralLint.Scan.State

/-! # Scan Steps

  The scan as a labelled transition system. A step passes one character, or
  one opening run of quotes, or crosses one line end; its label says what
  happened, and carries the literal that was completed or dropped, if any.

  The rules:

  - Outside, only a quote matters. Three quotes in a row open a triple
    literal, exactly two are an empty single literal, and one opens a single
    literal. The run is looked for on the current line only.
  - In a single literal, a quote that is not escaped closes it. A backslash
    that is not escaped escapes the next character. The end of the line drops
    the literal.
  - In a triple literal, the third quote in a row closes it. Quotes that do
    not reach three in a row are content, and so is the end of a line. The
    end of the source drops the literal.

  A scan never fails and always ends: `step?_work` bounds the number of its
  steps by `State.work`.
-/

namespace LiteralLint

namespace Scan

/-! ### Labels -/

/-- What happens in a step. -/
inductive Label
  /-- A character outside every literal was passed. -/
  | skipped
  /-- A literal was opened. -/
  | opened (opening : Opening) (delimiter : Delimiter)
  /-- A character of the open literal was passed. -/
  | read
  /-- The open literal was closed. -/
  | closed (opening : Opening) (delimiter : Delimiter) (content : List Char)
  /-- An empty single literal was opened and closed. -/
  | paired (opening : Opening)
  /-- The next line was entered, and a single literal left open on the line
      before it was dropped. -/
  | turned (dropped? : Option Opening)
  /-- The source ended and the open literal was dropped. -/
  | dropped (opening : Opening) (delimiter : Delimiter)
  deriving DecidableEq, Repr

namespace Label

/-- The literal that a step completes. -/
def literal? : Label → Option Literal
  | .closed opening delimiter content =>
    some ⟨String.ofList content.reverse, opening.mark, opening.line, delimiter⟩
  | .paired opening => some ⟨"", opening.mark, opening.line, .single⟩
  | .skipped | .opened .. | .read | .turned _ | .dropped .. => none

/-- The event that a step is logged with: one for each literal completed and
    one for each literal dropped. -/
def event? : Label → Option Event
  | .closed opening delimiter _ => some (.closed opening.line delimiter opening.mark)
  | .paired opening => some (.closed opening.line .single opening.mark)
  | .turned (some opening) => some (.discarded opening.line .single)
  | .dropped opening delimiter => some (.discarded opening.line delimiter)
  | .skipped | .opened .. | .read | .turned none => none

end Label

/-! ### Transitions -/

/-- The step from a state outside every literal whose next character is a
    quote; `rest` is what follows that quote on the line. -/
def openStep (s : State) (rest : List Char) : Label × State :=
  let opening : Opening := ⟨s.line, s.passed⟩
  match rest with
  | '"' :: '"' :: rest =>
    (.opened opening .triple,
      { s with
        passed := '"' :: '"' :: '"' :: s.passed
        rest
        region := .triple opening [] 0 })
  | '"' :: rest =>
    (.paired opening, { s with passed := '"' :: '"' :: s.passed, rest })
  | rest =>
    (.opened opening .single,
      { s with passed := '"' :: s.passed, rest, region := .single opening [] false })

/-- The step that passes the character `c`, after which `rest` is ahead. -/
def charStep (s : State) (c : Char) (rest : List Char) : Label × State :=
  match s.region with
  | .outside =>
    if c = '"' then openStep s rest
    else (.skipped, { s with passed := c :: s.passed, rest })
  | .single opening content escaped =>
    if c = '"' ∧ escaped = false then
      (.closed opening .single content,
        { s with passed := c :: s.passed, rest, region := .outside })
    else
      (.read,
        { s with
          passed := c :: s.passed
          rest
          region := .single opening (c :: content) (c = '\\' && !escaped) })
  | .triple opening content quotes =>
    if c = '"' then
      if quotes + 1 = 3 then
        (.closed opening .triple content,
          { s with passed := c :: s.passed, rest, region := .outside })
      else
        (.read,
          { s with
            passed := c :: s.passed
            rest
            region := .triple opening content (quotes + 1) })
    else
      (.read,
        { s with
          passed := c :: s.passed
          rest
          region := .triple opening (c :: withQuotes quotes content) 0 })

/-- The step at the end of a line after which the line `text` comes. -/
def lineStep (s : State) (text : String) (pending : List String) : Label × State :=
  match s.region with
  | .outside => (.turned none, s.enter text pending .outside)
  | .single opening _ _ => (.turned (some opening), s.enter text pending .outside)
  | .triple opening content quotes =>
    (.turned none,
      s.enter text pending (.triple opening ('\n' :: withQuotes quotes content) 0))

/-- The step at the end of the source: a literal that is still open is
    dropped, and without one the scan has ended. -/
def endStep? (s : State) : Option (Label × State) :=
  match s.region with
  | .outside => none
  | .single opening _ _ => some (.dropped opening .single, { s with region := .outside })
  | .triple opening _ _ => some (.dropped opening .triple, { s with region := .outside })

/-- The next step, if the scan has not ended. -/
def step? (s : State) : Option (Label × State) :=
  match s.rest with
  | c :: rest => some (charStep s c rest)
  | [] =>
    match s.pending with
    | text :: pending => some (lineStep s text pending)
    | [] => endStep? s

/-! ### Progress -/

/-- Opening a literal leaves less work than there was at its first quote. -/
theorem openStep_work (s : State) (rest : List Char) (houtside : s.region = .outside) :
    (openStep s rest).2.work < { s with rest := '"' :: rest }.work := by
  unfold openStep
  split <;> simp only [State.work, houtside, List.length_cons] <;> omega

/-- Passing a character leaves less work than there was before it. -/
theorem charStep_work (s : State) (c : Char) (rest : List Char) :
    (charStep s c rest).2.work < { s with rest := c :: rest }.work := by
  cases hregion : s.region with
  | outside =>
    by_cases hquote : c = '"'
    · subst hquote
      simpa only [charStep, hregion, if_true] using openStep_work s rest hregion
    · simp only [charStep, State.work, hregion, hquote, if_false, List.length_cons]
      omega
  | single opening content escaped =>
    simp only [charStep, hregion]
    split <;> simp only [State.work, List.length_cons] <;> omega
  | triple opening content quotes =>
    simp only [charStep, hregion]
    split
    · split <;> simp only [State.work, List.length_cons] <;> omega
    · simp only [State.work, List.length_cons]
      omega

/-- Entering a line leaves less work. -/
theorem lineStep_work (s : State) (text : String) (pending : List String)
    (hend : s.rest = []) (hpending : s.pending = text :: pending) :
    (lineStep s text pending).2.work < s.work := by
  cases hregion : s.region <;>
    simp only [lineStep, State.work, State.enter, hregion, hend, hpending, List.length_nil,
      List.foldr_cons] <;>
    omega

/-- Dropping the open literal at the end of the source leaves less work. -/
theorem endStep?_work {s t : State} {label : Label} (h : endStep? s = some (label, t)) :
    t.work < s.work := by
  unfold endStep? at h
  cases hregion : s.region with
  | outside => simp [hregion] at h
  | single opening content escaped =>
    simp only [hregion, Option.some.injEq, Prod.mk.injEq] at h
    obtain ⟨-, rfl⟩ := h
    simp only [State.work, hregion]
    omega
  | triple opening content quotes =>
    simp only [hregion, Option.some.injEq, Prod.mk.injEq] at h
    obtain ⟨-, rfl⟩ := h
    simp only [State.work, hregion]
    omega

/-- Every step leaves less work. -/
theorem step?_work {s t : State} {label : Label} (h : step? s = some (label, t)) :
    t.work < s.work := by
  unfold step? at h
  split at h
  · next c rest hrest =>
    have hlt := charStep_work s c rest
    rw [← hrest] at hlt
    simp only [Option.some.injEq] at h
    simpa [h] using hlt
  · next hrest =>
    split at h
    · next text pending hpending =>
      have hlt := lineStep_work s text pending hrest hpending
      simp only [Option.some.injEq] at h
      simpa [h] using hlt
    · exact endStep?_work h

end Scan

end LiteralLint
