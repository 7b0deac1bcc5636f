import LiteralLint.Proofs.Runs

/-! # Sources Stacked

  One source is put above another. A scan of both is a scan of the upper one
  and then a scan of the lower one, in which everything is as many lines
  further down as the upper source has.

  There is one exception: a triple literal that the upper source leaves open
  goes on below. A single literal ends with its line, closed or not, and so
  what is on a line matters to no other line in any other way.

  The key ideas:

  - The lines of a text are cut where the text is cut after a line feed
    (`ofText_append_feed`).
  - A run through the upper source goes the same way with the lower one
    beneath it (`exists_run_to_end`), and leaves a state which no triple
    literal is open in and which differs from an initial state in its line
    number and in the line behind it.
  - Everything that a scan does, it does in the same way further down
    (`trace_below`).
-/

namespace LiteralLint

open Scan

/-! ### Further Down -/

/-- A literal `lines` lines further down. -/
def Literal.below (lines : Nat) (literal : Literal) : Literal :=
  { literal with line := literal.line + lines }

/-- An event `lines` lines further down. -/
def Event.below (lines : Nat) : Event → Event
  | .closed line delimiter mark => .closed (line + lines) delimiter mark
  | .discarded line delimiter => .discarded (line + lines) delimiter
  | .checking input => .checking input
  | .finished total literals findings => .finished total literals findings

namespace Scan

/-- An opening `lines` lines further down. -/
def Opening.below (lines : Nat) (opening : Opening) : Opening :=
  { opening with line := opening.line + lines }

/-- A region `lines` lines further down. -/
def Region.below (lines : Nat) : Region → Region
  | .outside => .outside
  | .single opening content escaped => .single (opening.below lines) content escaped
  | .triple opening content quotes => .triple (opening.below lines) content quotes

/-- A state `lines` lines further down. -/
def State.below (lines : Nat) (s : State) : State :=
  { s with line := s.line + lines, region := s.region.below lines }

/-- The label of a step `lines` lines further down. -/
def Label.below (lines : Nat) : Label → Label
  | .skipped => .skipped
  | .opened opening delimiter => .opened (opening.below lines) delimiter
  | .read => .read
  | .closed opening delimiter content => .closed (opening.below lines) delimiter content
  | .paired opening => .paired (opening.below lines)
  | .turned dropped? => .turned (dropped?.map (.below lines))
  | .dropped opening delimiter => .dropped (opening.below lines) delimiter

variable {s t : State} {label : Label}

/-- A step is taken in the same way further down. -/
theorem rule_below (lines : Nat) (h : Rule s label t) :
    Rule (s.below lines) (label.below lines) (t.below lines) := by
  -- The line that a step enters is the next one there as well.
  have hnext : ∀ (line : Nat) (passed rest : List Char) (pending : List String) (region : Region),
      State.below lines ⟨line + 1, passed, rest, pending, region⟩
        = ⟨line + lines + 1, passed, rest, pending, region.below lines⟩ := by
    intro line passed rest pending region
    rw [State.below, Nat.add_right_comm]
  cases h with
  | skip hc => exact .skip hc
  | openTriple => exact .openTriple
  | pair hrest => exact .pair hrest
  | openSingle hrest => exact .openSingle hrest
  | closeSingle => exact .closeSingle
  | readSingle hc => exact .readSingle hc
  | closeTriple => exact .closeTriple
  | holdQuote hquotes => exact .holdQuote hquotes
  | readTriple hc => exact .readTriple hc
  | turnOutside =>
    rw [hnext]
    exact .turnOutside
  | turnSingle =>
    rw [hnext]
    exact .turnSingle
  | turnTriple =>
    rw [hnext]
    exact .turnTriple
  | dropSingle => exact .dropSingle
  | dropTriple => exact .dropTriple

/-- A scan goes the same way further down. -/
theorem trace_below (lines : Nat) (s : State) :
    trace (s.below lines) = (trace s).map (Label.below lines) := by
  induction s using run_induction with
  | hend s hend =>
    obtain ⟨hrest, hpending, hregion⟩ := step?_eq_none_iff.1 hend
    have hbelow : step? (s.below lines) = none := by
      rw [step?_eq_none_iff]
      exact ⟨hrest, hpending, by rw [State.below, hregion]; rfl⟩
    rw [trace_of_end hend, trace_of_end hbelow, List.map_nil]
  | hstep s label t hrule ih =>
    rw [trace_of_rule hrule, trace_of_rule (rule_below lines hrule), ih, List.map_cons]

/-! ### What Is Read off a Trace -/

/-- Something that is read off the steps of a scan one by one. It is the same
    further down, a line feed by itself shows nothing, and a single literal is
    dropped at the end of its line in the same way whether another line comes
    or not. -/
structure Reading (α : Type) where
  /-- What a step shows. -/
  read : Label → Option α
  /-- What it shows that many lines further down. -/
  below : Nat → α → α
  read_below : ∀ lines label, read (label.below lines) = (read label).map (below lines)
  read_turned : read (.turned none) = none
  read_dropped : ∀ opening, read (.dropped opening .single) = read (.turned (some opening))

/-- The literals that a scan completes. -/
def Reading.literals : Reading Literal where
  read := Label.literal?
  below := Literal.below
  read_below := by
    intro lines label
    cases label <;> rfl
  read_turned := rfl
  read_dropped _ := rfl

/-- The events of a scan. -/
def Reading.events : Reading Event where
  read := Label.event?
  below := Event.below
  read_below := by
    intro lines label
    cases label with
    | turned dropped? => cases dropped? <;> rfl
    | _ => rfl
  read_turned := rfl
  read_dropped _ := rfl

namespace Reading

variable {α : Type} (reading : Reading α)

/-- All that is read off a scan from a state. -/
def along (s : State) : List α := (trace s).filterMap reading.read

theorem along_below (lines : Nat) (s : State) :
    reading.along (s.below lines) = (reading.along s).map (reading.below lines) := by
  rw [Reading.along, Reading.along, trace_below, List.filterMap_map, List.map_filterMap]
  congr 1
  funext label
  exact reading.read_below lines label

/-- A scan of a source, where `line` lines are above it and the last of them
    has just been passed. -/
theorem along_atop_outside (line : Nat) (passed : List Char) (source : Source) :
    reading.along ⟨line, passed, [], source.lines.toList, .outside⟩
      = (reading.along (.initial source)).map (reading.below line) := by
  rw [← along_below, State.initial, State.below]
  simp only [Nat.zero_add]
  cases source.lines.toList with
  | nil => rw [Reading.along, Reading.along, trace_of_end rfl, trace_of_end rfl]
  | cons text pending =>
    -- What was passed on the line above is out of sight on the next one.
    rw [Reading.along, Reading.along, trace_of_rule .turnOutside]
    exact congrArg _ (trace_of_rule .turnOutside).symm

/-- The same where a single literal is open at the end of the last line: it is
    dropped before the source is entered. -/
theorem along_atop_single (line : Nat) (passed : List Char) (opening : Opening)
    (content : List Char) (escaped : Bool) (source : Source) :
    reading.along ⟨line, passed, [], source.lines.toList, .single opening content escaped⟩
      = (reading.read (.dropped opening .single)).toList
        ++ (reading.along (.initial source)).map (reading.below line) := by
  rw [← along_atop_outside reading line passed source]
  cases source.lines.toList with
  | nil =>
    rw [Reading.along, Reading.along, trace_of_rule .dropSingle, List.filterMap_cons]
    cases reading.read (.dropped opening .single) <;> rfl
  | cons text pending =>
    rw [Reading.along, Reading.along, trace_of_rule .turnOutside, trace_of_rule .turnSingle,
      List.filterMap_cons, List.filterMap_cons, reading.read_turned, reading.read_dropped]
    cases reading.read (.turned (some opening)) <;> rfl

/-- Where the lines end and no triple literal is open, a scan of a source
    below is a scan of that source by itself. -/
theorem along_atop {t : State} (ht : t.AtEnd) (hopen : t.region.delimiter? ≠ some .triple)
    (source : Source) :
    reading.along (t.atop source.lines.toList)
      = reading.along t ++ (reading.along (.initial source)).map (reading.below t.line) := by
  obtain ⟨line, passed, rest, pending, region⟩ := t
  obtain ⟨rfl, rfl⟩ := ht
  cases region with
  | outside =>
    have hnone : reading.along ⟨line, passed, [], [], .outside⟩ = [] := by
      rw [Reading.along, trace_of_end rfl, List.filterMap_nil]
    rw [hnone]
    exact along_atop_outside reading line passed source
  | single opening content escaped =>
    have hdropped : reading.along ⟨line, passed, [], [], .single opening content escaped⟩
        = (reading.read (.dropped opening .single)).toList := by
      rw [Reading.along, trace_of_rule .dropSingle, trace_of_end rfl, List.filterMap_cons]
      cases reading.read (.dropped opening .single) <;> rfl
    rw [hdropped]
    exact along_atop_single reading line passed opening content escaped source
  | triple opening content quotes => exact absurd rfl hopen

end Reading

end Scan

namespace Source

/-! ### Lines of a Text That Is Cut -/

/-- A source with another one below it. -/
def stack (above below : Source) : Source := ⟨above.lines ++ below.lines⟩

/-- The lines of a text are those up to a line feed and those after it. -/
theorem splitAfter_append_feed (line above below : List Char) :
    splitAfter #[] line (above ++ '\n' :: below)
      = splitAfter #[] line (above ++ ['\n']) ++ splitAfter #[] [] below := by
  induction above generalizing line with
  | nil => simp [splitAfter, splitAfter_eq #[endedLine line] [] below]
  | cons c above ih =>
    rw [List.cons_append, List.cons_append, splitAfter, splitAfter]
    split
    · rw [splitAfter_eq, splitAfter_eq (#[].push (endedLine line)), ih, Array.append_assoc]
    · exact ih (c :: line)

/-- A text that is cut after a line feed is two sources, one above the
    other. -/
theorem ofText_append_feed (above below : String) :
    ofText (above ++ "\n" ++ below) = (ofText (above ++ "\n")).stack (ofText below) := by
  have hcut := splitAfter_append_feed [] above.toList below.toList
  simpa [ofText, stack] using hcut

/-! ### Scans of Stacked Sources -/

/-- A scan of `whole` is a scan of `above` and then one of `below`, each line
    of which is below all lines of `above`. -/
structure Composes (above below whole : Source) : Prop where
  literals : whole.literals = above.literals ++ below.literals.map (.below above.size)
  events : whole.events = above.events ++ below.events.map (.below above.size)

/-- What a scan of a source comes to where its lines end, and how it goes on
    with more lines below. -/
structure Descent (source : Source) (labels : List Label) (last : State) : Prop where
  run : Run (.initial source) labels last
  atEnd : last.AtEnd
  /-- The run ends before anything is dropped at the end of the source. -/
  kept : ∀ opening delimiter, Label.dropped opening delimiter ∉ labels
  atop : ∀ lines, Run ((State.initial source).atop lines) labels (last.atop lines)

variable {above below : Source} {labels : List Label} {last : State}

theorem exists_descent (source : Source) : ∃ labels last, Descent source labels last := by
  obtain ⟨labels, last, hrun, hend, hkept, hatop⟩ := exists_run_to_end (.initial source)
  exact ⟨labels, last, hrun, hend, hkept, hatop⟩

namespace Descent

/-- As many lines are entered as the source has. -/
theorem line_eq (h : Descent above labels last) : last.line = above.size := by
  have hline := h.run.line_eq
  simpa [State.initial, h.atEnd.2, size] using hline

theorem along_eq {α : Type} (h : Descent above labels last) (reading : Reading α) :
    reading.along (.initial above) = labels.filterMap reading.read ++ reading.along last := by
  rw [Reading.along, h.run.trace_eq, List.filterMap_append, Reading.along]

theorem along_stack_eq {α : Type} (h : Descent above labels last) (reading : Reading α)
    (below : Source) :
    reading.along (.initial (above.stack below))
      = labels.filterMap reading.read ++ reading.along (last.atop below.lines.toList) := by
  have hatop : State.initial (above.stack below)
      = (State.initial above).atop below.lines.toList := by
    simp [State.initial, State.atop, stack]
  rw [hatop, Reading.along, (h.atop _).trace_eq, List.filterMap_append, Reading.along]

/-- No literal is completed once all lines are passed. -/
theorem literals_along_last (h : Descent above labels last) :
    Reading.literals.along last = [] := by
  obtain ⟨line, passed, rest, pending, region⟩ := last
  obtain ⟨hrest, hpending⟩ := h.atEnd
  simp only at hrest hpending
  subst hrest hpending
  cases region with
  | outside => rw [Reading.along, trace_of_end rfl, List.filterMap_nil]
  | single opening content escaped =>
    rw [Reading.along, trace_of_rule .dropSingle, trace_of_end rfl]
    rfl
  | triple opening content quotes =>
    rw [Reading.along, trace_of_rule .dropTriple, trace_of_end rfl]
    rfl

/-- Unless a triple literal is open at the end of the source above, the scans
    compose. -/
theorem composes (h : Descent above labels last)
    (hopen : last.region.delimiter? ≠ some .triple) (below : Source) :
    Composes above below (above.stack below) := by
  have hreading : ∀ {α : Type} (reading : Reading α),
      reading.along (.initial (above.stack below))
        = reading.along (.initial above)
          ++ (reading.along (.initial below)).map (reading.below above.size) := by
    intro α reading
    rw [h.along_stack_eq, reading.along_atop h.atEnd hopen, h.along_eq, h.line_eq, List.append_assoc]
  exact ⟨hreading .literals, hreading .events⟩

/-- What is found above is found whatever is below. -/
theorem literals_prefix (h : Descent above labels last) (below : Source) :
    above.literals <+: (above.stack below).literals := by
  have habove : above.literals = labels.filterMap Label.literal? := by
    have hliterals := h.along_eq .literals
    rwa [h.literals_along_last, List.append_nil] at hliterals
  rw [habove]
  exact ⟨_, (h.along_stack_eq .literals below).symm⟩

/-- A triple literal that is open at the end of the source is discarded, and
    that is the last event. -/
theorem events_along_last_of_triple (h : Descent above labels last)
    (hopen : last.region.delimiter? = some .triple) :
    ∃ line, Reading.events.along last = [.discarded line .triple] := by
  obtain ⟨line, passed, rest, pending, region⟩ := last
  obtain ⟨hrest, hpending⟩ := h.atEnd
  simp only at hrest hpending
  subst hrest hpending
  cases region with
  | outside => cases hopen
  | single opening content escaped => cases hopen
  | triple opening content quotes =>
    refine ⟨opening.line, ?_⟩
    rw [Reading.along, trace_of_rule .dropTriple, trace_of_end rfl]
    rfl

theorem discarded_triple (h : Descent above labels last)
    (hopen : last.region.delimiter? = some .triple) :
    ∃ line, Event.discarded line .triple ∈ above.events := by
  obtain ⟨line, hlast⟩ := h.events_along_last_of_triple hopen
  have hevents : above.events = labels.filterMap Label.event? ++ Reading.events.along last :=
    h.along_eq .events
  exact ⟨line, by rw [hevents, hlast]; exact List.mem_append_right _ List.mem_cons_self⟩

/-- A single literal that is discarded on the last line is open at its end,
    and so no triple literal is. -/
theorem not_triple_of_discarded (h : Descent above labels last)
    (hlined : (State.initial above).Consistent)
    (hmem : Event.discarded above.size .single ∈ above.events) :
    last.region.delimiter? ≠ some .triple := by
  intro hopen
  obtain ⟨opening, hlast⟩ := h.events_along_last_of_triple hopen
  have hevents : above.events = labels.filterMap Label.event? ++ Reading.events.along last :=
    h.along_eq .events
  rw [hevents, hlast] at hmem
  rcases List.mem_append.1 hmem with hmem | hmem
  · have hline := h.run.discarded_line_lt hlined h.kept hmem
    rw [h.line_eq] at hline
    exact Nat.lt_irrefl _ hline
  · simp at hmem

end Descent

/-- **Scans compose at line ends.** What is found above a line end is found
    whatever comes below. Unless a triple literal is open at the line end, what
    is found and logged below is what would be found and logged there without
    the lines above. This is so, in particular, where the line leaves a single
    literal open. -/
theorem composes_at_feed (above below : String) :
    (ofText (above ++ "\n")).literals <+: (ofText (above ++ "\n" ++ below)).literals
      ∧ ((∀ line, Event.discarded line .triple ∉ (ofText (above ++ "\n")).events) →
          Composes (ofText (above ++ "\n")) (ofText below) (ofText (above ++ "\n" ++ below)))
      ∧ (Event.discarded (ofText (above ++ "\n")).size .single
            ∈ (ofText (above ++ "\n")).events →
          Composes (ofText (above ++ "\n")) (ofText below)
            (ofText (above ++ "\n" ++ below))) := by
  obtain ⟨labels, last, h⟩ := exists_descent (ofText (above ++ "\n"))
  rw [ofText_append_feed]
  refine ⟨h.literals_prefix _, fun hnone => h.composes ?_ _, fun hsingle => h.composes ?_ _⟩
  · intro hopen
    obtain ⟨line, hmem⟩ := h.discarded_triple hopen
    exact hnone line hmem
  · exact h.not_triple_of_discarded (consistent_initial _) hsingle

/-- A line that ends in an open literal, above a line with a literal. -/
theorem composes_at_feed_open_literal :
    let above := "s\"$a\" + \"b \\\""
    let below := "f\"\"\"c\nd\"\"\""
    (∀ line, Event.discarded line .triple ∉ (ofText (above ++ "\n")).events)
      ∧ Event.discarded (ofText (above ++ "\n")).size .single
          ∈ (ofText (above ++ "\n")).events
      ∧ (ofText (above ++ "\n" ++ below)).literals
        = [⟨"$a", .s, 1, .single⟩, ⟨"c\nd", .f, 2, .triple⟩]
      ∧ (ofText (above ++ "\n" ++ below)).events
        = [.closed 1 .single .s, .discarded 1 .single, .closed 2 .triple .f] := by
  intro above below
  have hevents : (ofText (above ++ "\n")).events
      = [.closed 1 .single .s, .discarded 1 .single] := by decide +kernel
  have hnone : ∀ line, Event.discarded line .triple ∉ (ofText (above ++ "\n")).events := by
    simp [hevents]
  have hsingle : Event.discarded (ofText (above ++ "\n")).size .single
      ∈ (ofText (above ++ "\n")).events := by decide +kernel
  have hcomposes := (composes_at_feed above below).2.1 hnone
  have hcomposes' := (composes_at_feed above below).2.2 hsingle
  refine ⟨hnone, hsingle, ?_, ?_⟩
  · rw [hcomposes.literals]
    decide +kernel
  · rw [hcomposes'.events]
    decide +kernel

end Source

end LiteralLint
