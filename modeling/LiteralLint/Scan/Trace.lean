import LiteralLint.Scan.Step

/-! # Scan Traces

  Two ways to run a scan:

  - `trace` runs it to its end and gives the labels of all steps. The
    literals and the events of a source are read off its trace.
  - `next` runs it only until the next literal is complete, and gives the
    literal, the events on the way, and the state to go on from. Asked again
    after the end, it answers with nothing and stays where it is.

  Both collect their output latest first and turn it round at the end. The
  lemmas state how each of them behaves under one step, so that nothing else
  refers to the order of collection.
-/

namespace LiteralLint

namespace Scan

/-! ### Whole Runs -/

/-- The labels of all steps from a state, after the labels `done`, which are
    kept latest first. -/
def traceAfter (done : List Label) (s : State) : List Label :=
  match _h : step? s with
  | none => done.reverse
  | some (label, t) => traceAfter (label :: done) t
termination_by s.work
decreasing_by exact step?_work _h

/-- The labels of all steps from a state to the end of the scan. -/
def trace (s : State) : List Label := traceAfter [] s

/-- At the end of the scan, the labels collected are all there are. -/
theorem traceAfter_of_end {s : State} (done : List Label) (h : step? s = none) :
    traceAfter done s = done.reverse := by
  rw [traceAfter]
  split <;> simp_all

/-- A step adds its label to those collected. -/
theorem traceAfter_of_step {s t : State} {label : Label} (done : List Label)
    (h : step? s = some (label, t)) :
    traceAfter done s = traceAfter (label :: done) t := by
  rw [traceAfter]
  split <;> simp_all

/-- Labels collected before do not affect the labels still to come. -/
theorem traceAfter_eq (done : List Label) (s : State) :
    traceAfter done s = done.reverse ++ trace s := by
  cases h : step? s with
  | none => simp [trace, traceAfter_of_end _ h]
  | some next =>
    obtain ⟨label, t⟩ := next
    have := step?_work h
    rw [trace, traceAfter_of_step _ h, traceAfter_of_step _ h, traceAfter_eq (label :: done) t,
      traceAfter_eq [label] t]
    simp
termination_by s.work

/-- A scan that has ended takes no steps. -/
theorem trace_of_end {s : State} (h : step? s = none) : trace s = [] :=
  traceAfter_of_end [] h

/-- The trace from a state is its next step and the trace from there. -/
theorem trace_of_step {s t : State} {label : Label} (h : step? s = some (label, t)) :
    trace s = label :: trace t := by
  rw [trace, traceAfter_of_step _ h, traceAfter_eq]
  rfl

/-! ### Runs to the Next Literal -/

/-- The answer to the question for the next literal. -/
structure Answer where
  /-- The literal, unless the scan has ended. -/
  literal? : Option Literal
  /-- The events of the steps that were taken, in order. -/
  events : List Event
  /-- The state to go on from. -/
  state : State
  deriving DecidableEq, Repr

/-- Run to the next literal, after the events `done`, which are kept latest
    first. -/
def nextAfter (done : List Event) (s : State) : Answer :=
  match _h : step? s with
  | none => ⟨none, done.reverse, s⟩
  | some (label, t) =>
    let done := label.event?.toList ++ done
    match label.literal? with
    | some literal => ⟨some literal, done.reverse, t⟩
    | none => nextAfter done t
termination_by s.work
decreasing_by exact step?_work _h

/-- Run to the next literal. -/
def next (s : State) : Answer := nextAfter [] s

/-- At the end of the scan, the answer is that there is no literal. -/
theorem nextAfter_of_end {s : State} (done : List Event) (h : step? s = none) :
    nextAfter done s = ⟨none, done.reverse, s⟩ := by
  rw [nextAfter]
  split <;> simp_all

/-- A step that completes a literal ends the run to it. -/
theorem nextAfter_of_literal {s t : State} {label : Label} {literal : Literal}
    (done : List Event) (h : step? s = some (label, t)) (hliteral : label.literal? = some literal) :
    nextAfter done s = ⟨some literal, (label.event?.toList ++ done).reverse, t⟩ := by
  rw [nextAfter]
  split <;> simp_all

/-- A step that completes no literal adds its event to those collected. -/
theorem nextAfter_of_silent {s t : State} {label : Label} (done : List Event)
    (h : step? s = some (label, t)) (hliteral : label.literal? = none) :
    nextAfter done s = nextAfter (label.event?.toList ++ done) t := by
  rw [nextAfter]
  split <;> simp_all

/-- Events collected before do not affect the answer otherwise. -/
theorem nextAfter_eq (done : List Event) (s : State) :
    nextAfter done s = { next s with events := done.reverse ++ (next s).events } := by
  cases h : step? s with
  | none => simp [next, nextAfter_of_end _ h]
  | some following =>
    obtain ⟨label, t⟩ := following
    have := step?_work h
    cases hliteral : label.literal? with
    | some literal =>
      simp [next, nextAfter_of_literal _ h hliteral]
    | none =>
      rw [next, nextAfter_of_silent _ h hliteral, nextAfter_of_silent _ h hliteral,
        nextAfter_eq (label.event?.toList ++ done) t,
        nextAfter_eq (label.event?.toList ++ []) t]
      simp
termination_by s.work

/-- A scan that has ended has no further literal, emits nothing, and stays. -/
theorem next_of_end {s : State} (h : step? s = none) : next s = ⟨none, [], s⟩ :=
  nextAfter_of_end [] h

/-- A step that completes a literal is the whole answer. -/
theorem next_of_literal {s t : State} {label : Label} {literal : Literal}
    (h : step? s = some (label, t)) (hliteral : label.literal? = some literal) :
    next s = ⟨some literal, label.event?.toList, t⟩ := by
  rw [next, nextAfter_of_literal _ h hliteral]
  cases label.event? <;> rfl

/-- A step that completes no literal puts its event before the answer from
    the next state. -/
theorem next_of_silent {s t : State} {label : Label} (h : step? s = some (label, t))
    (hliteral : label.literal? = none) :
    next s = { next t with events := label.event?.toList ++ (next t).events } := by
  rw [next, nextAfter_of_silent _ h hliteral, nextAfter_eq]
  cases label.event? <;> rfl

end Scan

/-! ### Literals and Events of a Source -/

namespace Source

/-- The labels of all steps of a scan of the source. -/
def trace (source : Source) : List Scan.Label := Scan.trace (.initial source)

/-- The literals of the source, in the order in which they close. -/
def literals (source : Source) : List Literal :=
  source.trace.filterMap Scan.Label.literal?

/-- The events of a scan of the source. -/
def events (source : Source) : List Event :=
  source.trace.filterMap Scan.Label.event?

/-- Two quotes are a literal, and an escaped quote is content. -/
example :
    (ofText "f\"\"+s\"\\\"\"").literals
      = [⟨"", .f, 1, .single⟩, ⟨"\\\"", .s, 1, .single⟩] := by
  decide +kernel

/-- Of seven quotes, three open a triple literal and three close it; the
    last opens a single literal, which its line does not close. -/
example :
    (ofText "\"\"\"\"\"\"\"").literals = [⟨"", .bare, 1, .triple⟩]
      ∧ (ofText "\"\"\"\"\"\"\"").events
        = [.closed 1 .triple .bare, .discarded 1 .single] := by
  decide +kernel

/-- A triple literal spans lines. -/
example :
    (ofText "\"\"\"a\"\r\n$b\"\"\"").literals = [⟨"a\"\n$b", .bare, 1, .triple⟩] := by
  decide +kernel

end Source

end LiteralLint
