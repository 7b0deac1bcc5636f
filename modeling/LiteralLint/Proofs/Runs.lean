import LiteralLint.Proofs.ScanSearch

/-! # Runs

  A run is any number of steps in a row, from any state to any later one. The
  trace from a state is a run that goes on to the end of the scan; here, a
  scan is cut in two, and what comes of the second part is looked at for
  itself. A call for the next literal is a run with an answer, by as many
  cases as `next` has.

  What a run does not reach has no part in it:

  - A run passes a part of the text. What it finds there, it finds whatever
    text comes after (`Run.passes`).
  - A run that uses up the lines it has does not look below them: it goes the
    same way when there are more (`exists_run_to_end`).
-/

namespace LiteralLint

namespace Scan

variable {s t u : State} {label : Label} {labels labels' more : List Label}

/-! ### Runs -/

/-- `Run s labels t`: steps with these labels lead from `s` to `t`. -/
inductive Run : State → List Label → State → Prop
  /-- No steps lead nowhere else. -/
  | stay (s : State) : Run s [] s
  /-- A step is followed by the others. -/
  | step {s t u : State} {label : Label} {labels : List Label} (hrule : Rule s label t)
      (hrun : Run t labels u) : Run s (label :: labels) u

/-- A trace begins with any run from its state, and goes on where that
    leads. -/
theorem Run.trace_eq (h : Run s labels t) : trace s = labels ++ trace t := by
  induction h with
  | stay => rfl
  | step hrule _ ih => rw [trace_of_rule hrule, ih, List.cons_append]

theorem Run.append (h : Run s labels t) (hmore : Run t more u) : Run s (labels ++ more) u := by
  induction h with
  | stay => exact hmore
  | step hrule _ ih => exact .step hrule (ih hmore)

/-- What every step keeps, a run keeps. -/
theorem Run.preserves {motive : State → Prop}
    (hstep : ∀ {s label t}, Rule s label t → motive s → motive t) (h : Run s labels t)
    (hs : motive s) : motive t := by
  induction h with
  | stay => exact hs
  | step hrule _ ih => exact ih (hstep hrule hs)

/-- Of two runs from one state, one goes on where the other ends. -/
theorem Run.comparable (h : Run s labels t) (h' : Run s labels' u) :
    (∃ more, Run t more u) ∨ ∃ more, Run u more t := by
  induction h generalizing labels' with
  | stay => exact .inl ⟨labels', h'⟩
  | step hrule hrun ih =>
    cases h' with
    | stay => exact .inr ⟨_, .step hrule hrun⟩
    | step hrule' hrun' =>
      obtain ⟨-, rfl⟩ := rule_unique hrule hrule'
      exact ih hrun'

/-! ### Calls -/

/-- `Call s answer`: the call for the next literal from `s` gets this answer. -/
inductive Call : State → Answer → Prop
  /-- After the end of the scan there is no literal. -/
  | ended {s : State} (hend : step? s = none) : Call s ⟨none, [], s⟩
  /-- A step that completes a literal ends the call. -/
  | found {s t : State} {label : Label} {literal : Literal} (hrule : Rule s label t)
      (hliteral : label.literal? = some literal) :
      Call s ⟨some literal, label.event?.toList, t⟩
  /-- A step that completes none comes before what gets the answer. -/
  | passed {s t : State} {label : Label} {answer : Answer} (hrule : Rule s label t)
      (hsilent : label.literal? = none) (hcall : Call t answer) :
      Call s { answer with events := label.event?.toList ++ answer.events }

/-- Calls get the answers of `next`. -/
theorem call_next (s : State) : Call s (next s) := by
  induction s using run_induction with
  | hend s hend =>
    rw [next_of_end hend]
    exact .ended hend
  | hstep s label t hrule ih =>
    have hstep := step?_eq_some_iff.2 hrule
    cases hliteral : label.literal? with
    | some literal =>
      rw [next_of_literal hstep hliteral]
      exact .found hrule hliteral
    | none =>
      rw [next_of_silent hstep hliteral]
      exact .passed hrule hliteral ih

/-! ### Text along Runs -/

/-- Text that is ahead of a step was ahead before it. -/
theorem ahead_ne_nil_step (h : Rule s label t) (ht : t.ahead ≠ []) : s.ahead ≠ [] := by
  cases h <;> simp_all [State.ahead]

/-- What is passed in two parts is passed. -/
theorem Passes.trans {word next : List Char} (h : Passes s labels t word)
    (hnext : Passes t more u next) : Passes s (labels ++ more) u (word ++ next) where
  ahead_eq := by rw [h.ahead_eq, hnext.ahead_eq, List.append_assoc]
  here_eq := by rw [hnext.here_eq, h.here_eq, Opening.past_past]
  remaining_eq := by
    intro ahead hahead
    have hquote : (next ++ ahead).head? = some '"' → t.ahead.head? = some '"' := by
      rw [hnext.ahead_eq]
      cases next with
      | nil => exact hahead
      | cons c next => exact id
    rw [List.append_assoc, h.remaining_eq _ hquote, hnext.remaining_eq ahead hahead,
      List.filterMap_append, List.append_assoc]

/-- A run passes a text and does not depend on what follows it. -/
theorem Run.passes (h : Run s labels t) (hs : s.Consistent) (ht : t.ahead ≠ []) :
    s.ahead ≠ [] ∧ ∃ word, Passes s labels t word := by
  induction h with
  | stay s =>
    exact ⟨ht, [], rfl, (Opening.past_nil hs.passed).symm, fun ahead _ => rfl⟩
  | step hrule _ ih =>
    obtain ⟨hahead, next, hnext⟩ := ih (consistent_step hrule hs) ht
    have hahead' := ahead_ne_nil_step hrule hahead
    obtain ⟨word, hword⟩ := passes_step hrule hs hahead'
    exact ⟨hahead', word ++ next, hword.trans hnext⟩

/-! ### Line Numbers along Runs -/

/-- A line that is entered is no longer pending. -/
theorem line_step (h : Rule s label t) :
    t.line + t.pending.length = s.line + s.pending.length := by
  cases h <;> simp only [List.length_cons] <;> omega

theorem Run.line_eq (h : Run s labels t) :
    t.line + t.pending.length = s.line + s.pending.length := by
  induction h with
  | stay => rfl
  | step hrule _ ih => rw [ih, line_step hrule]

/-- Lines are entered from the first to the last. -/
theorem line_le_step (h : Rule s label t) : s.line ≤ t.line := by
  cases h <;> simp only [Nat.le_refl, Nat.le_add_right]

theorem Run.line_le (h : Run s labels t) : s.line ≤ t.line := by
  induction h with
  | stay => exact Nat.le_refl _
  | step hrule _ ih => exact Nat.le_trans (line_le_step hrule) ih

/-! ### More Lines Below -/

namespace State

/-- All lines are entered, and the last one is passed. -/
def AtEnd (s : State) : Prop := s.rest = [] ∧ s.pending = []

/-- A state with more lines below those that it has. -/
def atop (s : State) (lines : List String) : State := { s with pending := s.pending ++ lines }

end State

/-- A step does not look below the lines that a state has, unless it has none
    left. -/
theorem rule_atop (h : Rule s label t) (hs : ¬ s.AtEnd) (lines : List String) :
    Rule (s.atop lines) label (t.atop lines) := by
  cases h with
  | skip hc => exact .skip hc
  | openTriple => exact .openTriple
  | pair hrest => exact .pair hrest
  | openSingle hrest => exact .openSingle hrest
  | closeSingle => exact .closeSingle
  | readSingle hc => exact .readSingle hc
  | closeTriple => exact .closeTriple
  | holdQuote hquotes => exact .holdQuote hquotes
  | readTriple hc => exact .readTriple hc
  | turnOutside => exact .turnOutside
  | turnSingle => exact .turnSingle
  | turnTriple => exact .turnTriple
  | dropSingle => exact absurd ⟨rfl, rfl⟩ hs
  | dropTriple => exact absurd ⟨rfl, rfl⟩ hs

/-- A literal is dropped at the end of the lines and nowhere else. -/
theorem atEnd_of_dropped {opening : Opening} {delimiter : Delimiter}
    (h : Rule s (.dropped opening delimiter) t) : s.AtEnd := by
  cases h <;> exact ⟨rfl, rfl⟩

/-- From every state, a run uses up the lines and drops nothing at their end.
    It goes the same way with more lines below. -/
theorem exists_run_to_end (s : State) :
    ∃ labels t, Run s labels t ∧ t.AtEnd
      ∧ (∀ opening delimiter, Label.dropped opening delimiter ∉ labels)
      ∧ ∀ lines, Run (s.atop lines) labels (t.atop lines) := by
  induction s using run_induction with
  | hend s hend =>
    obtain ⟨hrest, hpending, -⟩ := step?_eq_none_iff.1 hend
    exact ⟨[], s, .stay s, ⟨hrest, hpending⟩, by simp, fun lines => .stay _⟩
  | hstep s label t hrule ih =>
    by_cases hs : s.AtEnd
    · exact ⟨[], s, .stay s, hs, by simp, fun lines => .stay _⟩
    obtain ⟨labels, u, hrun, hu, hkept, hatop⟩ := ih
    refine ⟨label :: labels, u, .step hrule hrun, hu, ?_,
      fun lines => .step (rule_atop hrule hs lines) (hatop lines)⟩
    intro opening delimiter hmem
    rcases List.mem_cons.1 hmem with rfl | hmem
    · exact hs (atEnd_of_dropped hrule)
    · exact hkept opening delimiter hmem

/-! ### Where Literals Are Dropped -/

/-- A literal opens on the line on which the scan is, or above it. -/
theorem Region.Consistent.line_le {here opening : Opening} {content : List Char} {escaped : Bool}
    (h : Region.Consistent here (.single opening content escaped)) : opening.line ≤ here.line := by
  rw [h.1, Opening.past_line]
  exact Nat.le_add_right _ _

/-- A single literal is dropped before the next line is entered, so a run that
    drops nothing at the end of the source ends below all that it drops. -/
theorem Run.discarded_line_lt (h : Run s labels t) (hs : s.Consistent)
    (hkept : ∀ opening delimiter, Label.dropped opening delimiter ∉ labels) {line : Nat}
    {delimiter : Delimiter} (hmem : Event.discarded line delimiter ∈ labels.filterMap Label.event?) :
    line < t.line := by
  induction h with
  | stay => simp at hmem
  | @step s u t label labels hrule hrun ih =>
    obtain ⟨label', hlabel, hevent⟩ := List.mem_filterMap.1 hmem
    rcases List.mem_cons.1 hlabel with rfl | hlabel
    · -- The step itself drops the literal: it goes on to the next line.
      cases hrule with
      | turnSingle =>
        obtain ⟨rfl, -⟩ := Event.discarded.inj (Option.some.inj hevent)
        exact Nat.lt_of_lt_of_le (Nat.lt_succ_of_le hs.region.line_le) hrun.line_le
      | dropSingle | dropTriple => exact absurd List.mem_cons_self (hkept _ _)
      | _ => cases hevent
    · have hkept' : ∀ opening delimiter, Label.dropped opening delimiter ∉ labels := by
        intro opening delimiter hin
        exact hkept opening delimiter (List.mem_cons_of_mem _ hin)
      exact ih (consistent_step hrule hs) hkept' (List.mem_filterMap.2 ⟨label', hlabel, hevent⟩)

end Scan

end LiteralLint
