import LiteralLint.Proofs.Runs
import LiteralLint.Proofs.Written

/-! # Reachable States

  The states that a scan of a source comes to: those that a run from its
  initial state leads to, however the run is cut into calls for the next
  literal.

  The key ideas:

  - The scan is where it says that it is (`State.On`): the characters passed
    and ahead are the line of the source that has the number of the current
    line, and the lines not yet entered are those below it.
  - What is remembered of an open literal is what a literal can begin with:
    the content of a triple literal holds no three quotes in a row, as at most
    two are put into it at once and another character follows them
    (`heldByTriple_flush`).
  - Each step keeps this, together with what a region has in common with the text
    (`regular_step`), so every state has it (`State.Regular`).
  - Between two calls, no literal is open (`Call.region`).
  - A scan is deterministic. Of two runs from one state, one goes on where the
    other ends (`Run.comparable`), and so a scan comes to each place on a line
    once (`Run.eq_of_place`).
-/

namespace LiteralLint

open Scan Search

namespace Source

/-- The characters of the line with a given number. There are none on a line
    that the source does not have. -/
def chars (source : Source) (number : Nat) : List Char :=
  match source.line? number with
  | some line => line.text.toList
  | none => []

/-- There is no line before the first one. -/
@[simp] theorem chars_zero (source : Source) : source.chars 0 = [] := rfl

/-- The first of the lines below a line is the next one. -/
theorem chars_of_drop_eq_cons {source : Source} {number : Nat} {text : String}
    {pending : List String} (h : source.lines.toList.drop number = text :: pending) :
    number < source.size ∧ source.chars (number + 1) = text.toList
      ∧ source.lines.toList.drop (number + 1) = pending := by
  have hline : source.lines[number]? = some text := by
    rw [← Array.getElem?_toList, ← List.head?_drop, h]
    rfl
  refine ⟨(Array.getElem?_eq_some_iff.1 hline).1, ?_, ?_⟩
  · simp [chars, line?, hline]
  · rw [← List.tail_drop, h]
    rfl

end Source

namespace Scan

variable {source : Source} {s t u : State} {label label' : Label} {labels labels' : List Label}
  {answer : Answer}

/-! ### What Every Step Keeps -/

/-- A scan of the source is where it says that it is: at a place on the current
    line, above the lines not yet entered. -/
structure State.On (source : Source) (s : State) : Prop where
  line_le : s.line ≤ source.size
  chars_eq : s.passed.reverse ++ s.rest = source.chars s.line
  pending_eq : s.pending = source.lines.toList.drop s.line

theorem on_initial (source : Source) : (State.initial source).On source :=
  ⟨Nat.zero_le _, rfl, rfl⟩

/-- A scan with characters ahead has entered a line. -/
theorem State.On.line_pos (hs : s.On source) (hrest : s.rest ≠ []) : 1 ≤ s.line := by
  rcases Nat.eq_zero_or_pos s.line with hzero | hpos
  · have hchars := hs.chars_eq
    rw [hzero, Source.chars_zero, List.append_eq_nil_iff] at hchars
    exact absurd hchars.2 hrest
  · exact hpos

theorem on_step (h : Rule s label t) (hs : s.On source) : t.On source := by
  obtain ⟨hline, hchars, hpending⟩ := hs
  cases h with
  | turnOutside | turnSingle | turnTriple =>
    obtain ⟨hless, htext, hbelow⟩ := Source.chars_of_drop_eq_cons hpending.symm
    exact ⟨hless, htext.symm, hbelow.symm⟩
  | dropSingle | dropTriple => exact ⟨hline, hchars, hpending⟩
  | _ => exact ⟨hline, by simpa using hchars, hpending⟩

/-! ### Open Literals -/

/-- The literal that is open was opened on a line of the source, and not below
    the current one. -/
def State.OpenedAbove (s : State) : Prop :=
  ∀ opening, s.region.opening? = some opening → 1 ≤ opening.line ∧ opening.line ≤ s.line

theorem openedAbove_step (h : Rule s label t) (hon : s.On source) (hs : s.OpenedAbove) :
    t.OpenedAbove := by
  intro opening hopening
  cases h with
  | openTriple | openSingle _ =>
    obtain rfl := Option.some.inj hopening
    exact ⟨hon.line_pos (List.cons_ne_nil _ _), Nat.le_refl _⟩
  | readSingle _ | holdQuote _ | readTriple _ => exact hs opening hopening
  | turnTriple => exact (hs opening hopening).imp_right Nat.le_succ_of_le
  | skip _ | pair _ | closeSingle | closeTriple | turnOutside | turnSingle | dropSingle
  | dropTriple => cases hopening

/-- Up to two quotes after a content that a triple literal can hold do not make
    three in a row. -/
theorem quotes_not_infix {content : List Char} (h : HeldByTriple content) {quotes : Nat}
    (hquotes : quotes ≤ 2) :
    ¬ Delimiter.triple.quotes <:+: content ++ List.replicate quotes '"' := by
  induction quotes with
  | zero => simpa using h.1
  | succ quotes ih =>
    intro hin
    rw [List.replicate_succ', ← List.append_assoc] at hin
    rcases List.infix_concat_iff.1 hin with ⟨before, hbefore⟩ | hin
    · -- The content would end in the first of the three.
      have hthree : Delimiter.triple.quotes
          = List.replicate (2 - quotes) '"' ++ List.replicate (quotes + 1) '"' := by
        rw [List.replicate_append_replicate, show 2 - quotes + (quotes + 1) = 3 by omega]
        rfl
      rw [hthree, List.append_assoc content, ← List.replicate_succ', ← List.append_assoc] at hbefore
      have hcontent := List.append_cancel_right hbefore
      apply h.2
      rw [← hcontent, List.getLast?_append, List.getLast?_replicate, if_neg (by omega)]
      rfl
    · exact ih (by omega) hin

/-- Up to two quotes are put into a triple literal together with the character
    that ends their run. -/
theorem heldByTriple_flush {content : List Char} {quotes : Nat} {c : Char}
    (h : HeldByTriple content) (hquotes : quotes ≤ 2) (hc : c ≠ '"') :
    HeldByTriple (content ++ List.replicate quotes '"' ++ [c]) := by
  refine ⟨fun hin => ?_, by simpa using hc⟩
  rcases List.infix_concat_iff.1 hin with ⟨before, hbefore⟩ | hin
  · have hlast := congrArg List.getLast? hbefore
    rw [List.getLast?_append, List.getLast?_concat] at hlast
    exact hc (Option.some.inj hlast).symm
  · exact quotes_not_infix h hquotes hin

/-- The content of an open triple literal is one that the literal can hold. -/
def Region.HoldsTriple : Region → Prop
  | .outside | .single .. => True
  | .triple _ content _ => HeldByTriple content.reverse

theorem holdsTriple_step (h : Rule s label t) (hregion : s.region.Consistent s.here)
    (hs : s.region.HoldsTriple) : t.region.HoldsTriple := by
  cases h with
  | openTriple => exact heldByTriple_nil
  | holdQuote _ => exact hs
  | readTriple hc =>
    have hflush := heldByTriple_flush hs hregion.2 hc
    simpa [Region.HoldsTriple, withQuotes] using hflush
  | turnTriple =>
    have hflush := heldByTriple_flush hs hregion.2 (c := '\n') (by decide)
    simpa [Region.HoldsTriple, withQuotes] using hflush
  | _ => trivial

/-- What every state of a scan of the source has. -/
structure State.Regular (source : Source) (s : State) : Prop extends s.Consistent, s.On source where
  opened : s.OpenedAbove
  holds : s.region.HoldsTriple

theorem regular_initial (text : String) :
    (State.initial (Source.ofText text)).Regular (Source.ofText text) where
  toConsistent := consistent_initial text
  toOn := on_initial _
  opened := by
    intro opening hopening
    cases hopening
  holds := trivial

theorem regular_step (h : Rule s label t) (hs : s.Regular source) : t.Regular source where
  toConsistent := consistent_step h hs.toConsistent
  toOn := on_step h hs.toOn
  opened := openedAbove_step h hs.toOn hs.opened
  holds := holdsTriple_step h hs.region hs.holds

/-! ### Each Place Once -/

/-- No step leads back on a line. -/
theorem place_le_step (h : Rule s label t) :
    s.line < t.line ∨ s.line = t.line ∧ s.passed.length ≤ t.passed.length := by
  cases h with
  | turnOutside | turnSingle | turnTriple => exact .inl (Nat.lt_succ_self _)
  | _ => exact .inr ⟨rfl, by simp only [List.length_cons]; omega⟩

theorem Run.place_le (h : Run s labels t) :
    s.line < t.line ∨ s.line = t.line ∧ s.passed.length ≤ t.passed.length := by
  induction h with
  | stay => exact .inr ⟨rfl, Nat.le_refl _⟩
  | step hrule _ ih =>
    have hstep := place_le_step hrule
    omega

/-- A step with characters ahead passes one. -/
theorem place_lt_step (h : Rule s label t) (hrest : s.rest ≠ []) :
    s.line = t.line ∧ s.passed.length < t.passed.length := by
  cases h with
  | turnOutside | turnSingle | turnTriple | dropSingle | dropTriple => exact absurd rfl hrest
  | _ => exact ⟨rfl, by simp only [List.length_cons]; omega⟩

/-- A run does not come back to a place that it starts from with characters
    ahead. -/
theorem Run.eq_of_place_le (h : Run s labels t) (hrest : s.rest ≠ []) (hline : s.line = t.line)
    (hpassed : t.passed.length ≤ s.passed.length) : s = t := by
  cases h with
  | stay => rfl
  | step hrule hrun =>
    have hstep := place_lt_step hrule hrest
    have hplace := hrun.place_le
    omega

/-- A scan comes once to each place that a character of a line is at. -/
theorem Run.eq_of_place (h : Run s labels t) (h' : Run s labels' u) (ht : t.rest ≠ [])
    (hu : u.rest ≠ []) (hline : t.line = u.line) (hpassed : t.passed.length = u.passed.length) :
    t = u := by
  rcases h.comparable h' with ⟨more, hmore⟩ | ⟨more, hmore⟩
  · exact hmore.eq_of_place_le ht hline hpassed.ge
  · exact (hmore.eq_of_place_le hu hline.symm hpassed.le).symm

/-! ### Calls for the Next Literal -/

/-- A step that completes a literal leaves none open. -/
theorem region_of_literal {literal : Literal} (h : Rule s label t)
    (hliteral : label.literal? = some literal) : t.region = .outside := by
  cases h with
  | pair _ | closeSingle | closeTriple => rfl
  | _ => cases hliteral

/-- After a call, no literal is open. -/
theorem Call.region (h : Call s answer) : answer.state.region = .outside := by
  induction h with
  | ended hend => exact (step?_eq_none_iff.1 hend).2.2
  | found hrule hliteral => exact region_of_literal hrule hliteral
  | passed _ _ _ ih => exact ih

/-- A call is a run. -/
theorem Call.exists_run (h : Call s answer) : ∃ labels, Run s labels answer.state := by
  induction h with
  | ended => exact ⟨[], .stay _⟩
  | found hrule => exact ⟨_, .step hrule (.stay _)⟩
  | passed hrule _ _ ih =>
    obtain ⟨labels, hrun⟩ := ih
    exact ⟨_, .step hrule hrun⟩

end Scan

end LiteralLint
