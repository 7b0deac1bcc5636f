import LiteralLint.Lint
import LiteralLint.Proofs.Blur
import LiteralLint.Proofs.Rules

/-! # Scans of Blurred Texts

  A blurred text has the literals of the text, and the findings, but for being
  blurred themselves. The key ideas:

  - `State.blurred` is the state of a scan of the blurred text. Of a run, the
    first character is the one that is shown, so a step of the scan is a step
    there or, further on in the run, none at all (`rule_blurred`).
  - This needs the remembered content of an open literal to end in a run
    exactly when the text passed does (`Region.InStep`).
-/

namespace LiteralLint

open Scan

namespace Scan

/-! ### Blurred States -/

/-- An opening, blurred. -/
def Opening.blurred (opening : Opening) : Opening :=
  { opening with before := blurBack opening.before }

theorem Opening.mark_blurred (opening : Opening) : opening.blurred.mark = opening.mark.blurred := by
  rw [mark, blurred, head?_blurBack, Mark.ofPreceding_blurChar, ← mark]

/-- A region, blurred. -/
def Region.blurred : Region → Region
  | .outside => .outside
  | .single opening content escaped => .single opening.blurred (blurBack content) escaped
  | .triple opening content quotes => .triple opening.blurred (blurBack content) quotes

/-- The state of a scan of the blurred text. The run that was passed last is
    shown already, so that nothing is put for the rest of it. -/
def State.blurred (s : State) : State where
  line := s.line
  passed := blurBack s.passed
  rest := blur (endsInRun s.passed) s.rest
  pending := s.pending.map blurText
  region := s.region.blurred

/-- A label, blurred. -/
def Label.blurred : Label → Label
  | .skipped => .skipped
  | .opened opening delimiter => .opened opening.blurred delimiter
  | .read => .read
  | .closed opening delimiter content => .closed opening.blurred delimiter (blurBack content)
  | .paired opening => .paired opening.blurred
  | .turned dropped? => .turned (dropped?.map Opening.blurred)
  | .dropped opening delimiter => .dropped opening.blurred delimiter

/-- The literal of a blurred label is the blurred literal. -/
theorem Label.literal?_blurred (label : Label) :
    label.blurred.literal? = label.literal?.map Literal.blurred := by
  cases label with
  | closed opening delimiter content =>
    rw [blurred, literal?, literal?, Opening.mark_blurred, reverse_blurBack, Option.map_some,
      Literal.blurred, blurText, String.toList_ofList]
    rfl
  | paired opening =>
    rw [blurred, literal?, literal?, Opening.mark_blurred]
    rfl
  | _ => rfl

/-! ### In Step with the Text -/

/-- What is remembered of an open literal ends in a run exactly when the text
    that was passed does, and within a run nothing is pending that the next
    character decides. -/
def Region.InStep (passed : List Char) : Region → Prop
  | .outside => True
  | .single _ content escaped =>
    endsInRun content = endsInRun passed ∧ (endsInRun passed = true → escaped = false)
  | .triple _ content 0 => endsInRun content = endsInRun passed
  | .triple _ _ (_ + 1) => endsInRun passed = false

variable {s t : State} {label : Label}

/-- Every step keeps the region in step with the text. -/
theorem inStep_step (h : Rule s label t) (hs : s.region.InStep s.passed) :
    t.region.InStep t.passed := by
  cases h with
  | skip _ | pair _ | closeSingle | closeTriple | turnOutside | turnSingle | dropSingle
  | dropTriple => trivial
  | openTriple => rfl
  | openSingle _ => exact ⟨rfl, fun _ => rfl⟩
  | @readSingle line passed rest pending opening content escaped c _ =>
    refine ⟨rfl, fun hrun => ?_⟩
    have hc : c ≠ '\\' := ne_of_beyond (by simpa [endsInRun] using hrun) (by decide)
    simp [hc]
  | holdQuote _ => rfl
  | readTriple _ => rfl
  | turnTriple => rfl

/-- Quotes that are held back are within ASCII. -/
theorem blurBack_withQuotes (quotes : Nat) (content : List Char) :
    blurBack (withQuotes quotes content) = withQuotes quotes (blurBack content) := by
  induction quotes with
  | zero => rfl
  | succ quotes ih =>
    have hcons : ∀ content, withQuotes (quotes + 1) content = '"' :: withQuotes quotes content :=
      fun content => rfl
    rw [hcons, hcons, blurBack_ascii (by decide), ih]

/-- Whether the content of a triple literal ends in a run once the quotes held
    back are part of it. -/
theorem endsInRun_withQuotes {opening : Opening} {passed content : List Char} {quotes : Nat}
    (h : Region.InStep passed (.triple opening content quotes)) :
    endsInRun (withQuotes quotes content) = endsInRun passed := by
  cases quotes with
  | zero => exact h
  | succ quotes => exact (show endsInRun passed = false from h).symm

/-! ### Steps of the Blurred Scan -/

/-- A character that is passed by itself is passed in the blurred scan, or it
    is further on in a run and the region does not show it. -/
theorem rule_blurred_char {line : Nat} {passed rest : List Char} {c : Char}
    {pending : List String} {region region' : Region} (hlabel : label.literal? = none)
    (hshown : isAscii c = true ∨ endsInRun passed = false →
      Rule ⟨line, blurBack passed, blurChar c :: blur (endsInRun (c :: passed)) rest,
          pending.map blurText, region.blurred⟩ label.blurred
        ⟨line, blurChar c :: blurBack passed, blur (endsInRun (c :: passed)) rest,
          pending.map blurText, region'.blurred⟩)
    (hhidden : isAscii c = false → endsInRun passed = true → region'.blurred = region.blurred) :
    Rule (State.blurred ⟨line, passed, c :: rest, pending, region⟩) label.blurred
        (State.blurred ⟨line, c :: passed, rest, pending, region'⟩)
      ∨ State.blurred ⟨line, c :: passed, rest, pending, region'⟩
          = State.blurred ⟨line, passed, c :: rest, pending, region⟩ ∧ label.literal? = none := by
  by_cases hc : isAscii c = true ∨ endsInRun passed = false
  · obtain ⟨hrest, hpassed⟩ := blur_shown hc rest
    left
    simp only [State.blurred, hrest, hpassed]
    exact hshown hc
  · obtain ⟨hbeyond, hrun⟩ : isAscii c = false ∧ endsInRun passed = true := by simpa using hc
    obtain ⟨hrest, hpassed⟩ := blur_hidden hbeyond hrun rest
    right
    simp only [State.blurred, hrest, hpassed, hhidden hbeyond hrun]
    exact ⟨trivial, hlabel⟩

/-- **A step is a step of the blurred scan, or further on in a run.** In the
    latter case, the blurred scan stays where it is. -/
theorem rule_blurred (h : Rule s label t) (hs : s.region.InStep s.passed) :
    Rule s.blurred label.blurred t.blurred ∨ (t.blurred = s.blurred ∧ label.literal? = none) := by
  have hnext : ∀ (line : Nat) (text : String) (pending : List String) (region : Region),
      State.blurred ⟨line, [], text.toList, pending, region⟩
        = ⟨line, [], (blurText text).toList, pending.map blurText, region.blurred⟩ := by
    intro line text pending region
    rw [toList_blurText]
    rfl
  cases h with
  | @skip line passed rest pending c hc =>
    refine rule_blurred_char rfl (fun _ => .skip ?_) (fun _ _ => rfl)
    rwa [ne_eq, blurChar_eq_iff (by decide)]
  | @readSingle line passed rest pending opening content escaped c hc =>
    obtain ⟨hcontent, hescaped⟩ := hs
    have hslash : (c = '\\' && !escaped) = (blurChar c = '\\' && !escaped) := by
      simp only [blurChar_eq_iff (show isAscii '\\' = true by decide)]
    refine rule_blurred_char rfl (fun hshown => ?_) (fun hbeyond hrun => ?_)
    · obtain ⟨-, hbody⟩ := blur_shown (hcontent ▸ hshown) rest
      have hopen : ¬ (blurChar c = '"' ∧ escaped = false) := by
        rwa [blurChar_eq_iff (by decide)]
      simp only [Region.blurred, hbody, hslash]
      exact .readSingle hopen
    · -- The character before was not a backslash either.
      obtain ⟨-, hbody⟩ := blur_hidden hbeyond (hcontent.trans hrun) rest
      have hnone : c ≠ '\\' := ne_of_beyond hbeyond (by decide)
      simp [Region.blurred, hbody, hescaped hrun, hnone]
  | @readTriple line passed rest pending opening content quotes c hc =>
    have hcontent := endsInRun_withQuotes hs
    refine rule_blurred_char rfl (fun hshown => ?_) (fun hbeyond hrun => ?_)
    · obtain ⟨-, hbody⟩ := blur_shown (hcontent ▸ hshown) rest
      have hquote : blurChar c ≠ '"' := by
        rwa [ne_eq, blurChar_eq_iff (by decide)]
      simp only [Region.blurred, hbody, blurBack_withQuotes]
      exact .readTriple hquote
    · -- Within a run, no quotes are held back.
      obtain ⟨-, hbody⟩ := blur_hidden hbeyond (hcontent.trans hrun) rest
      cases quotes with
      | zero =>
        simp only [Region.blurred, hbody]
        rfl
      | succ quotes => exact absurd hrun (by simp [show endsInRun passed = false from hs])
  | openTriple =>
    left
    simp only [State.blurred, blur_quote, blurBack_quote, endsInRun_quote]
    exact .openTriple
  | pair hrest =>
    left
    simp only [State.blurred, blur_quote, blurBack_quote, endsInRun_quote]
    exact .pair fun hhead => hrest ((head?_blur_eq_some_iff (by decide)).1 hhead)
  | openSingle hrest =>
    left
    simp only [State.blurred, blur_quote, blurBack_quote, endsInRun_quote]
    exact .openSingle fun hhead => hrest ((head?_blur_eq_some_iff (by decide)).1 hhead)
  | closeSingle =>
    left
    simp only [State.blurred, blur_quote, blurBack_quote, endsInRun_quote]
    exact .closeSingle
  | closeTriple =>
    left
    simp only [State.blurred, blur_quote, blurBack_quote, endsInRun_quote]
    exact .closeTriple
  | holdQuote hquotes =>
    left
    simp only [State.blurred, blur_quote, blurBack_quote, endsInRun_quote]
    exact .holdQuote hquotes
  | turnOutside =>
    left
    rw [hnext]
    exact .turnOutside
  | turnSingle =>
    left
    rw [hnext]
    exact .turnSingle
  | turnTriple =>
    left
    rw [hnext, Region.blurred, blurBack_ascii (by decide), blurBack_withQuotes]
    exact .turnTriple
  | dropSingle => exact .inl .dropSingle
  | dropTriple => exact .inl .dropTriple

/-- A scan that has ended has ended in the blurred text. -/
theorem step?_blurred_eq_none (h : step? s = none) : step? s.blurred = none := by
  obtain ⟨hrest, hpending, hregion⟩ := step?_eq_none_iff.1 h
  rw [step?_eq_none_iff, State.blurred, hrest, hpending, hregion]
  exact ⟨rfl, rfl, rfl⟩

/-- A scan of the blurred text finds the blurred literals. -/
theorem filterMap_trace_blurred (hs : s.region.InStep s.passed) :
    (trace s.blurred).filterMap Label.literal?
      = ((trace s).filterMap Label.literal?).map Literal.blurred := by
  induction s using run_induction with
  | hend s hend =>
    rw [trace_of_end hend, trace_of_end (step?_blurred_eq_none hend), List.filterMap_nil,
      List.map_nil]
  | hstep s label t hrule ih =>
    have ih' := ih (inStep_step hrule hs)
    rw [trace_of_rule hrule, List.filterMap_cons]
    rcases rule_blurred hrule hs with hblurred | ⟨hstay, hliteral⟩
    · rw [trace_of_rule hblurred, List.filterMap_cons, Label.literal?_blurred, ih']
      cases label.literal? <;> rfl
    · rw [← hstay, ih', hliteral]

end Scan

/-! ### Literals and Findings of a Blurred Source -/

namespace Source

/-- **A blurred source has the blurred literals.** -/
theorem literals_blurred (source : Source) :
    source.blurred.literals = source.literals.map Literal.blurred := by
  have hinitial : State.initial source.blurred = (State.initial source).blurred := by
    simp [State.initial, blurred, State.blurred, blurBack, Region.blurred]
  rw [literals, trace, hinitial]
  exact filterMap_trace_blurred trivial

/-- It has the blurred findings, too. -/
theorem findings_blurred (source : Source) :
    source.blurred.findings = source.findings.map Finding.blurred := by
  have hfinding : Literal.finding? ∘ Literal.blurred
      = fun literal => literal.finding?.map Finding.blurred := by
    funext literal
    rw [Function.comp_apply, Literal.finding?_blurred]
  rw [findings, literals_blurred, List.filterMap_map, hfinding, findings, List.map_filterMap]

end Source

end LiteralLint
