import LiteralLint.Scan.Trace

/-! # The Rules of a Scan

  All that a single step can do, as a relation with one rule for each case:
  what the state must be, how the step is labelled, and what the state is
  afterwards. `step?_eq_some_iff` states that the scan takes exactly these
  steps, and `step?_eq_none_iff` where it ends.

  A fact about whole scans is then proved rule by rule, and `run_induction`
  carries it along the steps.
-/

namespace LiteralLint

namespace Scan

/-! ### Rules -/

/-- `Rule s label t`: from `s` there is a step to `t` with this label. -/
inductive Rule : State → Label → State → Prop
  /-- Outside, a character that is no quote is skipped. -/
  | skip {line : Nat} {passed rest : List Char} {pending : List String} {c : Char}
      (hc : c ≠ '"') :
      Rule ⟨line, passed, c :: rest, pending, .outside⟩ .skipped
        ⟨line, c :: passed, rest, pending, .outside⟩
  /-- Outside, three quotes in a row open a triple literal. -/
  | openTriple {line : Nat} {passed rest : List Char} {pending : List String} :
      Rule ⟨line, passed, '"' :: '"' :: '"' :: rest, pending, .outside⟩
        (.opened ⟨line, passed⟩ .triple)
        ⟨line, '"' :: '"' :: '"' :: passed, rest, pending, .triple ⟨line, passed⟩ [] 0⟩
  /-- Outside, exactly two quotes are an empty literal. -/
  | pair {line : Nat} {passed rest : List Char} {pending : List String}
      (hrest : rest.head? ≠ some '"') :
      Rule ⟨line, passed, '"' :: '"' :: rest, pending, .outside⟩ (.paired ⟨line, passed⟩)
        ⟨line, '"' :: '"' :: passed, rest, pending, .outside⟩
  /-- Outside, a quote by itself opens a single literal. -/
  | openSingle {line : Nat} {passed rest : List Char} {pending : List String}
      (hrest : rest.head? ≠ some '"') :
      Rule ⟨line, passed, '"' :: rest, pending, .outside⟩ (.opened ⟨line, passed⟩ .single)
        ⟨line, '"' :: passed, rest, pending, .single ⟨line, passed⟩ [] false⟩
  /-- A quote that is not escaped closes a single literal. -/
  | closeSingle {line : Nat} {passed rest : List Char} {pending : List String}
      {opening : Opening} {content : List Char} :
      Rule ⟨line, passed, '"' :: rest, pending, .single opening content false⟩
        (.closed opening .single content) ⟨line, '"' :: passed, rest, pending, .outside⟩
  /-- Any other character is content of a single literal. -/
  | readSingle {line : Nat} {passed rest : List Char} {pending : List String}
      {opening : Opening} {content : List Char} {escaped : Bool} {c : Char}
      (hc : ¬ (c = '"' ∧ escaped = false)) :
      Rule ⟨line, passed, c :: rest, pending, .single opening content escaped⟩ .read
        ⟨line, c :: passed, rest, pending,
          .single opening (c :: content) (c = '\\' && !escaped)⟩
  /-- The third quote in a row closes a triple literal. -/
  | closeTriple {line : Nat} {passed rest : List Char} {pending : List String}
      {opening : Opening} {content : List Char} :
      Rule ⟨line, passed, '"' :: rest, pending, .triple opening content 2⟩
        (.closed opening .triple content) ⟨line, '"' :: passed, rest, pending, .outside⟩
  /-- Any other quote in a triple literal is held back. -/
  | holdQuote {line : Nat} {passed rest : List Char} {pending : List String}
      {opening : Opening} {content : List Char} {quotes : Nat} (hquotes : quotes ≠ 2) :
      Rule ⟨line, passed, '"' :: rest, pending, .triple opening content quotes⟩ .read
        ⟨line, '"' :: passed, rest, pending, .triple opening content (quotes + 1)⟩
  /-- Any other character is content of a triple literal, and so are the
      quotes held back. -/
  | readTriple {line : Nat} {passed rest : List Char} {pending : List String}
      {opening : Opening} {content : List Char} {quotes : Nat} {c : Char} (hc : c ≠ '"') :
      Rule ⟨line, passed, c :: rest, pending, .triple opening content quotes⟩ .read
        ⟨line, c :: passed, rest, pending, .triple opening (c :: withQuotes quotes content) 0⟩
  /-- Outside, the end of a line only leads to the next one. -/
  | turnOutside {line : Nat} {passed : List Char} {text : String} {pending : List String} :
      Rule ⟨line, passed, [], text :: pending, .outside⟩ (.turned none)
        ⟨line + 1, [], text.toList, pending, .outside⟩
  /-- The end of a line drops a single literal. -/
  | turnSingle {line : Nat} {passed : List Char} {text : String} {pending : List String}
      {opening : Opening} {content : List Char} {escaped : Bool} :
      Rule ⟨line, passed, [], text :: pending, .single opening content escaped⟩
        (.turned (some opening)) ⟨line + 1, [], text.toList, pending, .outside⟩
  /-- The end of a line is content of a triple literal, and so are the quotes
      held back. -/
  | turnTriple {line : Nat} {passed : List Char} {text : String} {pending : List String}
      {opening : Opening} {content : List Char} {quotes : Nat} :
      Rule ⟨line, passed, [], text :: pending, .triple opening content quotes⟩ (.turned none)
        ⟨line + 1, [], text.toList, pending,
          .triple opening ('\n' :: withQuotes quotes content) 0⟩
  /-- The end of the source drops a single literal. -/
  | dropSingle {line : Nat} {passed : List Char} {opening : Opening} {content : List Char}
      {escaped : Bool} :
      Rule ⟨line, passed, [], [], .single opening content escaped⟩ (.dropped opening .single)
        ⟨line, passed, [], [], .outside⟩
  /-- The end of the source drops a triple literal. -/
  | dropTriple {line : Nat} {passed : List Char} {opening : Opening} {content : List Char}
      {quotes : Nat} :
      Rule ⟨line, passed, [], [], .triple opening content quotes⟩ (.dropped opening .triple)
        ⟨line, passed, [], [], .outside⟩

/-! ### The Steps Are the Rules -/

variable {s t : State} {label : Label}

/-- What is after a quote decides what it opens. -/
theorem rule_openStep {line : Nat} {passed rest : List Char} {pending : List String}
    (h : openStep ⟨line, passed, '"' :: rest, pending, .outside⟩ rest = (label, t)) :
    Rule ⟨line, passed, '"' :: rest, pending, .outside⟩ label t := by
  unfold openStep at h
  split at h
  · cases h
    exact .openTriple
  · next rest hthree =>
    -- That the case before did not apply says that there is no third quote.
    cases h
    refine .pair fun hhead => ?_
    obtain ⟨tail, rfl⟩ := List.head?_eq_some_iff.1 hhead
    exact hthree tail rfl
  · next rest _ htwo =>
    cases h
    refine .openSingle fun hhead => ?_
    obtain ⟨tail, rfl⟩ := List.head?_eq_some_iff.1 hhead
    exact htwo tail rfl

/-- A step that passes a character obeys the rules. -/
theorem rule_charStep {line : Nat} {passed rest : List Char} {pending : List String}
    {region : Region} {c : Char}
    (h : charStep ⟨line, passed, c :: rest, pending, region⟩ c rest = (label, t)) :
    Rule ⟨line, passed, c :: rest, pending, region⟩ label t := by
  cases region with
  | outside =>
    by_cases hc : c = '"'
    · subst hc
      exact rule_openStep h
    · simp only [charStep, hc, if_false] at h
      cases h
      exact .skip hc
  | single opening content escaped =>
    by_cases hc : c = '"' ∧ escaped = false
    · obtain ⟨rfl, rfl⟩ := hc
      cases h
      exact .closeSingle
    · simp only [charStep, hc, if_false] at h
      cases h
      exact .readSingle hc
  | triple opening content quotes =>
    by_cases hc : c = '"'
    · subst hc
      by_cases hquotes : quotes = 2
      · subst hquotes
        cases h
        exact .closeTriple
      · have hthird : quotes + 1 ≠ 3 := by omega
        simp only [charStep, if_true, hthird, if_false] at h
        cases h
        exact .holdQuote hquotes
    · simp only [charStep, hc, if_false] at h
      cases h
      exact .readTriple hc

/-- The steps of a scan are those that the rules allow. -/
theorem step?_eq_some_iff : step? s = some (label, t) ↔ Rule s label t := by
  constructor
  · -- What is ahead and what is open decide the step, and thereby the rule.
    intro h
    obtain ⟨line, passed, rest, pending, region⟩ := s
    cases rest with
    | cons c rest => exact rule_charStep (Option.some.inj h)
    | nil =>
      cases pending with
      | cons text pending =>
        cases region <;> cases h
        · exact .turnOutside
        · exact .turnSingle
        · exact .turnTriple
      | nil =>
        cases region <;> cases h
        · exact .dropSingle
        · exact .dropTriple
  · -- Each rule is a case of the definition.
    intro h
    cases h with
    | skip hc => simp [step?, charStep, hc]
    | openTriple => rfl
    | pair hrest =>
      simp only [step?, charStep, if_true, openStep]
      split <;> simp_all
    | openSingle hrest =>
      simp only [step?, charStep, if_true, openStep]
      split <;> simp_all
    | closeSingle => rfl
    | readSingle hc => simp [step?, charStep, hc]
    | closeTriple => rfl
    | holdQuote hquotes =>
      simp [step?, charStep, hquotes]
    | readTriple hc => simp [step?, charStep, hc]
    | turnOutside => rfl
    | turnSingle => rfl
    | turnTriple => rfl
    | dropSingle => rfl
    | dropTriple => rfl

/-- A scan ends outside every literal, with nothing ahead. -/
theorem step?_eq_none_iff :
    step? s = none ↔ s.rest = [] ∧ s.pending = [] ∧ s.region = .outside := by
  obtain ⟨line, passed, rest, pending, region⟩ := s
  cases rest with
  | cons c rest => simp [step?]
  | nil =>
    cases pending with
    | cons text pending => simp [step?]
    | nil => cases region <;> simp [step?, endStep?]

/-- The rules leave no choice. -/
theorem rule_unique {label' : Label} {u : State} (h : Rule s label t) (h' : Rule s label' u) :
    label = label' ∧ t = u := by
  have hstep := (step?_eq_some_iff.2 h).symm.trans (step?_eq_some_iff.2 h')
  simpa using hstep

/-! ### Induction along a Scan -/

/-- What holds of the states in which a scan has ended, and of a state
    whenever it holds after a step from there, holds of every state. -/
theorem run_induction {motive : State → Prop}
    (hend : ∀ s, step? s = none → motive s)
    (hstep : ∀ s label t, Rule s label t → motive t → motive s) (s : State) : motive s := by
  cases h : step? s with
  | none => exact hend s h
  | some next =>
    obtain ⟨label, t⟩ := next
    have hless := step?_work h
    exact hstep s label t (step?_eq_some_iff.1 h) (run_induction hend hstep t)
termination_by s.work

/-- The trace from a state that a rule applies to. -/
theorem trace_of_rule (h : Rule s label t) : trace s = label :: trace t :=
  trace_of_step (step?_eq_some_iff.2 h)

/-- What is read off a trace, step by step. -/
theorem filterMap_trace_of_rule {α : Type} (read : Label → Option α) (h : Rule s label t) :
    (trace s).filterMap read = (read label).toList ++ (trace t).filterMap read := by
  rw [trace_of_rule h, List.filterMap_cons]
  cases read label <;> rfl

end Scan

end LiteralLint
