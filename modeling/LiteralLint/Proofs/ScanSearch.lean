import LiteralLint.Proofs.Rules
import LiteralLint.Proofs.Search

/-! # A Scan Finds What a Search Finds

  The scan goes through a source once, character by character, and remembers
  what it is inside of. The search jumps from quote to quote and remembers
  nothing. They find the same literals.

  The key ideas:

  - A state is *consistent* when what it remembers of an open literal is what
    the text passed since its opening says: `Region.Consistent` reads it off
    that text. Every step keeps this.
  - `State.remaining` is what a search finds that starts where the scan is:
    outside every literal, or with a part of one behind it. Every step takes
    from it the literal that it completes, and nothing else.
  - `Passes` says more of a step: it takes this literal from any text that
    begins with what the step passes (`passes_step`).
-/

namespace LiteralLint

open Search

namespace Scan

/-! ### Consistent States -/

namespace State

/-- Where a literal opens that opens here. -/
def here (s : State) : Opening := ⟨s.line, s.passed⟩

/-- The text ahead: the rest of the line, and each line not yet entered after
    a line feed. -/
def ahead (s : State) : List Char :=
  s.rest ++ s.pending.flatMap fun text => '\n' :: text.toList

end State

/-- What is remembered of an open literal agrees with the text between its
    opening and the place where the scan is.

    - Inside a single literal, that text is the opening quote and the content.
      It is all on one line, and the next character is escaped when the
      content ends in an odd number of backslashes.
    - Inside a triple literal, it is the opening quotes, the content, and the
      quotes held back, of which there are at most two. -/
def Region.Consistent (here : Opening) : Region → Prop
  | .outside => True
  | .single opening content escaped =>
    here = opening.past ('"' :: content.reverse) ∧ '\n' ∉ content
      ∧ (escaped = true ↔ backslashRun content % 2 = 1)
  | .triple opening content quotes =>
    here = opening.past (Delimiter.triple.quotes ++ content.reverse ++ List.replicate quotes '"')
      ∧ quotes ≤ 2

/-- The lines of a state hold no line feed. -/
structure State.Lined (s : State) : Prop where
  passed : '\n' ∉ s.passed
  rest : '\n' ∉ s.rest
  pending : ∀ text ∈ s.pending, '\n' ∉ text.toList

/-- The lines of a state are lines, and its region agrees with them. -/
structure State.Consistent (s : State) : Prop extends s.Lined where
  region : s.region.Consistent s.here

/-- A step only moves between lines and along them. -/
theorem lined_step {s t : State} {label : Label} (h : Rule s label t) (hs : s.Lined) :
    t.Lined := by
  obtain ⟨hpassed, hrest, hpending⟩ := hs
  cases h <;> constructor <;> simp_all

/-- A character of the line leads from a place to the next one. -/
theorem past_char {line : Nat} {passed : List Char} {c : Char} (hpassed : '\n' ∉ passed)
    (hc : c ≠ '\n') : Opening.past ⟨line, passed⟩ [c] = ⟨line, c :: passed⟩ :=
  Opening.past_of_notMem hpassed (by simpa using Ne.symm hc)

/-- A scan counts backslashes modulo two. -/
theorem escaped_iff {escaped : Bool} {content : List Char}
    (h : escaped = true ↔ backslashRun content % 2 = 1) (c : Char) :
    (c = '\\' && !escaped) = true ↔ backslashRun (c :: content) % 2 = 1 := by
  rw [backslashRun_cons]
  by_cases hc : c = '\\'
  · -- The flag is turned round and the run is longer by one.
    cases escaped
    · simp only [Bool.false_eq_true, false_iff] at h
      simp [hc]
      omega
    · simp only [true_iff] at h
      simp [hc]
      omega
  · simp [hc]

/-- A character of its content is read in a single literal. -/
theorem Region.Consistent.readSingle {here opening : Opening} {content : List Char}
    {escaped : Bool} {c : Char} (hc : c ≠ '\n')
    (h : Region.Consistent here (.single opening content escaped)) :
    Region.Consistent (here.past [c])
      (.single opening (c :: content) (c = '\\' && !escaped)) := by
  obtain ⟨rfl, hcontent, hescaped⟩ := h
  refine ⟨?_, by simpa using ⟨Ne.symm hc, hcontent⟩, escaped_iff hescaped c⟩
  simp

/-- A quote is held back in a triple literal. -/
theorem Region.Consistent.holdQuote {here opening : Opening} {content : List Char} {quotes : Nat}
    (hquotes : quotes ≠ 2) (h : Region.Consistent here (.triple opening content quotes)) :
    Region.Consistent (here.past ['"']) (.triple opening content (quotes + 1)) := by
  obtain ⟨rfl, hfew⟩ := h
  refine ⟨?_, by omega⟩
  simp [List.replicate_succ']

/-- A character that ends a run of quotes is read in a triple literal. The end
    of a line is such a character. -/
theorem Region.Consistent.readTriple {here opening : Opening} {content : List Char}
    {quotes : Nat} (c : Char) (h : Region.Consistent here (.triple opening content quotes)) :
    Region.Consistent (here.past [c]) (.triple opening (c :: withQuotes quotes content) 0) := by
  obtain ⟨rfl, -⟩ := h
  refine ⟨?_, Nat.zero_le _⟩
  simp [withQuotes]

/-- What is remembered of an open literal stays in agreement with the text. -/
theorem region_step {s t : State} {label : Label} (h : Rule s label t) (hs : s.Consistent) :
    t.region.Consistent t.here := by
  obtain ⟨⟨hpassed, hrest, -⟩, hregion⟩ := hs
  cases h with
  -- After these steps, no literal is open.
  | skip _ | pair _ | closeSingle | closeTriple | turnOutside | turnSingle | dropSingle
  | dropTriple => trivial
  | @openTriple line passed =>
    have hquotes := @Opening.past_of_notMem ⟨line, passed⟩ hpassed
      Delimiter.triple.quotes (by decide)
    exact ⟨by simpa [State.here, Delimiter.quotes] using hquotes.symm, Nat.zero_le _⟩
  | openSingle _ =>
    refine ⟨?_, by simp, by simp [backslashRun]⟩
    exact (past_char hpassed (c := '"') (by decide)).symm
  | @readSingle line passed rest pending opening content escaped c _ =>
    have hc : c ≠ '\n' := by
      intro heq
      subst heq
      exact hrest List.mem_cons_self
    rw [State.here, ← past_char hpassed hc]
    exact hregion.readSingle hc
  | holdQuote hquotes =>
    rw [State.here, ← past_char hpassed (by decide)]
    exact hregion.holdQuote hquotes
  | @readTriple line passed rest pending opening content quotes c _ =>
    have hc : c ≠ '\n' := by
      intro heq
      subst heq
      exact hrest List.mem_cons_self
    rw [State.here, ← past_char hpassed hc]
    exact hregion.readTriple c
  | turnTriple =>
    have hturn := hregion.readTriple '\n'
    rwa [Opening.past_feed] at hturn

/-- Every step leads from a consistent state to a consistent one. -/
theorem consistent_step {s t : State} {label : Label} (h : Rule s label t) (hs : s.Consistent) :
    t.Consistent :=
  ⟨lined_step h hs.toLined, region_step h hs⟩

/-- A scan of a text starts in a consistent state. -/
theorem consistent_initial (text : String) : (State.initial (Source.ofText text)).Consistent where
  passed := by simp [State.initial]
  rest := by simp [State.initial]
  pending := Source.notMem_lines_ofText text
  region := trivial

/-! ### What Remains to Be Found -/

/-- What a search finds in the text `ahead` from a place inside of a region. -/
def Region.remaining (region : Region) (here : Opening) (ahead : List Char) : List Literal :=
  match region with
  | .outside => search ⟨here, ahead⟩
  | .single opening content _ => (singleRound opening content ahead).literals
  | .triple opening content quotes =>
    (tripleRound opening content (List.replicate quotes '"' ++ ahead)).literals

/-- What a search finds that starts where the scan is. -/
def State.remaining (s : State) : List Literal := s.region.remaining s.here s.ahead

/-- A line that does not begin with a quote has none ahead. -/
theorem head?_ahead {s : State} (hhead : s.rest.head? ≠ some '"') :
    s.ahead.head? ≠ some '"' := by
  obtain ⟨line, passed, rest, pending, region⟩ := s
  cases rest with
  | cons c rest => exact hhead
  | nil => cases pending <;> simp [State.ahead]

/-- Steps with these labels lead from `s` to `t` along the text `word`. What a
    search finds in that text is what the steps complete, and this does not
    depend on the text after it. Only a quote must not come after it where the
    scan saw none, as it could go with the quotes that were passed last. -/
structure Passes (s : State) (labels : List Label) (t : State) (word : List Char) : Prop where
  ahead_eq : s.ahead = word ++ t.ahead
  here_eq : t.here = s.here.past word
  remaining_eq : ∀ ahead : List Char, (ahead.head? = some '"' → t.ahead.head? = some '"') →
    s.region.remaining s.here (word ++ ahead)
      = labels.filterMap Label.literal? ++ t.region.remaining t.here ahead

/-- Every step passes a part of the text, unless the text is over. -/
theorem passes_step {s t : State} {label : Label} (h : Rule s label t) (hs : s.Consistent)
    (hahead : s.ahead ≠ []) : ∃ word, Passes s [label] t word := by
  obtain ⟨⟨hpassed, hrest, -⟩, hregion⟩ := hs
  cases h with
  | @skip line passed rest pending c hc =>
    have hfeed : c ≠ '\n' := by
      intro heq
      subst heq
      exact hrest List.mem_cons_self
    exact ⟨[c], rfl, (past_char hpassed hfeed).symm, fun ahead _ => search_pass hc hfeed⟩
  | @openTriple line passed =>
    have hquotes := @Opening.past_of_notMem ⟨line, passed⟩ hpassed
      Delimiter.triple.quotes (by decide)
    exact ⟨Delimiter.triple.quotes, rfl, hquotes.symm, fun ahead _ => search_quote⟩
  | @pair line passed rest pending hhead =>
    have hnext := @Opening.past_of_notMem ⟨line, passed⟩ hpassed ['"', '"'] (by decide)
    refine ⟨['"', '"'], rfl, hnext.symm, fun ahead hquote => ?_⟩
    have hnone : ahead.head? ≠ some '"' := mt hquote (head?_ahead hhead)
    show search ⟨_, '"' :: '"' :: ahead⟩ = _
    rw [search_quote, quoteRound_pair hnone, Round.literals_found]
    exact congrArg (_ :: search ⟨·, _⟩) hnext
  | @openSingle line passed rest pending hhead =>
    refine ⟨['"'], rfl, (past_char hpassed (by decide)).symm, fun ahead hquote => ?_⟩
    have hnone : ahead.head? ≠ some '"' := mt hquote (head?_ahead hhead)
    show search ⟨_, '"' :: ahead⟩ = _
    rw [search_quote, quoteRound_single hnone]
    rfl
  | @closeSingle line passed rest pending opening content =>
    obtain ⟨hhere, -, hescaped⟩ := hregion
    -- The quote is not escaped, so the search stops at it, too.
    have heven : backslashRun content % 2 = 0 := by
      simp only [Bool.false_eq_true, false_iff] at hescaped
      omega
    have hpast := @past_char line passed '"' hpassed (by decide)
    have hnext : opening.past (Delimiter.single.enclose content.reverse)
        = ⟨line, '"' :: passed⟩ := by
      rw [← hpast]
      exact (Opening.past_past _ _ _).symm.trans (congrArg (Opening.past · ['"']) hhere.symm)
    refine ⟨['"'], rfl, hpast.symm, fun ahead _ => ?_⟩
    show (singleRound opening content ('"' :: ahead)).literals = _
    rw [singleRound_close heven, Round.literals_found, hnext]
    rfl
  | @readSingle line passed rest pending opening content escaped c hopen =>
    obtain ⟨-, -, hescaped⟩ := hregion
    have hfeed : c ≠ '\n' := by
      intro heq
      subst heq
      exact hrest List.mem_cons_self
    have hopen' : ¬ (c = '"' ∧ backslashRun content % 2 = 0) := by
      rintro ⟨hc, heven⟩
      refine hopen ⟨hc, Bool.eq_false_iff.2 fun htrue => ?_⟩
      have hodd := hescaped.1 htrue
      omega
    exact ⟨[c], rfl, (past_char hpassed hfeed).symm,
      fun ahead _ => congrArg Round.literals (singleRound_read hfeed hopen')⟩
  | @closeTriple line passed rest pending opening content =>
    obtain ⟨hhere, -⟩ := hregion
    have hpast := @past_char line passed '"' hpassed (by decide)
    -- The two quotes held back and this one are the three that the search looks for.
    have hnext : opening.past (Delimiter.triple.enclose content.reverse)
        = ⟨line, '"' :: passed⟩ := by
      rw [← hpast]
      refine Eq.trans ?_ (congrArg (Opening.past · ['"']) hhere.symm)
      simp [Delimiter.enclose, Delimiter.quotes]
    refine ⟨['"'], rfl, hpast.symm, fun ahead _ => ?_⟩
    show (tripleRound opening content ('"' :: '"' :: '"' :: ahead)).literals = _
    rw [tripleRound_close, Round.literals_found, hnext]
    rfl
  | @holdQuote line passed rest pending opening content quotes hquotes =>
    refine ⟨['"'], rfl, (past_char hpassed (by decide)).symm, fun ahead _ => ?_⟩
    -- The quote goes from the text ahead to the quotes held back before it.
    simp only [Region.remaining]
    rw [List.replicate_succ', List.append_assoc]
    rfl
  | @readTriple line passed rest pending opening content quotes c hc =>
    have hfeed : c ≠ '\n' := by
      intro heq
      subst heq
      exact hrest List.mem_cons_self
    exact ⟨[c], rfl, (past_char hpassed hfeed).symm,
      fun ahead _ => congrArg Round.literals (tripleRound_flush hregion.2 hc)⟩
  | @turnOutside line passed =>
    exact ⟨['\n'], rfl, (Opening.past_feed ⟨line, passed⟩).symm, fun ahead _ => search_feed⟩
  | @turnSingle line passed text pending opening content escaped =>
    obtain ⟨hhere, hcontent, -⟩ := hregion
    -- The search goes on below the opening, which is on this line.
    have hline : line = opening.line := by
      have hcount : ('"' :: content.reverse).count '\n' = 0 :=
        List.count_eq_zero_of_not_mem (by simpa using hcontent)
      simpa [State.here, Opening.past, hcount] using congrArg Opening.line hhere
    refine ⟨['\n'], rfl, (Opening.past_feed ⟨line, passed⟩).symm, fun ahead _ => ?_⟩
    show (singleRound opening content ('\n' :: ahead)).literals = _
    rw [singleRound_feed, Round.literals_lineOver, Opening.nextLine, ← hline]
    rfl
  | @turnTriple line passed =>
    exact ⟨['\n'], rfl, (Opening.past_feed ⟨line, passed⟩).symm,
      fun ahead _ => congrArg Round.literals (tripleRound_flush hregion.2 (by decide))⟩
  | dropSingle => exact absurd rfl hahead
  | dropTriple => exact absurd rfl hahead

/-- Every step takes from what remains the literal that it completes, and
    nothing else. -/
theorem remaining_step {s t : State} {label : Label} (h : Rule s label t) (hs : s.Consistent) :
    s.remaining = label.literal?.toList ++ t.remaining := by
  by_cases hahead : s.ahead = []
  · -- The text is over, and the step drops what is open.
    cases h with
    | dropSingle => exact search_nil.symm
    | @dropTriple line passed opening content quotes =>
      simp only [State.remaining, Region.remaining, State.ahead, List.flatMap_nil, List.append_nil]
      rw [tripleRound_quotes hs.region.2]
      exact search_nil.symm
    | _ => simp [State.ahead] at hahead
  · obtain ⟨word, hword⟩ := passes_step h hs hahead
    rw [State.remaining, hword.ahead_eq, hword.remaining_eq _ id, ← State.remaining]
    cases hliteral : label.literal? <;> simp [hliteral]

/-- From a consistent state on, a scan finds what remains to be found. -/
theorem filterMap_trace {s : State} (hs : s.Consistent) :
    (trace s).filterMap Label.literal? = s.remaining := by
  induction s using run_induction with
  | hend s hend =>
    obtain ⟨hrest, hpending, hregion⟩ := step?_eq_none_iff.1 hend
    simp [trace_of_end hend, State.remaining, Region.remaining, State.ahead, hrest, hpending,
      hregion]
  | hstep s label t hrule ih =>
    -- The step takes its literal from what remains, and the rest of the run takes the others.
    rw [trace_of_rule hrule, remaining_step hrule hs, ← ih (consistent_step hrule hs)]
    cases hliteral : label.literal? <;> simp [hliteral]

/-- Before a source is scanned, its text is ahead, after a line feed: the first
    line is entered like any other. -/
theorem ahead_initial {source : Source} (hlines : source.lines.toList ≠ []) :
    (State.initial source).ahead = '\n' :: source.text := by
  obtain ⟨⟨lines⟩⟩ := source
  cases lines with
  | nil => exact absurd rfl hlines
  | cons text lines =>
    simp only [State.initial, State.ahead, Source.text]
    clear hlines
    induction lines generalizing text with
    | nil => simp
    | cons next lines ih => simp_all

/-- Before a text is scanned, everything remains that a search finds. -/
theorem remaining_initial (source : Source) :
    (State.initial source).remaining = Search.literals source := by
  show search ⟨⟨0, []⟩, (State.initial source).ahead⟩ = search _
  by_cases hlines : source.lines.toList = []
  · simp [State.initial, State.ahead, Source.text, hlines]
  · rw [ahead_initial hlines, search_feed]
    rfl

end Scan

namespace Source

/-- A search of a text whose line ends are plain finds the literals of its
    source. -/
theorem search_plainEnds (text : String) :
    search ⟨⟨1, []⟩, plainEnds text.toList⟩ = Search.literals (ofText text) := by
  rcases plainEnds_toList text with hplain | hplain
  · rw [hplain, Search.literals]
  · rw [hplain, search_append_feed, Search.literals]

/-- The literals of a text are found in it once its line ends are plain. -/
theorem literals_ofText (text : String) :
    (ofText text).literals = search ⟨⟨1, []⟩, plainEnds text.toList⟩ := by
  rw [search_plainEnds, literals, Source.trace, Scan.filterMap_trace (Scan.consistent_initial text),
    Scan.remaining_initial]

/-- **The literals of a text are those that a search finds.** The scan and the
    search agree on how many there are, on their order, and on the content,
    mark, line, and delimiter of each. -/
theorem literals_eq_search (text : String) :
    (ofText text).literals = Search.literals (ofText text) := by
  rw [literals_ofText, search_plainEnds]

end Source

end LiteralLint
