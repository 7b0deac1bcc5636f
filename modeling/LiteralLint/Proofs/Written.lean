import LiteralLint.Proofs.Search

/-! # Literals as They Are Written

  A literal that is found and a literal that is written are one thing, seen
  from two sides:

  - A content that its delimiter can hold is found where it is written
    (`search_enclose`), and text without quotes is passed (`search_gap`).
  - Whatever is found is written where it was found, and its delimiter can
    hold its content (`written_search`).

  What a delimiter can hold is said of the content alone. `HeldAfter` says it
  of the rest of a content of which a part has been read, so that it can be
  followed character by character.
-/

namespace LiteralLint

open Scan

/-! ### What a Delimiter Can Hold -/

/-- A content that can stand in a single literal. It is on one line, an odd
    number of backslashes stands directly before each of its quotes, and an
    even number stands at its end. -/
def HeldBySingle (content : List Char) : Prop :=
  '\n' ∉ content
    ∧ (∀ before after, content = before ++ '"' :: after →
        Search.backslashRun before.reverse % 2 = 1)
    ∧ Search.backslashRun content.reverse % 2 = 0

/-- A content that can stand in a triple literal. It holds no three quotes in
    a row and does not end in a quote. -/
def HeldByTriple (content : List Char) : Prop :=
  ¬ Delimiter.triple.quotes <:+: content ∧ content.getLast? ≠ some '"'

/-- A content that can stand between delimiters. -/
def Delimiter.Holds : Delimiter → List Char → Prop
  | .single => HeldBySingle
  | .triple => HeldByTriple

/-- A delimiter that can hold a content can hold it with plain line ends. -/
theorem Delimiter.Holds.plainEnds {delimiter : Delimiter} {content : List Char}
    (h : delimiter.Holds content) : delimiter.Holds (plainEnds content) := by
  cases delimiter with
  | single =>
    rw [plainEnds_of_notMem h.1]
    exact h
  | triple =>
    refine ⟨fun hin => h.1 (infix_of_infix_plainEnds (by decide) hin), ?_⟩
    rw [getLast?_plainEnds]
    exact h.2

/-! ### What a Mark Is Written With -/

namespace Mark

theorem isAlphabetic_s : isAlphabetic 's' = true := isAlphabetic_of_isAlpha (by decide)

theorem isAlphabetic_f : isAlphabetic 'f' = true := isAlphabetic_of_isAlpha (by decide)

/-- The letter of a mark is the character that the mark is from, if that is
    alphabetic. -/
theorem letter?_ofPreceding (preceding : Option Char) :
    (ofPreceding preceding).letter? = preceding.filter isAlphabetic := by
  cases preceding with
  | none => rfl
  | some c =>
    rw [Option.filter_some]
    by_cases hs : c = 's'
    · simp [ofPreceding, hs, isAlphabetic_s, letter?]
    by_cases hf : c = 'f'
    · simp [ofPreceding, hf, isAlphabetic_f, letter?]
    by_cases hc : isAlphabetic c = true <;> simp [ofPreceding, hs, hf, hc, letter?]

/-- The letter of a mark is alphabetic. -/
theorem isAlphabetic_letter {preceding : Option Char} {c : Char}
    (h : (ofPreceding preceding).letter? = some c) : isAlphabetic c = true := by
  rw [letter?_ofPreceding, Option.filter_eq_some_iff] at h
  exact h.2

/-- The letter of a mark is enough to tell the mark. -/
theorem ofPreceding_filter (preceding : Option Char) :
    ofPreceding (preceding.filter isAlphabetic) = ofPreceding preceding := by
  cases preceding with
  | none => rfl
  | some c =>
    rw [Option.filter_some]
    by_cases hc : isAlphabetic c = true
    · rw [if_pos hc]
    · have hs : c ≠ 's' := by
        intro heq
        subst heq
        exact hc isAlphabetic_s
      have hf : c ≠ 'f' := by
        intro heq
        subst heq
        exact hc isAlphabetic_f
      simp [ofPreceding, hc, hs, hf]

end Mark

namespace Search

variable {opening : Opening} {content body rest : List Char}

/-- The end of a content that can stand in a single literal, where `content`
    is what of the content stands before it, nearest character first. -/
def HeldAfter (content body : List Char) : Prop :=
  '\n' ∉ body
    ∧ (∀ before after, body = before ++ '"' :: after →
        backslashRun (before.reverse ++ content) % 2 = 1)
    ∧ backslashRun (body.reverse ++ content) % 2 = 0

theorem heldAfter_nil_iff : HeldAfter [] body ↔ HeldBySingle body := by
  simp [HeldAfter, HeldBySingle]

theorem heldAfter_nil : HeldAfter content [] ↔ backslashRun content % 2 = 0 := by
  simp [HeldAfter]

/-- A content goes on with a character that leaves the literal open. -/
theorem heldAfter_cons {c : Char} :
    HeldAfter content (c :: body) ↔
      c ≠ '\n' ∧ ¬ (c = '"' ∧ backslashRun content % 2 = 0) ∧ HeldAfter (c :: content) body := by
  constructor
  · rintro ⟨hfeed, hescaped, heven⟩
    refine ⟨fun heq => hfeed (by simp [heq]), ?_, fun hin => hfeed (List.mem_cons_of_mem _ hin),
      ?_, by simpa using heven⟩
    · rintro ⟨rfl, hclose⟩
      have hodd := hescaped [] body rfl
      rw [List.reverse_nil, List.nil_append] at hodd
      omega
    · intro before after hbody
      simpa using hescaped (c :: before) after (by rw [hbody, List.cons_append])
  · rintro ⟨hc, hopen, hfeed, hescaped, heven⟩
    refine ⟨by simpa using ⟨Ne.symm hc, hfeed⟩, ?_, by simpa using heven⟩
    intro before after hbody
    cases before with
    | nil =>
      obtain ⟨rfl, -⟩ := List.cons.inj hbody
      have hodd : backslashRun content % 2 ≠ 0 := by
        intro hclose
        exact hopen ⟨rfl, hclose⟩
      rw [List.reverse_nil, List.nil_append]
      omega
    | cons d before =>
      obtain ⟨rfl, htail⟩ := List.cons.inj hbody
      simpa using hescaped before after htail

theorem heldByTriple_nil : HeldByTriple [] := by
  simp [HeldByTriple, Delimiter.quotes]

/-- A content goes on with a character that does not begin three quotes in a
    row, the quotes of the closing delimiter included. -/
theorem heldByTriple_cons {c : Char} :
    HeldByTriple (c :: body) ↔
      ¬ Delimiter.triple.quotes <+: c :: (body ++ Delimiter.triple.quotes ++ rest)
        ∧ HeldByTriple body := by
  constructor
  · rintro ⟨hquotes, hlast⟩
    refine ⟨?_, fun hin => hquotes (List.infix_cons hin), fun hend => hlast ?_⟩
    · rintro ⟨tail, htail⟩
      simp only [Delimiter.quotes, List.cons_append, List.nil_append, List.cons.injEq] at htail
      obtain ⟨rfl, htail⟩ := htail
      -- The content ends before three quotes are reached, with a quote, or it holds them.
      cases body with
      | nil => exact hlast rfl
      | cons d body =>
        simp only [List.cons_append, List.cons.injEq] at htail
        obtain ⟨rfl, htail⟩ := htail
        cases body with
        | nil => exact hlast rfl
        | cons e body =>
          simp only [List.cons_append, List.cons.injEq] at htail
          obtain ⟨rfl, -⟩ := htail
          exact hquotes ⟨[], body, rfl⟩
    · rw [List.getLast?_cons, hend]
      rfl
  · rintro ⟨hopen, hquotes, hlast⟩
    constructor
    · intro hin
      rcases List.infix_cons_iff.1 hin with ⟨tail, htail⟩ | hin
      · exact hopen ⟨tail ++ Delimiter.triple.quotes ++ rest, by
          rw [← List.append_assoc, ← List.append_assoc, htail]; rfl⟩
      · exact hquotes hin
    · cases body with
      | nil =>
        rintro hend
        obtain rfl : c = '"' := by simpa using hend
        exact hopen ⟨'"' :: rest, rfl⟩
      | cons d body => rwa [List.getLast?_cons_cons]

/-! ### What Is Written Is Found -/

/-- A content that a single literal can hold is read to its end. -/
theorem singleRound_enclose (h : HeldAfter content body) :
    singleRound opening content (body ++ '"' :: rest)
      = .found opening .single (content.reverse ++ body) rest := by
  induction body generalizing content with
  | nil => simpa using singleRound_close (heldAfter_nil.1 h)
  | cons c body ih =>
    obtain ⟨hc, hopen, hbody⟩ := heldAfter_cons.1 h
    rw [List.cons_append, singleRound_read hc hopen, ih hbody]
    simp

/-- A content that a triple literal can hold is read to its end. Of it,
    `content` was read before. -/
theorem tripleRound_enclose (h : HeldByTriple body) :
    tripleRound opening content (body ++ Delimiter.triple.quotes ++ rest)
      = .found opening .triple (content.reverse ++ body) rest := by
  induction body generalizing content with
  | nil =>
    rw [List.append_nil]
    exact tripleRound_close
  | cons c body ih =>
    obtain ⟨hopen, hbody⟩ := heldByTriple_cons.1 h
    rw [List.cons_append, List.cons_append, tripleRound_read hopen, ih hbody]
    simp

/-- A content that a single literal can hold does not begin with a quote. -/
theorem head?_of_heldBySingle (h : HeldBySingle body) : body.head? ≠ some '"' := by
  intro hhead
  obtain ⟨tail, rfl⟩ := List.head?_eq_some_iff.1 hhead
  have hodd := h.2.1 [] tail rfl
  simp [backslashRun] at hodd

/-- A literal is found where it is written, unless it is two quotes which a
    third one follows. -/
theorem search_enclose {delimiter : Delimiter} (h : delimiter.Holds body)
    (hsplit : delimiter = .single → body = [] → rest.head? ≠ some '"') :
    search ⟨opening, delimiter.enclose body ++ rest⟩
      = opening.literal delimiter body
        :: search ⟨opening.past (delimiter.enclose body), rest⟩ := by
  cases delimiter with
  | triple =>
    show search ⟨opening, '"' :: '"' :: '"' :: (body ++ Delimiter.triple.quotes ++ rest)⟩ = _
    rw [search_quote, quoteRound, tripleRound_enclose h, Round.literals_found]
    rfl
  | single =>
    show search ⟨opening, '"' :: (body ++ Delimiter.single.quotes ++ rest)⟩ = _
    rw [List.append_assoc, search_quote]
    cases body with
    | nil =>
      show (quoteRound opening ('"' :: rest)).literals = _
      rw [quoteRound_pair (hsplit rfl rfl), Round.literals_found]
    | cons c body =>
      have hhead : (c :: body ++ '"' :: rest).head? ≠ some '"' :=
        @head?_of_heldBySingle (c :: body) h
      show (quoteRound opening (c :: body ++ '"' :: rest)).literals = _
      rw [quoteRound_single hhead, singleRound_enclose (heldAfter_nil_iff.2 h),
        Round.literals_found]
      rfl

/-- Text without quotes is passed. -/
theorem search_gap {gap : List Char} (hgap : '"' ∉ gap) (hbefore : '\n' ∉ opening.before) :
    search ⟨opening, gap ++ rest⟩ = search ⟨opening.past gap, rest⟩ := by
  induction gap generalizing opening with
  | nil => rw [List.nil_append, Opening.past_nil hbefore]
  | cons c gap ih =>
    have hquote : c ≠ '"' := by
      intro heq
      subst heq
      exact hgap List.mem_cons_self
    have hgap' : '"' ∉ gap := by
      intro hin
      exact hgap (List.mem_cons_of_mem _ hin)
    have hstep : search ⟨opening, c :: (gap ++ rest)⟩
        = search ⟨opening.past [c], gap ++ rest⟩ := by
      by_cases hfeed : c = '\n'
      · rw [hfeed, search_feed, Opening.past_feed]
      · rw [search_pass hquote hfeed, Opening.past_of_notMem hbefore (by simpa using Ne.symm hfeed)]
        rfl
    rw [List.cons_append, hstep, ih hgap' (Opening.notMem_before_past _ _), Opening.past_past]
    rfl

/-! ### What Is Found Is Written -/

/-- What can come of a single literal: the line goes on to its closing quote,
    or the line ends, or the text ends. -/
theorem singleRound_cases (opening : Opening) (content ahead : List Char) :
    (∃ body rest, ahead = body ++ '"' :: rest ∧ HeldAfter content body
      ∧ singleRound opening content ahead
          = .found opening .single (content.reverse ++ body) rest)
    ∨ (∃ body rest, ahead = body ++ '\n' :: rest ∧ '\n' ∉ body
      ∧ singleRound opening content ahead = .lineOver opening rest)
    ∨ singleRound opening content ahead = .ends := by
  induction ahead generalizing content with
  | nil => exact .inr (.inr rfl)
  | cons c ahead ih =>
    -- The character ends the line, closes the literal, or is content.
    by_cases hfeed : c = '\n'
    · subst hfeed
      exact .inr (.inl ⟨[], ahead, rfl, by simp, singleRound_feed⟩)
    by_cases hclose : c = '"' ∧ backslashRun content % 2 = 0
    · obtain ⟨rfl, heven⟩ := hclose
      refine .inl ⟨[], ahead, rfl, heldAfter_nil.2 heven, ?_⟩
      rw [singleRound_close heven, List.append_nil]
    rw [singleRound_read hfeed hclose]
    rcases ih (c :: content) with ⟨body, rest, rfl, hbody, hround⟩
      | ⟨body, rest, rfl, hbody, hround⟩ | hround
    · have hbody' : HeldAfter content (c :: body) := heldAfter_cons.2 ⟨hfeed, hclose, hbody⟩
      exact .inl ⟨c :: body, rest, rfl, hbody', by simpa using hround⟩
    · exact .inr (.inl ⟨c :: body, rest, rfl, by simpa using ⟨Ne.symm hfeed, hbody⟩, hround⟩)
    · exact .inr (.inr hround)

/-- What can come of a triple literal: the text goes on to three quotes in a
    row, or it ends. -/
theorem tripleRound_cases (opening : Opening) (content ahead : List Char) :
    (∃ body rest, ahead = body ++ Delimiter.triple.quotes ++ rest ∧ HeldByTriple body
      ∧ tripleRound opening content ahead
          = .found opening .triple (content.reverse ++ body) rest)
    ∨ tripleRound opening content ahead = .ends := by
  induction ahead generalizing content with
  | nil => exact .inr rfl
  | cons c ahead ih =>
    by_cases hclose : Delimiter.triple.quotes <+: c :: ahead
    · obtain ⟨rest, hrest⟩ := hclose
      refine .inl ⟨[], rest, hrest.symm, heldByTriple_nil, ?_⟩
      rw [← hrest, List.append_nil]
      exact tripleRound_close
    rw [tripleRound_read hclose]
    rcases ih (c :: content) with ⟨body, rest, rfl, hbody, hround⟩ | hround
    · exact .inl ⟨c :: body, rest, rfl, heldByTriple_cons.2 ⟨hclose, hbody⟩, by simpa using hround⟩
    · exact .inr hround

/-- What can come of the search for one quote: a literal is found where it is
    written, or a line is over, or the search is. -/
inductive Comes (opening : Opening) (ahead : List Char) : Round → Prop
  /-- A literal is written `passed` further on. -/
  | found {passed body rest : List Char} {delimiter : Delimiter}
      (hahead : ahead = passed ++ (delimiter.enclose body ++ rest))
      (hbody : delimiter.Holds body) :
      Comes opening ahead (.found (opening.past passed) delimiter body rest)
  /-- A line is over, and the next one begins `passed` further on. -/
  | lineOver {passed rest : List Char} (hahead : ahead = passed ++ rest) :
      Comes opening ahead ⟨none, some ⟨opening.past passed, rest⟩⟩
  /-- Nothing more is found. -/
  | ends : Comes opening ahead .ends

/-- What comes of a place further on comes of this one. -/
theorem Comes.of_past {passed ahead : List Char} {round : Round}
    (h : Comes (opening.past passed) ahead round) : Comes opening (passed ++ ahead) round := by
  cases h with
  | found hahead hbody =>
    rw [Opening.past_past]
    exact .found (by rw [hahead, List.append_assoc]) hbody
  | lineOver hahead =>
    rw [Opening.past_past]
    exact .lineOver (by rw [hahead, List.append_assoc])
  | ends => exact .ends

/-- What can come of a quote. -/
theorem quoteRound_comes (hbefore : '\n' ∉ opening.before) (ahead : List Char) :
    Comes opening ('"' :: ahead) (quoteRound opening ahead) := by
  have hfound : ∀ {delimiter : Delimiter} {body rest : List Char},
      '"' :: ahead = delimiter.enclose body ++ rest → delimiter.Holds body →
      Comes opening ('"' :: ahead) (.found opening delimiter body rest) := by
    intro delimiter body rest hahead hbody
    have hcomes := @Comes.found opening ('"' :: ahead) [] body rest delimiter hahead hbody
    rwa [Opening.past_nil hbefore] at hcomes
  by_cases hsecond : ahead.head? = some '"'
  · obtain ⟨ahead, rfl⟩ := List.head?_eq_some_iff.1 hsecond
    by_cases hthird : ahead.head? = some '"'
    · obtain ⟨ahead, rfl⟩ := List.head?_eq_some_iff.1 hthird
      rw [quoteRound]
      rcases tripleRound_cases opening [] ahead with ⟨body, rest, rfl, hbody, hround⟩ | hround
      · rw [hround]
        exact hfound rfl hbody
      · exact hround ▸ .ends
    · rw [quoteRound_pair hthird]
      exact hfound rfl (heldAfter_nil_iff.1 (heldAfter_nil.2 rfl))
  · rw [quoteRound_single hsecond]
    rcases singleRound_cases opening [] ahead with ⟨body, rest, rfl, hbody, hround⟩
      | ⟨body, rest, rfl, hbody, hround⟩ | hround
    · rw [hround]
      exact hfound (by simp [Delimiter.enclose, Delimiter.quotes]) (heldAfter_nil_iff.1 hbody)
    · -- The line is over; all of it was passed.
      have hnext : opening.nextLine = opening.past ('"' :: body ++ ['\n']) :=
        (opening.past_append_feed (by simpa using hbody)).symm
      rw [hround, Round.lineOver, hnext]
      exact .lineOver (by simp)
    · exact hround ▸ .ends

/-- What can come of any place outside every literal. -/
theorem round_comes (hbefore : '\n' ∉ opening.before) (ahead : List Char) :
    Comes opening ahead (Place.round ⟨opening, ahead⟩) := by
  induction ahead generalizing opening with
  | nil => exact .ends
  | cons c ahead ih =>
    by_cases hfeed : c = '\n'
    · subst hfeed
      rw [round_feed, Round.lineOver, ← Opening.past_feed]
      exact .lineOver rfl
    by_cases hquote : c = '"'
    · subst hquote
      rw [round_quote]
      exact quoteRound_comes hbefore ahead
    · have hpast : opening.past [c] = ⟨opening.line, c :: opening.before⟩ :=
        Opening.past_of_notMem hbefore (by simpa using Ne.symm hfeed)
      rw [round_pass hquote hfeed, ← hpast]
      exact Comes.of_past (ih (Opening.notMem_before_past opening [c]))

/-- The literals stand in a text that begins at an opening, in this order and
    without overlap, each between delimiters that can hold its content. -/
inductive Written : Opening → List Char → List Literal → Prop
  /-- No literals stand in any text. -/
  | nil (opening : Opening) (text : List Char) : Written opening text []
  /-- The first literal stands `passed` further on, and the others after it. -/
  | cons {opening : Opening} {passed body rest : List Char} {delimiter : Delimiter}
      {literals : List Literal} (hbody : delimiter.Holds body)
      (hrest : Written (opening.past (passed ++ delimiter.enclose body)) rest literals) :
      Written opening (passed ++ (delimiter.enclose body ++ rest))
        ((opening.past passed).literal delimiter body :: literals)

/-- What is written further on is written. -/
theorem Written.of_past {passed rest : List Char} {literals : List Literal}
    (h : Written (opening.past passed) rest literals) :
    Written opening (passed ++ rest) literals := by
  cases h with
  | nil => exact .nil opening _
  | cons hbody hrest =>
    rw [Opening.past_past, ← List.append_assoc] at hrest
    rw [Opening.past_past, ← List.append_assoc]
    exact .cons hbody hrest

/-- **What a search finds is written** where it is found. -/
theorem written_search {opening : Opening} (hbefore : '\n' ∉ opening.before) (ahead : List Char) :
    Written opening ahead (search ⟨opening, ahead⟩) := by
  -- The induction is on how much is ahead, and each round leaves less.
  have hcomes := round_comes hbefore ahead
  have hshorter := @round_shorter ⟨opening, ahead⟩
  rw [search_eq]
  generalize Place.round ⟨opening, ahead⟩ = round at hcomes hshorter
  cases hcomes with
  | ends => exact .nil opening ahead
  | @found passed body rest delimiter hahead hbody =>
    have hless : rest.length < ahead.length := hshorter rfl
    subst hahead
    rw [Round.literals_found, Opening.past_past]
    exact .cons hbody (written_search (Opening.notMem_before_past _ _) rest)
  | @lineOver passed rest hahead =>
    have hless : rest.length < ahead.length := hshorter rfl
    subst hahead
    exact (written_search (Opening.notMem_before_past opening passed) rest).of_past
termination_by ahead.length

/-- Each of the literals stands in the text, between delimiters that can hold
    its content. -/
theorem Written.of_mem {text : List Char} {literals : List Literal} {literal : Literal}
    (h : Written opening text literals) (hmem : literal ∈ literals) :
    ∃ passed body rest, text = passed ++ (literal.delimiter.enclose body ++ rest)
      ∧ literal.delimiter.Holds body
      ∧ literal = (opening.past passed).literal literal.delimiter body := by
  induction h with
  | nil => cases hmem
  | @cons opening passed body rest delimiter literals hbody _ ih =>
    rcases List.mem_cons.1 hmem with rfl | hmem
    · exact ⟨passed, body, rest, rfl, hbody, rfl⟩
    · obtain ⟨between, body', rest', rfl, hbody', hliteral⟩ := ih hmem
      rw [Opening.past_past] at hliteral
      exact ⟨passed ++ delimiter.enclose body ++ between, body', rest', by simp, hbody', hliteral⟩

end Search

end LiteralLint
