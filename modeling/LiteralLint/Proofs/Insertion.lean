import LiteralLint.Proofs.Document
import LiteralLint.Proofs.LineNumbers
import LiteralLint.Proofs.Runs

/-! # A Mark Inserted

  A finding that says that a mark may be missing is answered by writing one:
  a character, directly before the quote that opens the literal. This takes
  the finding away, and it changes nothing else in what a scan finds.

  The text after the character is scanned from another place than before, and
  the text before it is scanned with another text following. The key ideas:

  - A run up to the quote depends on the text that it passes, and not on what
    follows (`Run.passes`). The character is no quote, so it does not go with
    quotes that were passed last.
  - The character is skipped, so the search from the quote starts one place
    further on. What it finds depends on the place through its line and the
    character before it (`search_congr`), and only the first literal is marked
    by that character.

  Where a literal opens is read off the trace: the label of the step that
  completes it still knows.
-/

namespace LiteralLint

open Scan Search

/-! ### The Edit -/

/-- A text with a character inserted on the line that `line` line feeds stand
    before, after `column` characters of it. -/
def insertAt (c : Char) (column : Nat) : Nat → List Char → List Char
  | 0, text => text.insertIdx column c
  | _ + 1, [] => []
  | line + 1, d :: text => d :: insertAt c column (if d = '\n' then line else line + 1) text

/-- A text with a character inserted directly before what opens at a place. -/
def Scan.Opening.insert (opening : Opening) (c : Char) (text : String) : String :=
  String.ofList (insertAt c opening.before.length (opening.line - 1) text.toList)

/-- A line feed further on ends the line that a text begins with. -/
theorem lastLine_cons_of_mem {text : List Char} (c : Char) (h : '\n' ∈ text) :
    lastLine (c :: text) = lastLine text := by
  obtain ⟨above, rest, rfl⟩ := List.append_of_mem h
  rw [lastLine_append_feed, ← List.cons_append, lastLine_append_feed]

theorem insertIdx_length (c : Char) (before after : List Char) :
    (before ++ after).insertIdx before.length c = before ++ c :: after := by
  induction before with
  | nil => rfl
  | cons d before ih => exact congrArg (d :: ·) ih

/-- The place after a text is on its last line, after all of that line. -/
theorem insertAt_append (c : Char) (before after : List Char) :
    insertAt c (lastLine before).length (before.count '\n') (before ++ after)
      = before ++ c :: after := by
  induction before with
  | nil => simp [insertAt, lastLine]
  | cons d before ih =>
    by_cases hmem : '\n' ∈ before
    · -- The last line begins further on, whatever the first character is.
      obtain ⟨lines, hlines⟩ := Nat.exists_eq_add_one.2 (List.count_pos_iff.2 hmem)
      rw [lastLine_cons_of_mem d hmem, List.cons_append]
      by_cases hd : d = '\n'
      · rw [hd, List.count_cons_self, insertAt, if_pos rfl, ih]
        rfl
      · rw [List.count_cons_of_ne hd, hlines, insertAt, if_neg hd, ← hlines, ih]
        rfl
    by_cases hd : d = '\n'
    · subst hd
      have hlast : lastLine ('\n' :: before) = lastLine before := lastLine_append_feed [] before
      rw [hlast, List.count_cons_self, List.cons_append, insertAt, if_pos rfl, ih]
      rfl
    · have hnone : '\n' ∉ d :: before := by simp [hmem, Ne.symm hd]
      rw [List.count_eq_zero_of_not_mem hnone, lastLine_of_notMem hnone, insertAt]
      exact insertIdx_length c (d :: before) after

/-- Line ends that are made plain are above the last line. -/
theorem lastLine_plainEnds (text : List Char) : lastLine (plainEnds text) = lastLine text := by
  induction text with
  | nil => rfl
  | cons c rest ih =>
    by_cases hmem : '\n' ∈ rest
    · have hmem' : '\n' ∈ plainEnds rest := by
        rw [← List.count_pos_iff, count_plainEnds]
        exact List.count_pos_iff.2 hmem
      rw [lastLine_cons_of_mem c hmem, plainEnds]
      split
      · exact ih
      · rw [lastLine_cons_of_mem c hmem', ih]
    · have hkeep : ¬ (c = '\r' ∧ rest.head? = some '\n') := by
        rintro ⟨-, hhead⟩
        exact hmem (List.mem_of_mem_head? hhead)
      rw [plainEnds, if_neg hkeep, plainEnds_of_notMem hmem]

theorem openingAfter_before (before : List Char) :
    (openingAfter before).before = (lastLine before).reverse := by
  rw [← lastLine_plainEnds, lastLine, List.reverse_reverse, openingAfter, Opening.past,
    List.append_nil]

/-- What is inserted at the place after a text is inserted after that text. -/
theorem toList_insert {text : String} {before after : List Char}
    (htext : text.toList = before ++ after) (c : Char) :
    ((openingAfter before).insert c text).toList = before ++ c :: after := by
  rw [Opening.insert, String.toList_ofList, htext, openingAfter_before, openingAfter_line,
    List.length_reverse, Nat.add_sub_cancel_left, insertAt_append]

/-! ### Where Literals Open -/

namespace Scan

variable {s t u : State} {label : Label} {labels more : List Label}

/-- The literal that a step completes, with where it opened. -/
def Label.site? : Label → Option (Opening × Literal)
  | .closed opening delimiter content =>
    some (opening, opening.literal delimiter content.reverse)
  | .paired opening => some (opening, opening.literal .single [])
  | .skipped | .opened .. | .read | .turned _ | .dropped .. => none

theorem Label.map_site? (label : Label) : label.site?.map Prod.snd = label.literal? := by
  cases label <;> rfl

/-- A literal has the line of its opening. -/
theorem Label.line_of_site? {opening : Opening} {literal : Literal}
    (h : label.site? = some (opening, literal)) : literal.line = opening.line := by
  cases label <;> cases h <;> rfl

/-- The next character is the quote that opens a literal. -/
structure State.Opens (s : State) (opening : Opening) : Prop where
  outside : s.region = .outside
  here : s.here = opening
  quote : s.rest.head? = some '"'

/-- A literal that is open after a step was open before it, or the step opens
    it. -/
theorem opening_step {opening : Opening} (h : Rule s label t)
    (ht : t.region.opening? = some opening) :
    s.region.opening? = some opening ∨ s.Opens opening := by
  cases h with
  | openTriple | openSingle _ =>
    obtain rfl := Option.some.inj ht
    exact .inr ⟨rfl, rfl, rfl⟩
  | readSingle _ | holdQuote _ | readTriple _ | turnTriple => exact .inl ht
  | skip _ | pair _ | closeSingle | closeTriple | turnOutside | turnSingle | dropSingle
  | dropTriple => cases ht

/-- A literal that a step completes was open before it, or the step opens it.
    After the step, no literal is open. -/
theorem site_step {opening : Opening} {literal : Literal} (h : Rule s label t)
    (hsite : label.site? = some (opening, literal)) :
    (s.region.opening? = some opening ∨ s.Opens opening) ∧ t.region.opening? = none := by
  cases h with
  | pair _ =>
    cases hsite
    exact ⟨.inr ⟨rfl, rfl, rfl⟩, rfl⟩
  | closeSingle | closeTriple =>
    cases hsite
    exact ⟨.inl rfl, rfl⟩
  | _ => cases hsite

/-- The literals that a scan from a state completes, each with where it
    opened. -/
def sites (s : State) : List (Opening × Literal) := (trace s).filterMap Label.site?

/-- A run leads to where a literal opens, and completes those before it on the
    way. The first one may be open already. -/
theorem exists_run_to_opening {k : Nat} {opening : Opening} {literal : Literal}
    (h : (sites s)[k]? = some (opening, literal)) :
    (k = 0 ∧ s.region.opening? = some opening)
      ∨ ∃ labels u, Run s labels u ∧ u.Opens opening
        ∧ (labels.filterMap Label.literal?).length = k := by
  induction s using run_induction generalizing k with
  | hend s hend => simp [sites, trace_of_end hend] at h
  | hstep s label t hrule ih =>
    have hopens : s.Opens opening → ∃ labels u, Run s labels u ∧ u.Opens opening
        ∧ (labels.filterMap Label.literal?).length = 0 :=
      fun hs => ⟨[], s, .stay s, hs, rfl⟩
    rw [sites, trace_of_rule hrule, List.filterMap_cons] at h
    cases hsite : label.site? with
    | none =>
      have hliteral : label.literal? = none := by
        rw [← Label.map_site?, hsite]
        rfl
      rw [hsite] at h
      rcases ih h with ⟨rfl, ht⟩ | ⟨labels, u, hrun, hu, hlength⟩
      · exact (opening_step hrule ht).imp (⟨rfl, ·⟩) hopens
      · exact .inr ⟨label :: labels, u, .step hrule hrun, hu, by simp [hliteral, hlength]⟩
    | some site =>
      have hliteral : label.literal? = some site.2 := by
        rw [← Label.map_site?, hsite]
        rfl
      rw [hsite] at h
      cases k with
      | zero =>
        obtain rfl := Option.some.inj h
        exact (site_step hrule hsite).1.imp (⟨rfl, ·⟩) hopens
      | succ k =>
        -- No literal is open after the step, so the run goes on from there.
        rcases ih h with ⟨-, ht⟩ | ⟨labels, u, hrun, hu, hlength⟩
        · rw [(site_step hrule hsite).2] at ht
          cases ht
        · exact .inr ⟨label :: labels, u, .step hrule hrun, hu, by simp [hliteral, hlength]⟩

end Scan

/-! ### Searching from Another Place -/

namespace Search

variable {opening : Opening} {ahead : List Char}

/-- What comes of a quote is decided by the text after it. Where it stands is
    only carried along. -/
theorem quoteRound_cases (ahead : List Char) :
    (∃ delimiter body rest, ∀ opening,
        quoteRound opening ahead = .found opening delimiter body rest)
      ∨ (∃ rest, ∀ opening, quoteRound opening ahead = .lineOver opening rest)
      ∨ ∀ opening, quoteRound opening ahead = .ends := by
  unfold quoteRound
  split
  · unfold tripleRound
    split
    · exact .inl ⟨_, _, _, fun _ => rfl⟩
    · exact .inr (.inr fun _ => rfl)
  · exact .inl ⟨_, _, _, fun _ => rfl⟩
  · unfold singleRound
    split
    · exact .inl ⟨_, _, _, fun _ => rfl⟩
    · exact .inr (.inl ⟨_, fun _ => rfl⟩)
    · exact .inr (.inr fun _ => rfl)
    · exact .inr (.inr fun _ => rfl)

/-- Places on one line are alike once a literal is passed: a quote is before
    them, and they are on one line again. -/
theorem past_enclose_alike {opening other : Opening} (hline : opening.line = other.line)
    (delimiter : Delimiter) (body : List Char) :
    (opening.past (delimiter.enclose body)).line = (other.past (delimiter.enclose body)).line
      ∧ (opening.past (delimiter.enclose body)).before.head?
        = (other.past (delimiter.enclose body)).before.head? := by
  rw [Opening.past_line, Opening.past_line, hline]
  refine ⟨rfl, ?_⟩
  cases delimiter <;> simp [Opening.past, Delimiter.enclose, Delimiter.quotes]

/-- What a search finds depends on where it starts through the line and the
    character before. -/
theorem search_congr {opening other : Opening} (hline : opening.line = other.line)
    (hhead : opening.before.head? = other.before.head?) (ahead : List Char) :
    search ⟨opening, ahead⟩ = search ⟨other, ahead⟩ := by
  match ahead with
  | [] => rw [search_nil, search_nil]
  | c :: ahead =>
    by_cases hfeed : c = '\n'
    · rw [hfeed, search_feed, search_feed, Opening.nextLine, Opening.nextLine, hline]
    by_cases hquote : c = '"'
    · subst hquote
      rw [search_quote, search_quote]
      rcases quoteRound_cases ahead with ⟨delimiter, body, rest, hround⟩ | ⟨rest, hround⟩ | hround
      · have hshorter : rest.length ≤ ahead.length :=
          quoteRound_shorter (congrArg Round.next? (hround opening))
        obtain ⟨hline', hhead'⟩ := past_enclose_alike hline delimiter body
        have hnext := search_congr hline' hhead' rest
        have hmark : opening.mark = other.mark := congrArg Mark.ofPreceding hhead
        rw [hround, hround, Round.literals_found, Round.literals_found, hnext, Opening.literal,
          Opening.literal, hline, hmark]
      · rw [hround, hround, Round.literals_lineOver, Round.literals_lineOver, Opening.nextLine,
          Opening.nextLine, hline]
      · rw [hround, hround]
    · rw [search_pass hquote hfeed, search_pass hquote hfeed]
      exact @search_congr ⟨opening.line, c :: opening.before⟩ ⟨other.line, c :: other.before⟩
        hline rfl ahead
termination_by ahead.length

/-- A character before the quote marks the literal that opens there, and no
    other one. -/
theorem search_mark {literal : Literal} {later : List Literal} {c : Char}
    (hfeed : c ≠ '\n') (hquote : c ≠ '"')
    (h : search ⟨opening, '"' :: ahead⟩ = literal :: later) (hline : literal.line = opening.line) :
    search ⟨opening, c :: '"' :: ahead⟩
      = { literal with mark := .ofPreceding (some c) } :: later := by
  rw [search_quote] at h
  rw [search_pass hquote hfeed, search_quote]
  rcases quoteRound_cases ahead with ⟨delimiter, body, rest, hround⟩ | ⟨rest, hround⟩ | hround
  · rw [hround, Round.literals_found] at h ⊢
    obtain ⟨rfl, rfl⟩ := List.cons.inj h
    obtain ⟨hline', hhead'⟩ :=
      @past_enclose_alike ⟨opening.line, c :: opening.before⟩ opening rfl delimiter body
    rw [search_congr hline' hhead' rest]
    rfl
  · -- The literal would be on a later line.
    rw [hround, Round.literals_lineOver] at h
    have hmem : literal ∈ search ⟨opening.nextLine, rest⟩ := by
      rw [h]
      exact List.mem_cons_self
    have hbelow := ((written_search List.not_mem_nil rest).line_bounds hmem).1
    simp only [Opening.nextLine] at hbelow
    omega
  · rw [hround] at h
    cases h

end Search

namespace Source

/-! ### Cutting a Text at an Opening -/

/-- The literals of a source, each with where it opens. -/
def sites (source : Source) : List (Opening × Literal) := Scan.sites (.initial source)

theorem map_sites (source : Source) : source.sites.map Prod.snd = source.literals := by
  rw [sites, Scan.sites, List.map_filterMap, literals, Source.trace]
  congr 1
  funext label
  exact label.map_site?

theorem line_of_mem_sites {source : Source} {opening : Opening} {literal : Literal}
    (h : (opening, literal) ∈ source.sites) : literal.line = opening.line := by
  obtain ⟨label, -, hsite⟩ := List.mem_filterMap.1 h
  exact Label.line_of_site? hsite

variable {text : String} {k : Nat} {opening : Opening} {literal : Literal}

/-- A scan that comes to a quote has passed the text before it, and what it
    found there is found whatever comes after. -/
theorem exists_passed_of_run {labels : List Label} {u : State}
    (h : Run (.initial (ofText text)) labels u) (hquote : u.ahead.head? = some '"') :
    ∃ pre post, plainEnds text.toList = pre ++ '"' :: post
      ∧ u.here = Opening.past ⟨1, []⟩ pre
      ∧ ∀ ahead, search ⟨⟨1, []⟩, pre ++ ahead⟩
          = labels.filterMap Label.literal? ++ u.region.remaining u.here ahead := by
  obtain ⟨post, hpost⟩ := List.head?_eq_some_iff.1 hquote
  have hne : u.ahead ≠ [] := by
    rw [hpost]
    exact List.cons_ne_nil _ _
  obtain ⟨hinitial, word, hword⟩ := h.passes (consistent_initial text) hne
  -- The first line is entered across a line feed, and the rest of the word is of the text.
  have hlines : (ofText text).lines.toList ≠ [] := by
    intro hnil
    exact hinitial (by simp [State.initial, State.ahead, hnil])
  have hahead := hword.ahead_eq
  rw [ahead_initial hlines, hpost] at hahead
  cases word with
  | nil => cases hahead
  | cons d pre =>
    obtain ⟨rfl, htail⟩ := List.cons.inj hahead
    have hpre : (ofText text).text = pre ++ '"' :: post := htail
    have htext : ∃ post', plainEnds text.toList = pre ++ '"' :: post' := by
      rcases plainEnds_toList text with hplain | hplain
      · exact ⟨post, hplain.trans hpre⟩
      · exact ⟨post ++ ['\n'], by rw [hplain, hpre, List.append_assoc, List.cons_append]⟩
    obtain ⟨post', htext⟩ := htext
    have hpast := Opening.past_past ⟨0, []⟩ ['\n'] pre
    rw [Opening.past_feed] at hpast
    refine ⟨pre, post', htext, hword.here_eq.trans hpast.symm, fun ahead => ?_⟩
    exact search_feed.symm.trans (hword.remaining_eq ahead fun _ => hquote)

/-- A text is cut at the quote that opens one of its literals. A search finds
    the literals before it up to there, whatever comes after. -/
theorem exists_cut_at_opening (h : (ofText text).sites[k]? = some (opening, literal)) :
    ∃ before after, text.toList = before ++ '"' :: after ∧ openingAfter before = opening
      ∧ ∀ ahead, search ⟨⟨1, []⟩, plainEnds before ++ ahead⟩
          = (ofText text).literals.take k ++ search ⟨opening, ahead⟩ := by
  -- No literal is open yet, so a run leads to where this one opens.
  rcases exists_run_to_opening h with ⟨-, hopen⟩ | ⟨labels, u, hrun, hu, hlength⟩
  · cases hopen
  have hquote : u.ahead.head? = some '"' := by
    rw [State.ahead, List.head?_append, hu.quote]
    rfl
  obtain ⟨pre, post, htext, hhere, hsearch⟩ := exists_passed_of_run hrun hquote
  obtain ⟨before, after, hcut, rfl⟩ := exists_cut_of_plainEnds (by decide) htext
  have htake : (ofText text).literals.take k = labels.filterMap Label.literal? := by
    rw [literals, Source.trace, hrun.trace_eq, List.filterMap_append, List.take_left' hlength]
  rw [hu.here] at hhere
  rw [hu.outside, hu.here] at hsearch
  refine ⟨before, after, hcut, hhere.symm, fun ahead => ?_⟩
  rw [htake]
  exact hsearch ahead

/-! ### The Mark Inserted -/

theorem getElem?_literals_of_sites (h : (ofText text).sites[k]? = some (opening, literal)) :
    (ofText text).literals[k]? = some literal := by
  rw [← map_sites, List.getElem?_map, h]
  rfl

theorem exists_site (h : (ofText text).literals[k]? = some literal) :
    ∃ opening, (ofText text).sites[k]? = some (opening, literal) := by
  rw [← map_sites, List.getElem?_map, Option.map_eq_some_iff] at h
  obtain ⟨⟨opening, literal⟩, hsite, rfl⟩ := h
  exact ⟨opening, hsite⟩

/-- Literals, cut around one of them. -/
theorem literals_eq_append (h : (ofText text).literals[k]? = some literal) :
    (ofText text).literals
      = (ofText text).literals.take k ++ literal :: (ofText text).literals.drop (k + 1) := by
  obtain ⟨hk, rfl⟩ := List.getElem?_eq_some_iff.1 h
  rw [← List.drop_eq_getElem_cons hk, List.take_append_drop]

/-- A character that is inserted before the opening quote of a literal is the
    character that marks it, and other literals are found as before. -/
theorem literals_insert (h : (ofText text).sites[k]? = some (opening, literal)) {c : Char}
    (hquote : c ≠ '"') (hfeed : c ≠ '\n') (hreturn : c ≠ '\r') :
    (ofText (opening.insert c text)).literals
      = (ofText text).literals.set k { literal with mark := .ofPreceding (some c) } := by
  obtain ⟨before, after, htext, hopening, hsearch⟩ := exists_cut_at_opening h
  have hliteral := getElem?_literals_of_sites h
  -- Without the character, the search from the opening finds the literal and the later ones.
  have hfound : search ⟨opening, '"' :: plainEnds after⟩
      = literal :: (ofText text).literals.drop (k + 1) := by
    have hliterals := literals_ofText text
    rw [htext, plainEnds_append_cons before (by decide), plainEnds_cons (by decide), hsearch]
      at hliterals
    exact List.append_cancel_left (hliterals.symm.trans (literals_eq_append hliteral))
  have hline := line_of_mem_sites (List.mem_of_getElem? h)
  have hinsert : (opening.insert c text).toList = before ++ c :: '"' :: after := by
    rw [← hopening, toList_insert htext]
  rw [literals_ofText, hinsert, plainEnds_append_cons before hfeed, plainEnds_cons hreturn,
    plainEnds_cons (by decide), hsearch, search_mark hfeed hquote hfound hline,
    List.set_eq_take_append_cons_drop, if_pos (List.getElem?_eq_some_iff.1 hliteral).1]

/-- A check whose literals are cut around one of them. -/
theorem outcome_check_append {above below : List Literal}
    (h : (ofText text).literals = above ++ literal :: below) :
    (ofText text).check.outcome
      = .ok (above.filterMap Literal.finding?
          ++ (literal.finding?.toList ++ below.filterMap Literal.finding?)) := by
  rw [outcome_check, h, List.filterMap_append, List.filterMap_cons]
  cases literal.finding? <;> rfl

end Source

/-- A literal that lacks a mark has nothing to report once it has one that
    interpolates. -/
theorem Literal.finding?_mark {literal : Literal} {finding : Finding} {mark : Mark}
    (h : literal.finding? = some finding) (hkind : finding.kind = .missingMark)
    (hmark : mark.interpolates = true) : { literal with mark := mark }.finding? = none := by
  unfold finding? at h
  split at h
  · next hlooks _ => simp only [finding?, hlooks, hmark]
  · obtain rfl := Option.some.inj h
    cases hkind
  · cases h
  · cases h

/-- The letters that ask for an interpolation. -/
theorem Mark.letter_of_interpolates {mark : Mark} {c : Char} (hletter : mark.letter? = some c)
    (hmark : mark.interpolates = true) : mark = .s ∧ c = 's' ∨ mark = .f ∧ c = 'f' := by
  cases mark with
  | bare => cases hletter
  | s => exact .inl ⟨rfl, (Option.some.inj hletter).symm⟩
  | f => exact .inr ⟨rfl, (Option.some.inj hletter).symm⟩
  | letter d => cases hmark

namespace Source

/-- **A missing mark is put right by writing it.** The letter of a mark that
    interpolates is written directly before the quote that opens a literal.
    Then the literal has this mark, and all else that a scan finds is as it
    was. If the mark was reported as missing, this finding is gone, and the
    others are as they were. -/
theorem insert_mark (text : String) {k : Nat} {literal : Literal} {mark : Mark} {c : Char}
    (hliteral : (ofText text).literals[k]? = some literal) (hletter : mark.letter? = some c)
    (hmark : mark.interpolates = true) :
    ∃ opening before after,
      (ofText text).sites[k]? = some (opening, literal)
      ∧ text.toList = before ++ '"' :: after
      ∧ opening = ⟨1 + before.count '\n', (lastLine before).reverse⟩
      ∧ (opening.insert c text).toList = before ++ c :: '"' :: after
      ∧ (ofText (opening.insert c text)).literals
        = (ofText text).literals.set k { literal with mark := mark }
      ∧ ∀ finding, literal.finding? = some finding → finding.kind = .missingMark →
        ∃ above below,
          above = ((ofText text).literals.take k).filterMap Literal.finding?
          ∧ (ofText text).check.outcome = .ok (above ++ finding :: below)
          ∧ (ofText (opening.insert c text)).check.outcome = .ok (above ++ below) := by
  obtain ⟨opening, hsite⟩ := exists_site hliteral
  obtain ⟨before, after, htext, hopening, -⟩ := exists_cut_at_opening hsite
  have hplace : opening = ⟨1 + before.count '\n', (lastLine before).reverse⟩ := by
    rw [← hopening, ← openingAfter_line, ← openingAfter_before]
  have hinsert : (opening.insert c text).toList = before ++ c :: '"' :: after := by
    rw [← hopening, toList_insert htext]
  have hliterals : (ofText (opening.insert c text)).literals
      = (ofText text).literals.set k { literal with mark := mark } := by
    rcases Mark.letter_of_interpolates hletter hmark with ⟨rfl, rfl⟩ | ⟨rfl, rfl⟩
    · exact literals_insert hsite (by decide) (by decide) (by decide)
    · exact literals_insert hsite (by decide) (by decide) (by decide)
  refine ⟨opening, before, after, hsite, htext, hplace, hinsert, hliterals, ?_⟩
  intro finding hfinding hkind
  rw [List.set_eq_take_append_cons_drop, if_pos (List.getElem?_eq_some_iff.1 hliteral).1]
    at hliterals
  refine ⟨_, ((ofText text).literals.drop (k + 1)).filterMap Literal.finding?, rfl, ?_, ?_⟩
  · rw [outcome_check_append (literals_eq_append hliteral), hfinding]
    rfl
  · rw [outcome_check_append hliterals, Literal.finding?_mark hfinding hkind hmark]
    rfl

/-- A literal right after another one, on the last of three lines. The first
    line leaves a literal open, and the second ends with an empty one. -/
theorem insert_mark_after_literal :
    let text := "\"open\r\nx = \"\"\n\"a\"\"$b\""
    let literal : Literal := ⟨"$b", .bare, 3, .single⟩
    let finding : Finding := ⟨.missingMark, "$b", .bare, 3⟩
    (ofText text).literals[2]? = some literal
      ∧ Mark.s.letter? = some 's' ∧ Mark.s.interpolates = true
      ∧ literal.finding? = some finding ∧ finding.kind = .missingMark
      ∧ (ofText text).check.outcome = .ok [finding]
      ∧ ∃ opening, (ofText text).sites[2]? = some (opening, literal)
        ∧ (ofText (opening.insert 's' text)).literals
          = [⟨"", .bare, 2, .single⟩, ⟨"a", .bare, 3, .single⟩, ⟨"$b", .s, 3, .single⟩]
        ∧ (ofText (opening.insert 's' text)).check.outcome = .ok [] := by
  intro text literal finding
  have hliterals : (ofText text).literals
      = [⟨"", .bare, 2, .single⟩, ⟨"a", .bare, 3, .single⟩, literal] := by decide +kernel
  have hliteral : (ofText text).literals[2]? = some literal := by rw [hliterals]; rfl
  have hfinding : literal.finding? = some finding := by decide +kernel
  have hcheck : (ofText text).check.outcome = .ok [finding] := by
    rw [outcome_check, hliterals]
    decide +kernel
  obtain ⟨opening, _, _, hsite, -, -, -, hset, hgone⟩ :=
    @insert_mark text 2 literal .s 's' hliteral rfl rfl
  obtain ⟨above, below, -, hbefore, hafter⟩ := hgone finding hfinding rfl
  -- There is one finding, so there are none above it and none below it.
  rw [hcheck] at hbefore
  have hlength := congrArg List.length (Except.ok.inj hbefore)
  simp only [List.length_append, List.length_cons, List.length_nil] at hlength
  obtain rfl : above = [] := List.length_eq_zero_iff.1 (by omega)
  obtain rfl : below = [] := List.length_eq_zero_iff.1 (by omega)
  refine ⟨hliteral, rfl, rfl, hfinding, rfl, hcheck, opening, hsite, ?_, hafter⟩
  rw [hset, hliterals]
  rfl

end Source

end LiteralLint
