import LiteralLint.Proofs.Output
import LiteralLint.Proofs.Reachable

/-! # What Surrounds Literals

  Outside every literal, only quotes and line ends matter to a scan. Any other
  character there can be exchanged, and the literals stay the same but for
  their marks. Directly before a quote, the letters that interpolate must
  neither come nor go; then no report shows the difference, whatever other
  letters are written there and whichever characters count as letters.

  The key ideas:

  - Two scans go in step (`rule_agrees`). What one of them has ahead is what
    the other one has ahead but for exchanged characters (`Redrawn`), and what
    they remember of an open literal is the same but for its mark.
  - A scan comes once to each place (`Run.eq_of_place`). A place that it passes
    outside every literal is therefore not one within a literal, and there the
    characters are the same.
-/

namespace LiteralLint

open Scan

/-! ### Exchanged Characters -/

/-- A character that is no quote and no part of a line end. -/
def Inert (c : Char) : Prop := c ≠ '"' ∧ c ≠ '\n' ∧ c ≠ '\r'

/-- A character that asks for no interpolation where it stands before a
    quote. -/
def Unmarking (c : Char) : Prop := c ≠ 's' ∧ c ≠ 'f'

/-- A scan of the source passes a character outside every literal that is no
    quote, after `column` characters of a line. -/
def Source.Skips (source : Source) (line column : Nat) : Prop :=
  ∃ labels s t, Run (.initial source) labels s ∧ Rule s .skipped t
    ∧ s.line = line ∧ s.passed.length = column

/-- A text with some of the characters exchanged that a scan of it passes
    outside every literal. -/
structure Exchanged (text text' : String) : Prop where
  length_eq : text'.toList.length = text.toList.length
  exchanged : ∀ i c c', text.toList[i]? = some c → text'.toList[i]? = some c' → c ≠ c' →
    (Source.ofText text).Skips (1 + (text.toList.take i).count '\n')
        (lastLine (text.toList.take i)).length
      ∧ Inert c ∧ Inert c'
      ∧ (text.toList[i + 1]? = some '"' → Unmarking c ∧ Unmarking c')

variable {skips : Nat → Nat → Prop} {line column : Nat} {text text' rest rest' : List Char}
  {c : Char}

/-- Two texts that begin at a place and are the same but for characters that
    are skipped. -/
inductive Redrawn (skips : Nat → Nat → Prop) : Nat → Nat → List Char → List Char → Prop
  | nil {line column : Nat} : Redrawn skips line column [] []
  /-- Line ends stay. -/
  | feed {line column : Nat} {rest rest' : List Char}
      (hrest : Redrawn skips (line + 1) 0 rest rest') :
      Redrawn skips line column ('\n' :: rest) ('\n' :: rest')
  | keep {line column : Nat} {c : Char} {rest rest' : List Char} (hc : c ≠ '\n')
      (hrest : Redrawn skips line (column + 1) rest rest') :
      Redrawn skips line column (c :: rest) (c :: rest')
  | exchange {line column : Nat} {c c' : Char} {rest rest' : List Char}
      (hskips : skips line column) (hc : Inert c) (hc' : Inert c')
      (hmark : rest.head? = some '"' → Unmarking c ∧ Unmarking c')
      (hrest : Redrawn skips line (column + 1) rest rest') :
      Redrawn skips line column (c :: rest) (c' :: rest')

namespace Redrawn

theorem length_eq (h : Redrawn skips line column text text') : text'.length = text.length := by
  induction h with
  | nil => rfl
  | feed _ ih | keep _ _ ih | exchange _ _ _ _ _ ih => exact congrArg (· + 1) ih

/-- A character that is not exchanged stays, and so does one at a place that is
    not skipped. -/
theorem kept (h : Redrawn skips line column (c :: rest) text') (hc : c ≠ '\n')
    (hkept : ¬ (skips line column ∧ Inert c)) :
    ∃ rest', text' = c :: rest' ∧ Redrawn skips line (column + 1) rest rest' := by
  cases h with
  | feed => exact absurd rfl hc
  | keep _ hrest => exact ⟨_, rfl, hrest⟩
  | exchange hskips hc => exact absurd ⟨hskips, hc⟩ hkept

theorem quote (h : Redrawn skips line column ('"' :: rest) text') :
    ∃ rest', text' = '"' :: rest' ∧ Redrawn skips line (column + 1) rest rest' :=
  h.kept (by decide) fun hinert => hinert.2.1 rfl

/-- Where no quote comes first, none does in the other text. -/
theorem head?_ne_quote (h : Redrawn skips line column text text')
    (hhead : text.head? ≠ some '"') : text'.head? ≠ some '"' := by
  cases h with
  | nil | feed | keep => exact hhead
  | exchange _ _ hc' => simpa using hc'.1

/-- Texts are cut on one line. -/
theorem split {before before' : List Char}
    (h : Redrawn skips line column (before ++ rest) (before' ++ rest'))
    (hlength : before'.length = before.length) (hbefore : '\n' ∉ before) :
    Redrawn skips line column before before'
      ∧ Redrawn skips line (column + before.length) rest rest' := by
  induction before generalizing before' column with
  | nil =>
    obtain rfl := List.length_eq_zero_iff.1 hlength
    exact ⟨.nil, h⟩
  | cons c before ih =>
    obtain ⟨c', before', rfl⟩ := List.exists_cons_of_length_eq_add_one hlength
    have hlength' : before'.length = before.length := by simpa using hlength
    have hbefore' : '\n' ∉ before := fun hin => hbefore (List.mem_cons_of_mem _ hin)
    have hcolumn : column + (c :: before).length = column + 1 + before.length := by
      simp only [List.length_cons]
      omega
    rw [List.cons_append, List.cons_append] at h
    rw [hcolumn]
    cases h with
    | feed => exact absurd List.mem_cons_self hbefore
    | keep hc hrest =>
      obtain ⟨hcut, hafter⟩ := ih hrest hlength' hbefore'
      exact ⟨.keep hc hcut, hafter⟩
    | exchange hskips hc hc' hmark hrest =>
      obtain ⟨hcut, hafter⟩ := ih hrest hlength' hbefore'
      refine ⟨.exchange hskips hc hc' (fun hhead => hmark ?_) hcut, hafter⟩
      rw [List.head?_append, hhead]
      rfl

end Redrawn

/-! ### Lines of Exchanged Texts -/

/-- The lines of two sources from a number on, the same but for characters that
    are skipped. -/
inductive RedrawnLines (skips : Nat → Nat → Prop) : Nat → List String → List String → Prop
  | nil {line : Nat} : RedrawnLines skips line [] []
  | cons {line : Nat} {text text' : String} {pending pending' : List String}
      (htext : Redrawn skips line 0 text.toList text'.toList)
      (hpending : RedrawnLines skips (line + 1) pending pending') :
      RedrawnLines skips line (text :: pending) (text' :: pending')

/-- A carriage return that belongs to the line end is not exchanged. -/
theorem redrawn_endedLine {passed passed' : List Char} (hpassed : '\n' ∉ passed)
    (h : Redrawn skips line 0 passed.reverse passed'.reverse) :
    Redrawn skips line 0 (Source.endedLine passed).toList (Source.endedLine passed').toList := by
  have hlength : passed'.length = passed.length := by simpa using h.length_eq
  cases passed with
  | nil =>
    obtain rfl := List.length_eq_zero_iff.1 hlength
    exact .nil
  | cons c passed =>
    obtain ⟨c', passed', rfl⟩ := List.exists_cons_of_length_eq_add_one hlength
    have hwhole := h
    rw [List.reverse_cons, List.reverse_cons] at h
    obtain ⟨hcut, hlast⟩ := h.split (by simpa using hlength) (by simp_all)
    -- A carriage return at the end stays, and no other character becomes one.
    by_cases hc : c = '\r'
    · subst hc
      obtain ⟨_, hkept, -⟩ := hlast.kept (by decide) fun hinert => hinert.2.2.2 rfl
      obtain ⟨rfl, -⟩ := List.cons.inj hkept
      simpa [Source.endedLine] using hcut
    · have hc' : c' ≠ '\r' := by
        cases hlast with
        | feed => decide
        | keep => exact hc
        | exchange _ _ hc' => exact hc'.2.2
      rw [Source.endedLine_of_head? (by simpa using hc),
        Source.endedLine_of_head? (by simpa using hc'), String.toList_ofList, String.toList_ofList]
      exact hwhole

/-- The lines of the texts, of which `passed` and `passed'` have been read. -/
theorem redrawn_splitAfter {passed passed' : List Char} (hpassed : '\n' ∉ passed)
    (hlength : passed'.length = passed.length)
    (h : Redrawn skips line 0 (passed.reverse ++ rest) (passed'.reverse ++ rest')) :
    RedrawnLines skips line (Source.splitAfter #[] passed rest).toList
      (Source.splitAfter #[] passed' rest').toList := by
  -- The induction is on what is not yet read; all of the line is in `h`.
  induction rest generalizing line passed passed' rest' with
  | nil =>
    have hrest : rest' = [] := by
      have hwhole := h.length_eq
      simp only [List.length_append, List.length_reverse, List.length_nil] at hwhole
      exact List.length_eq_zero_iff.1 (by omega)
    subst hrest
    cases passed with
    | nil =>
      obtain rfl := List.length_eq_zero_iff.1 hlength
      exact .nil
    | cons c passed =>
      obtain ⟨c', passed', rfl⟩ := List.exists_cons_of_length_eq_add_one hlength
      exact .cons (by simpa using h) .nil
  | cons c rest ih =>
    obtain ⟨hline, hahead⟩ := h.split (by simpa using hlength) (by simpa using hpassed)
    have hread : ∀ {c' : Char} {rest' : List Char}, c ≠ '\n' → c' ≠ '\n' →
        Redrawn skips line 0 (passed.reverse ++ c :: rest) (passed'.reverse ++ c' :: rest') →
        RedrawnLines skips line (Source.splitAfter #[] passed (c :: rest)).toList
          (Source.splitAfter #[] passed' (c' :: rest')).toList := by
      intro c' rest' hc hc' h
      rw [Source.splitAfter, if_neg hc, Source.splitAfter, if_neg hc']
      exact ih (by simpa using ⟨Ne.symm hc, hpassed⟩) (by simpa using hlength) (by simpa using h)
    cases hahead with
    | feed hrest =>
      rw [Source.splitAfter_feed, Source.splitAfter_feed]
      exact .cons (redrawn_endedLine hpassed hline) (ih List.not_mem_nil rfl hrest)
    | keep hc => exact hread hc hc h
    | exchange _ hc hc' => exact hread hc.2.1 hc'.2.1 h

/-- A character other than a line feed leads to the next place on the line. -/
theorem place_concat (before : List Char) {c : Char} (hc : c ≠ '\n') :
    (before ++ [c]).count '\n' = before.count '\n'
      ∧ (lastLine (before ++ [c])).length = (lastLine before).length + 1 := by
  constructor
  · rw [List.count_append, List.count_singleton, beq_false_of_ne hc]
    rfl
  · simp [lastLine, hc]

/-- Exchanged texts, character by character, from the place after a part of
    each. -/
theorem Exchanged.redrawn {text text' : String} (h : Exchanged text text')
    (before before' : List Char) (htext : text.toList = before ++ rest)
    (htext' : text'.toList = before' ++ rest') (hlength : before'.length = before.length) :
    Redrawn (Source.ofText text).Skips (1 + before.count '\n') (lastLine before).length
      rest rest' := by
  have hrest : rest'.length = rest.length := by
    have hwhole := h.length_eq
    rw [htext, htext', List.length_append, List.length_append] at hwhole
    omega
  induction rest generalizing before before' rest' with
  | nil =>
    obtain rfl := List.length_eq_zero_iff.1 hrest
    exact .nil
  | cons c rest ih =>
    obtain ⟨c', rest', rfl⟩ := List.exists_cons_of_length_eq_add_one hrest
    have hnext := @ih rest' (before ++ [c]) (before' ++ [c']) (by simp [htext]) (by simp [htext'])
      (by simpa using hlength) (by simpa using hrest)
    by_cases heq : c' = c
    · subst heq
      by_cases hfeed : c' = '\n'
      · subst hfeed
        rw [List.count_append, lastLine_append_feed before []] at hnext
        exact .feed hnext
      · rw [(place_concat before hfeed).1, (place_concat before hfeed).2] at hnext
        exact .keep hfeed hnext
    · obtain ⟨hskips, hc, hc', hmark⟩ := h.exchanged before.length c c' (by simp [htext])
        (by simp [htext', ← hlength]) (Ne.symm heq)
      have hbefore : text.toList.take before.length = before := by simp [htext]
      have hhead : text.toList[before.length + 1]? = rest.head? := by
        rw [htext, List.getElem?_append_right (by omega), List.head?_eq_getElem?]
        simp
      rw [hbefore] at hskips
      rw [hhead] at hmark
      rw [(place_concat before hc.2.1).1, (place_concat before hc.2.1).2] at hnext
      exact .exchange hskips hc hc' hmark hnext

/-! ### What Is the Same -/

/-- Two marks that are the same or of which none interpolates. -/
def Mark.Agrees (mark mark' : Mark) : Prop :=
  mark = mark' ∨ mark.interpolates = false ∧ mark'.interpolates = false

/-- Two literals that differ at most in their marks, and there as marks
    agree. -/
structure Literal.Agrees (literal literal' : Literal) : Prop where
  content : literal.content = literal'.content
  line : literal.line = literal'.line
  delimiter : literal.delimiter = literal'.delimiter
  mark : literal.mark.Agrees literal'.mark

/-- A character before a quote that asks for no interpolation gives a mark that
    does not. -/
theorem Mark.interpolates_ofPreceding {c : Char} (h : Unmarking c) :
    (ofPreceding (some c)).interpolates = false := by
  simp only [ofPreceding, h.1, h.2, if_false]
  split <;> rfl

theorem Mark.Agrees.interpolates_eq {mark mark' : Mark} (h : mark.Agrees mark') :
    mark'.interpolates = mark.interpolates := by
  rcases h with rfl | ⟨hmark, hmark'⟩
  · rfl
  · rw [hmark, hmark']

/-- The report does not show in what literals differ that agree. -/
theorem Literal.Agrees.render_finding? {literal literal' : Literal} (h : literal.Agrees literal') :
    literal'.finding?.map Finding.render = literal.finding?.map Finding.render := by
  obtain ⟨content, mark, line, delimiter⟩ := literal
  obtain ⟨content', mark', line', delimiter'⟩ := literal'
  obtain ⟨rfl, rfl, rfl, hmark⟩ : content = content' ∧ line = line' ∧ delimiter = delimiter'
      ∧ mark.Agrees mark' := ⟨h.content, h.line, h.delimiter, h.mark⟩
  simp only [finding?, hmark.interpolates_eq]
  rcases hmark with rfl | ⟨hmark, -⟩
  · rfl
  · rw [hmark]
    cases looksInterpolated content <;> rfl

namespace Scan

def Opening.Agrees (opening opening' : Opening) : Prop :=
  opening.line = opening'.line ∧ opening.mark.Agrees opening'.mark

/-- What is remembered of an open literal, the same but for its mark. -/
inductive Region.Agrees : Region → Region → Prop
  | outside : Agrees .outside .outside
  | single {opening opening' : Opening} {content : List Char} {escaped : Bool}
      (hopening : opening.Agrees opening') :
      Agrees (.single opening content escaped) (.single opening' content escaped)
  | triple {opening opening' : Opening} {content : List Char} {quotes : Nat}
      (hopening : opening.Agrees opening') :
      Agrees (.triple opening content quotes) (.triple opening' content quotes)

/-- Two scans that are at one place, with the same ahead but for characters
    that are skipped. A quote that comes next would open literals with marks
    that agree. -/
structure State.Agrees (skips : Nat → Nat → Prop) (s s' : State) : Prop where
  line : s.line = s'.line
  passed : s'.passed.length = s.passed.length
  rest : Redrawn skips s.line s.passed.length s.rest s'.rest
  pending : RedrawnLines skips (s.line + 1) s.pending s'.pending
  region : s.region.Agrees s'.region
  mark : s.rest.head? = some '"' → s.here.mark.Agrees s'.here.mark

/-! ### Scans in Step -/

variable {passed passed' : List Char} {pending pending' : List String} {region region' : Region}
  {s s' t : State} {label : Label}

/-- Two scans that pass the same character agree after it if they agree in what
    they remember. -/
theorem agrees_pass (hpassed : passed'.length = passed.length)
    (hrest : Redrawn skips line (passed.length + 1) rest rest')
    (hpending : RedrawnLines skips (line + 1) pending pending') (hregion : region.Agrees region') :
    State.Agrees skips ⟨line, c :: passed, rest, pending, region⟩
      ⟨line, c :: passed', rest', pending', region'⟩ :=
  ⟨rfl, congrArg (· + 1) hpassed, hrest, hpending, hregion, fun _ => .inl rfl⟩

/-- Two scans agree at the beginning of a line if they agree in what they
    remember. -/
theorem agrees_enter {text text' : String} (htext : Redrawn skips line 0 text.toList text'.toList)
    (hpending : RedrawnLines skips (line + 1) pending pending') (hregion : region.Agrees region') :
    State.Agrees skips ⟨line, [], text.toList, pending, region⟩
      ⟨line, [], text'.toList, pending', region'⟩ :=
  ⟨rfl, rfl, htext, hpending, hregion, fun _ => .inl rfl⟩

/-- **Two scans go in step.** The place where the step is taken must not be
    skipped unless it is outside every literal. -/
theorem rule_agrees (h : Rule s label t) (hs : s.Lined)
    (hskips : s.rest ≠ [] → skips s.line s.passed.length → s.region = .outside)
    (hagrees : s.Agrees skips s') :
    ∃ label' t', Rule s' label' t' ∧ t.Agrees skips t'
      ∧ Option.Rel Literal.Agrees label.literal? label'.literal? := by
  obtain ⟨line', passed', rest', pending', region'⟩ := s'
  obtain ⟨hline, hpassed, hahead, hbelow, hregion, hmark⟩ := hagrees
  dsimp only at hline hpassed hahead hbelow hregion hmark
  subst hline
  cases h with dsimp only at hpassed hahead hbelow hregion hmark hskips
  | skip hc =>
    cases hregion
    cases hahead with
    | feed => exact absurd List.mem_cons_self hs.rest
    | keep _ hrest => exact ⟨_, _, .skip hc, agrees_pass hpassed hrest hbelow .outside, .none⟩
    | exchange _ _ hc' hunmarking hrest =>
      -- If a quote comes next, this character decides the mark of what it opens.
      refine ⟨_, _, .skip hc'.1,
        ⟨rfl, congrArg (· + 1) hpassed, hrest, hbelow, .outside, fun hquote => .inr ?_⟩, .none⟩
      obtain ⟨hold, hnew⟩ := hunmarking hquote
      exact ⟨Mark.interpolates_ofPreceding hold, Mark.interpolates_ofPreceding hnew⟩
  | openTriple =>
    cases hregion
    obtain ⟨_, rfl, hsecond⟩ := hahead.quote
    obtain ⟨_, rfl, hthird⟩ := hsecond.quote
    obtain ⟨_, rfl, hrest⟩ := hthird.quote
    exact ⟨_, _, .openTriple,
      agrees_pass (by simpa using hpassed) hrest hbelow (.triple ⟨rfl, hmark rfl⟩), .none⟩
  | pair hhead =>
    cases hregion
    obtain ⟨_, rfl, hsecond⟩ := hahead.quote
    obtain ⟨_, rfl, hrest⟩ := hsecond.quote
    exact ⟨_, _, .pair (hrest.head?_ne_quote hhead),
      agrees_pass (by simpa using hpassed) hrest hbelow .outside, .some ⟨rfl, rfl, rfl, hmark rfl⟩⟩
  | openSingle hhead =>
    cases hregion
    obtain ⟨_, rfl, hrest⟩ := hahead.quote
    exact ⟨_, _, .openSingle (hrest.head?_ne_quote hhead),
      agrees_pass hpassed hrest hbelow (.single ⟨rfl, hmark rfl⟩), .none⟩
  | closeSingle =>
    cases hregion with
    | single hopening =>
    obtain ⟨_, rfl, hrest⟩ := hahead.quote
    exact ⟨_, _, .closeSingle, agrees_pass hpassed hrest hbelow .outside,
      .some ⟨rfl, hopening.1, rfl, hopening.2⟩⟩
  | readSingle hopen =>
    cases hregion with
    | single hopening =>
    -- The scan is inside a literal here, so it does not skip this place.
    obtain ⟨_, rfl, hrest⟩ := hahead.kept (List.ne_of_not_mem_cons hs.rest).symm
      fun hskip => nomatch hskips (List.cons_ne_nil _ _) hskip.1
    exact ⟨_, _, .readSingle hopen, agrees_pass hpassed hrest hbelow (.single hopening), .none⟩
  | closeTriple =>
    cases hregion with
    | triple hopening =>
    obtain ⟨_, rfl, hrest⟩ := hahead.quote
    exact ⟨_, _, .closeTriple, agrees_pass hpassed hrest hbelow .outside,
      .some ⟨rfl, hopening.1, rfl, hopening.2⟩⟩
  | holdQuote hquotes =>
    cases hregion with
    | triple hopening =>
    obtain ⟨_, rfl, hrest⟩ := hahead.quote
    exact ⟨_, _, .holdQuote hquotes, agrees_pass hpassed hrest hbelow (.triple hopening), .none⟩
  | readTriple hc =>
    cases hregion with
    | triple hopening =>
    obtain ⟨_, rfl, hrest⟩ := hahead.kept (List.ne_of_not_mem_cons hs.rest).symm
      fun hskip => nomatch hskips (List.cons_ne_nil _ _) hskip.1
    exact ⟨_, _, .readTriple hc, agrees_pass hpassed hrest hbelow (.triple hopening), .none⟩
  | turnOutside =>
    cases hregion
    cases hahead
    cases hbelow with
    | cons htext hpending =>
    exact ⟨_, _, .turnOutside, agrees_enter htext hpending .outside, .none⟩
  | turnSingle =>
    cases hregion
    cases hahead
    cases hbelow with
    | cons htext hpending =>
    exact ⟨_, _, .turnSingle, agrees_enter htext hpending .outside, .none⟩
  | turnTriple =>
    cases hahead
    cases hbelow with
    | cons htext hpending =>
    cases hregion with
    | triple hopening =>
    exact ⟨_, _, .turnTriple, agrees_enter htext hpending (.triple hopening), .none⟩
  | dropSingle =>
    cases hregion
    cases hahead
    cases hbelow
    exact ⟨_, _, .dropSingle, ⟨rfl, hpassed, .nil, .nil, .outside, nofun⟩, .none⟩
  | dropTriple =>
    cases hregion
    cases hahead
    cases hbelow
    exact ⟨_, _, .dropTriple, ⟨rfl, hpassed, .nil, .nil, .outside, nofun⟩, .none⟩

/-- Where one scan ends, so does the other. -/
theorem State.Agrees.step?_eq_none (h : s.Agrees skips s') (hend : step? s = none) :
    step? s' = none := by
  obtain ⟨line, passed, rest, pending, region⟩ := s
  obtain ⟨line', passed', rest', pending', region'⟩ := s'
  obtain ⟨rfl, rfl, rfl⟩ : rest = [] ∧ pending = [] ∧ region = .outside := step?_eq_none_iff.1 hend
  obtain ⟨-, -, hahead, hbelow, hregion, -⟩ := h
  cases hahead
  cases hbelow
  cases hregion
  exact step?_eq_none_iff.2 ⟨rfl, rfl, rfl⟩

/-- A scan that can skip a character of a line is outside every literal
    whenever it is there. -/
theorem region_of_skips {source : Source} {labels : List Label}
    (hrun : Run (.initial source) labels s) (hrest : s.rest ≠ [])
    (hskips : source.Skips s.line s.passed.length) : s.region = .outside := by
  obtain ⟨labels', u, v, hrun', hskipped, hline, hpassed⟩ := hskips
  -- The scan comes here once, and then it is about to skip.
  have hu : u.rest ≠ [] ∧ u.region = .outside := by
    cases hskipped
    exact ⟨List.cons_ne_nil _ _, rfl⟩
  rw [hrun.eq_of_place hrun' hrest hu.1 hline.symm hpassed.symm]
  exact hu.2

/-- From states that agree, scans find literals that agree. -/
theorem literals_agree {text : String} {labels : List Label}
    (hrun : Run (.initial (Source.ofText text)) labels s)
    (hagrees : s.Agrees (Source.ofText text).Skips s') :
    List.Forall₂ Literal.Agrees ((trace s).filterMap Label.literal?)
      ((trace s').filterMap Label.literal?) := by
  induction s using run_induction generalizing labels s' with
  | hend s hend =>
    rw [trace_of_end hend, trace_of_end (hagrees.step?_eq_none hend)]
    exact .nil
  | hstep s label t hrule ih =>
    have hs := hrun.preserves regular_step (regular_initial text)
    obtain ⟨label', t', hrule', ht, hliteral⟩ :=
      rule_agrees hrule hs.toLined (region_of_skips hrun) hagrees
    have hrest := ih (hrun.append (.step hrule (.stay t))) ht
    rw [filterMap_trace_of_rule _ hrule, filterMap_trace_of_rule _ hrule']
    generalize label.literal? = literal?, label'.literal? = literal'? at hliteral
    cases hliteral with
    | none => exact hrest
    | some hliteral => exact .cons hliteral hrest

/-- Scans of exchanged texts begin in states that agree. -/
theorem agrees_initial {text text' : String} (h : Exchanged text text') :
    (State.initial (Source.ofText text)).Agrees (Source.ofText text).Skips
      (.initial (Source.ofText text')) :=
  ⟨rfl, rfl, .nil,
    redrawn_splitAfter List.not_mem_nil rfl (h.redrawn [] [] rfl rfl rfl),
    .outside, nofun⟩

end Scan

/-! ### Reports of Exchanged Texts -/

/-- A report shows the lines of its findings only. -/
theorem Report.bytes_of_map_render_eq {findings findings' : List Finding}
    (h : findings'.map Finding.render = findings.map Finding.render) :
    bytes findings' = bytes findings := by
  have hlength : findings'.length = findings.length := by simpa using congrArg List.length h
  have hlines : ∀ findings : List Finding, lines findings
      = (findings.map Finding.render).flatMap fun line => Utf8.encode (line ++ "\n") := by
    intro findings
    rw [List.flatMap_map]
    rfl
  rw [bytes_eq, bytes_eq, hlines, hlines, h, hlength]

/-- Literals that agree give rise to findings with the same lines in a
    report. -/
theorem map_render_of_agree {literals literals' : List Literal}
    (h : List.Forall₂ Literal.Agrees literals literals') :
    (literals'.filterMap Literal.finding?).map Finding.render
      = (literals.filterMap Literal.finding?).map Finding.render := by
  induction h with
  | nil => rfl
  | @cons literal literal' literals literals' hliteral _ ih =>
    have hrender := hliteral.render_finding?
    rw [List.filterMap_cons, List.filterMap_cons]
    cases hfinding : literal.finding? <;> cases hfinding' : literal'.finding? <;>
      simp_all

/-- **What surrounds literals is not interpreted.** Characters that a scan
    passes outside every literal can be exchanged. The literals then differ at
    most in marks that do not interpolate, and on every sink the lint of the one
    text is the lint of the other. -/
theorem Source.lint_exchanged {text text' : String} (h : Exchanged text text') :
    List.Forall₂ Literal.Agrees (ofText text).literals (ofText text').literals
      ∧ ((ofText text').lint {}).1 = .ok (ofText text).findings.length
      ∧ ∀ sink, (ofText text').lint sink = (ofText text).lint sink := by
  have hliterals : List.Forall₂ Literal.Agrees (ofText text).literals (ofText text').literals :=
    literals_agree (.stay _) (agrees_initial h)
  have hrender : (ofText text').findings.map Finding.render
      = (ofText text).findings.map Finding.render := map_render_of_agree hliterals
  have hlength : (ofText text').findings.length = (ofText text).findings.length := by
    simpa using congrArg List.length hrender
  refine ⟨hliterals, ?_, fun sink => ?_⟩
  · rw [lint_unlimited, hlength]
  · rw [lint_eq, lint_eq, Report.bytes_of_map_render_eq hrender, hlength]

/-- A letter before a literal is exchanged for a dollar sign, and one after it
    for a backslash. -/
theorem Source.lint_exchanged_letters :
    let text := "x\"$y\" z"
    let text' := "$\"$y\" \\"
    Exchanged text text'
      ∧ (ofText text).literals = [⟨"$y", .letter 'x', 1, .single⟩]
      ∧ (ofText text').literals = [⟨"$y", .bare, 1, .single⟩]
      ∧ ((ofText text').lint {}).1 = .ok 1
      ∧ (ofText text').lint {} = (ofText text).lint {} := by
  intro text text'
  -- The scan enters the line, passes the literal, and then skips the rest.
  have htext : text.toList = ['x', '"', '$', 'y', '"', ' ', 'z'] := by decide
  have htext' : text'.toList = ['$', '"', '$', 'y', '"', ' ', '\\'] := by decide
  let start : State := ⟨1, [], ['x', '"', '$', 'y', '"', ' ', 'z'], [], .outside⟩
  have henter : Run (.initial (ofText text)) [.turned none] start :=
    .step (step?_eq_some_iff.1 (by decide +kernel)) (.stay _)
  have hpass : Run start _ ⟨1, [' ', '"', 'y', '$', '"', 'x'], ['z'], [], .outside⟩ :=
    .step (.skip (by decide)) (.step (.openSingle (by decide)) (.step (.readSingle (by decide))
      (.step (.readSingle (by decide)) (.step .closeSingle (.step (.skip (by decide)) (.stay _))))))
  have hbefore : (ofText text).Skips 1 0 := ⟨_, _, _, henter, .skip (by decide), rfl, rfl⟩
  have hafter : (ofText text).Skips 1 6 :=
    ⟨_, _, _, henter.append hpass, .skip (by decide), rfl, rfl⟩
  have hexchanged : Exchanged text text' := by
    refine ⟨by decide, fun i c c' hc hc' hne => ?_⟩
    rw [htext] at hc ⊢
    rw [htext'] at hc'
    match i with
    | 0 =>
      obtain ⟨rfl, rfl⟩ : 'x' = c ∧ '$' = c' := ⟨Option.some.inj hc, Option.some.inj hc'⟩
      exact ⟨hbefore, by simp [Inert], by simp [Inert], fun _ => by simp [Unmarking]⟩
    | 6 =>
      obtain ⟨rfl, rfl⟩ : 'z' = c ∧ '\\' = c' := ⟨Option.some.inj hc, Option.some.inj hc'⟩
      exact ⟨hafter, by simp [Inert], by simp [Inert], fun _ => by simp [Unmarking]⟩
    | 1 | 2 | 3 | 4 | 5 => exact absurd (Option.some.inj (hc.symm.trans hc')) hne
    | _ + 7 => cases hc
  obtain ⟨-, hcount, hlint⟩ := lint_exchanged hexchanged
  have hfindings : (ofText text).findings.length = 1 := by decide +kernel
  exact ⟨hexchanged, by decide +kernel, by decide +kernel, hfindings ▸ hcount, hlint {}⟩

end LiteralLint
