import LiteralLint.Proofs.LineEnds
import LiteralLint.Scan.State

/-! # Literals by Search

  The literals of a source, found by searching its text. Nothing is
  remembered on the way: where a literal ends is read off the text before and
  after each place, not off what a scan has seen so far.

  The rules, from a place outside every literal:

  - The next quote of the line is looked for. If the line has none, the next
    line is gone on with.
  - Three quotes in a row open a triple literal. It ends at the leftmost three
    quotes in a row after them, on whatever line. If there are none, no
    further literal is found.
  - Otherwise, two quotes are an empty single literal.
  - Otherwise, the quote opens a single literal. It ends at the first quote of
    the line that an even number of backslashes stands directly before. If
    the line has none, the next line is gone on with.

  A search looks at the text of a source, so a line feed is where a line
  ends. A search that stops at line feeds is one of the rest of the line.
-/

namespace LiteralLint

/-! ### Delimiters in Text -/

/-- The quotes of a delimiter. -/
def Delimiter.quotes : Delimiter → List Char
  | .single => ['"']
  | .triple => ['"', '"', '"']

/-- A content between its delimiters. -/
def Delimiter.enclose (delimiter : Delimiter) (content : List Char) : List Char :=
  delimiter.quotes ++ content ++ delimiter.quotes

/-- A literal begins with a quote. -/
theorem Delimiter.enclose_eq_cons (delimiter : Delimiter) (content : List Char) :
    ∃ rest, delimiter.enclose content = '"' :: rest := by
  cases delimiter <;> exact ⟨_, rfl⟩

namespace Scan

/-! ### Openings Further On -/

namespace Opening

/-- The literal that opens here and has the given content. -/
def literal (opening : Opening) (delimiter : Delimiter) (content : List Char) : Literal :=
  ⟨String.ofList content, opening.mark, opening.line, delimiter⟩

/-- Where a literal opens that opens `passed` further on. -/
def past (opening : Opening) (passed : List Char) : Opening :=
  ⟨opening.line + passed.count '\n', (passed.reverse ++ opening.before).takeWhile (· ≠ '\n')⟩

/-- Where a literal opens that is the first thing on the next line. -/
def nextLine (opening : Opening) : Opening := ⟨opening.line + 1, []⟩

@[simp] theorem past_line (opening : Opening) (passed : List Char) :
    (opening.past passed).line = opening.line + passed.count '\n' := rfl

/-- Going on twice is going on by both. -/
@[simp] theorem past_past (opening : Opening) (xs ys : List Char) :
    (opening.past xs).past ys = opening.past (xs ++ ys) := by
  simp only [past, List.count_append, List.reverse_append, List.append_assoc, mk.injEq]
  refine ⟨Nat.add_assoc _ _ _, ?_⟩
  rw [List.takeWhile_append, @List.takeWhile_append _ _ ys.reverse, List.takeWhile_idem]

/-- Going on by a part of the line. -/
theorem past_of_notMem {opening : Opening} (hbefore : '\n' ∉ opening.before) {passed : List Char}
    (hpassed : '\n' ∉ passed) :
    opening.past passed = ⟨opening.line, passed.reverse ++ opening.before⟩ := by
  have hline : '\n' ∉ passed.reverse ++ opening.before := by
    intro hin
    rcases List.mem_append.1 hin with hin | hin
    · exact hpassed (List.mem_reverse.1 hin)
    · exact hbefore hin
  rw [past, takeWhile_of_notMem hline, List.count_eq_zero_of_not_mem hpassed, Nat.add_zero]

/-- Going on by nothing. -/
theorem past_nil {opening : Opening} (hbefore : '\n' ∉ opening.before) :
    opening.past [] = opening :=
  past_of_notMem hbefore (by simp)

/-- What stands before an opening further on holds no line feed. -/
theorem notMem_before_past (opening : Opening) (passed : List Char) :
    '\n' ∉ (opening.past passed).before := by
  intro hfeed
  simpa using List.mem_takeWhile_imp hfeed

/-- Going on by the rest of the line and its line feed. -/
theorem past_append_feed (opening : Opening) {passed : List Char} (hpassed : '\n' ∉ passed) :
    opening.past (passed ++ ['\n']) = opening.nextLine := by
  simp [past, nextLine, List.count_eq_zero_of_not_mem hpassed]

/-- Going on by a line feed. -/
@[simp] theorem past_feed (opening : Opening) : opening.past ['\n'] = opening.nextLine :=
  past_append_feed opening (List.not_mem_nil)

end Opening

end Scan

namespace Search

open Scan

/-! ### Cuts -/

/-- The first cut of a text that `stops` accepts, as what stands before it and
    what stands after it; `before` is what stands before the text, nearest
    character first, and so is the first part of the answer. There is no cut
    after the last character. -/
def cut? (stops : List Char → List Char → Bool) (before : List Char) :
    List Char → Option (List Char × List Char)
  | [] => none
  | c :: after =>
    if stops before (c :: after) then some (before, c :: after)
    else cut? stops (c :: before) after

/-- The number of backslashes that stand directly before a place. -/
def backslashRun (before : List Char) : Nat :=
  (before.takeWhile (· = '\\')).length

/-- One more character makes a run of backslashes longer, or ends it. -/
theorem backslashRun_cons (c : Char) (before : List Char) :
    backslashRun (c :: before) = if c = '\\' then backslashRun before + 1 else 0 := by
  by_cases hc : c = '\\' <;> simp [backslashRun, hc]

/-- Outside every literal: the next quote of the line, or its end. -/
def stopsOutside (_before after : List Char) : Bool :=
  after.head? = some '"' || after.head? = some '\n'

/-- In a single literal: the first quote of the line that an even number of
    backslashes stands directly before, or the end of the line. -/
def stopsSingle (before after : List Char) : Bool :=
  (after.head? = some '"' && backslashRun before % 2 = 0) || after.head? = some '\n'

/-- In a triple literal: three quotes in a row. -/
def stopsTriple (_before after : List Char) : Bool :=
  Delimiter.triple.quotes.isPrefixOf after

/-! ### Rounds -/

/-- A place outside every literal. -/
structure Place where
  /-- The opening of a literal that opens here. -/
  opening : Opening
  /-- The text ahead: the rest of the line and all later lines, joined by line
      feeds. -/
  ahead : List Char

/-- What the search for one quote comes to. -/
structure Round where
  /-- The literal that was found, if any. -/
  literal? : Option Literal
  /-- Where to go on, unless the search is over. -/
  next? : Option Place

/-- A round that finds a literal and goes on right after it. -/
def Round.found (opening : Opening) (delimiter : Delimiter) (content ahead : List Char) : Round :=
  ⟨some (opening.literal delimiter content),
    some ⟨opening.past (delimiter.enclose content), ahead⟩⟩

/-- A round that finds nothing on the line and goes on with the next one. -/
def Round.lineOver (opening : Opening) (ahead : List Char) : Round :=
  ⟨none, some ⟨opening.nextLine, ahead⟩⟩

/-- A round that finds nothing and ends the search. -/
def Round.ends : Round := ⟨none, none⟩

/-- The round of a single literal; `content` is what of its content stands
    before `ahead`, nearest character first. -/
def singleRound (opening : Opening) (content ahead : List Char) : Round :=
  match cut? stopsSingle content ahead with
  | some (content, '"' :: ahead) => .found opening .single content.reverse ahead
  | some (_, _ :: ahead) => .lineOver opening ahead
  | some (_, []) | none => .ends

/-- The round of a triple literal; `content` is what of its content stands
    before `ahead`, nearest character first. -/
def tripleRound (opening : Opening) (content ahead : List Char) : Round :=
  match cut? stopsTriple content ahead with
  | some (content, ahead) => .found opening .triple content.reverse (ahead.drop 3)
  | none => .ends

/-- The round of a quote; `ahead` is what stands after it. -/
def quoteRound (opening : Opening) (ahead : List Char) : Round :=
  match ahead with
  | '"' :: '"' :: ahead => tripleRound opening [] ahead
  | '"' :: ahead => .found opening .single [] ahead
  | ahead => singleRound opening [] ahead

/-- The round from a place outside every literal. -/
def Place.round (place : Place) : Round :=
  match cut? stopsOutside place.opening.before place.ahead with
  | some (before, '"' :: ahead) => quoteRound ⟨place.opening.line, before⟩ ahead
  | some (_, _ :: ahead) => .lineOver place.opening ahead
  | some (_, []) | none => .ends

/-! ### Each Round Gets Further -/

theorem cut?_length {stops : List Char → List Char → Bool} {before text before' after : List Char}
    (h : cut? stops before text = some (before', after)) : after.length ≤ text.length := by
  induction text generalizing before with
  | nil => cases h
  | cons c text ih =>
    rw [cut?] at h
    split at h
    · cases h
      exact Nat.le_refl _
    · exact Nat.le_succ_of_le (ih h)

theorem singleRound_shorter {opening : Opening} {content ahead : List Char} {next : Place}
    (h : (singleRound opening content ahead).next? = some next) :
    next.ahead.length ≤ ahead.length := by
  unfold singleRound at h
  split at h
  · next hcut =>
    cases h
    exact Nat.le_of_succ_le (cut?_length hcut)
  · next hcut =>
    cases h
    exact Nat.le_of_succ_le (cut?_length hcut)
  · cases h
  · cases h

theorem tripleRound_shorter {opening : Opening} {content ahead : List Char} {next : Place}
    (h : (tripleRound opening content ahead).next? = some next) :
    next.ahead.length ≤ ahead.length := by
  unfold tripleRound at h
  split at h
  · next hcut =>
    cases h
    have hless := cut?_length hcut
    simp only [List.length_drop]
    omega
  · cases h

theorem quoteRound_shorter {opening : Opening} {ahead : List Char} {next : Place}
    (h : (quoteRound opening ahead).next? = some next) : next.ahead.length ≤ ahead.length := by
  unfold quoteRound at h
  split at h
  · -- Two more quotes are passed before the content.
    have hless := tripleRound_shorter h
    simp only [List.length_cons]
    omega
  · cases h
    simp
  · exact singleRound_shorter h

/-- Less is ahead after each round. -/
theorem round_shorter {place next : Place} (h : place.round.next? = some next) :
    next.ahead.length < place.ahead.length := by
  unfold Place.round at h
  split at h
  · next hcut =>
    -- The quote itself is passed, whatever comes of it.
    have hquote := quoteRound_shorter h
    have hless := cut?_length hcut
    simp only [List.length_cons] at hless
    omega
  · next hcut =>
    cases h
    exact cut?_length hcut
  · cases h
  · cases h

/-! ### The Search -/

/-- The literals found from a place on. -/
def search (place : Place) : List Literal :=
  match _h : place.round.next? with
  | none => place.round.literal?.toList
  | some next => place.round.literal?.toList ++ search next
termination_by place.ahead.length
decreasing_by exact round_shorter _h

/-- The literals of a source, found by search: it starts at the beginning of
    the first line. -/
def literals (source : Source) : List Literal :=
  search ⟨⟨1, []⟩, source.text⟩

/-- The leftmost three of four quotes close a triple literal, and the line
    after the fourth is gone on with. Two backslashes leave a quote as it is,
    and one does not. -/
example :
    literals (.ofText "\"\"\"\"a\"\"\"\"\ns\"\\\\\"f\"\\\"")
      = [⟨"\"a", .bare, 1, .triple⟩, ⟨"\\\\", .s, 2, .single⟩] := by
  decide +kernel

/-! ### Character by Character -/

/-- The literals found in a round and from where it goes on. -/
def Round.literals (round : Round) : List Literal :=
  round.literal?.toList ++ round.next?.elim [] search

@[simp] theorem Round.literals_found (opening : Opening) (delimiter : Delimiter)
    (content ahead : List Char) :
    (Round.found opening delimiter content ahead).literals
      = opening.literal delimiter content
        :: search ⟨opening.past (delimiter.enclose content), ahead⟩ := rfl

@[simp] theorem Round.literals_lineOver (opening : Opening) (ahead : List Char) :
    (Round.lineOver opening ahead).literals = search ⟨opening.nextLine, ahead⟩ := rfl

@[simp] theorem Round.literals_ends : Round.ends.literals = [] := rfl

/-- A search is its first round and what comes after it. -/
theorem search_eq (place : Place) : search place = place.round.literals := by
  rw [search, Round.literals]
  split <;> simp_all

theorem cut?_stop {stops : List Char → List Char → Bool} {before after : List Char} {c : Char}
    (h : stops before (c :: after) = true) :
    cut? stops before (c :: after) = some (before, c :: after) := by
  rw [cut?, if_pos h]

theorem cut?_pass {stops : List Char → List Char → Bool} {before after : List Char} {c : Char}
    (h : stops before (c :: after) = false) :
    cut? stops before (c :: after) = cut? stops (c :: before) after := by
  rw [cut?, if_neg (by simp [h])]

section singleLiterals

variable {opening : Opening} {content ahead : List Char}

@[simp] theorem singleRound_nil : singleRound opening content [] = .ends := rfl

/-- A quote after an even number of backslashes closes a single literal. -/
theorem singleRound_close (heven : backslashRun content % 2 = 0) :
    singleRound opening content ('"' :: ahead)
      = .found opening .single content.reverse ahead := by
  rw [singleRound, cut?_stop (by simp [stopsSingle, heven])]
  rfl

/-- The end of a line leaves a single literal open. -/
@[simp] theorem singleRound_feed :
    singleRound opening content ('\n' :: ahead) = .lineOver opening ahead := by
  rw [singleRound, cut?_stop (by simp [stopsSingle])]
  rfl

/-- Any other character is content. -/
theorem singleRound_read {c : Char} (hfeed : c ≠ '\n')
    (hopen : ¬ (c = '"' ∧ backslashRun content % 2 = 0)) :
    singleRound opening content (c :: ahead) = singleRound opening (c :: content) ahead := by
  have hgo : stopsSingle content (c :: ahead) = false := by
    simpa [stopsSingle, hfeed] using hopen
  rw [singleRound, cut?_pass hgo, ← singleRound]

end singleLiterals

section tripleLiterals

variable {opening : Opening} {content ahead : List Char}

@[simp] theorem tripleRound_nil : tripleRound opening content [] = .ends := rfl

/-- Three quotes in a row close a triple literal. -/
@[simp] theorem tripleRound_close :
    tripleRound opening content ('"' :: '"' :: '"' :: ahead)
      = .found opening .triple content.reverse ahead := by
  rw [tripleRound, cut?_stop (by simp [stopsTriple, Delimiter.quotes])]
  rfl

/-- Any other character is content. -/
theorem tripleRound_read {c : Char} (hopen : ¬ Delimiter.triple.quotes <+: c :: ahead) :
    tripleRound opening content (c :: ahead) = tripleRound opening (c :: content) ahead := by
  have hgo : stopsTriple content (c :: ahead) = false := by
    rw [stopsTriple, ← Bool.not_eq_true, List.isPrefixOf_iff_prefix]
    exact hopen
  rw [tripleRound, cut?_pass hgo, ← tripleRound]

/-- Fewer than three quotes in a row are content, and so is what ends them. -/
theorem tripleRound_flush {quotes : Nat} (hquotes : quotes ≤ 2) {c : Char} (hc : c ≠ '"') :
    tripleRound opening content (List.replicate quotes '"' ++ c :: ahead)
      = tripleRound opening (c :: withQuotes quotes content) ahead := by
  have hread : ∀ (content ahead : List Char),
      tripleRound opening content (c :: ahead) = tripleRound opening (c :: content) ahead := by
    intro content ahead
    apply tripleRound_read
    intro hpre
    exact hc (List.cons_prefix_cons.1 hpre).1.symm
  -- Three quotes in a row would have to go past the character that is none.
  match quotes, hquotes with
  | 0, _ => exact hread content ahead
  | 1, _ =>
    rw [List.replicate_one, List.singleton_append, tripleRound_read, hread]
    · rfl
    · simp [Delimiter.quotes, Ne.symm hc]
  | 2, _ =>
    show tripleRound opening content ('"' :: '"' :: c :: ahead) = _
    rw [tripleRound_read, tripleRound_read, hread]
    · rfl
    · simp [Delimiter.quotes, Ne.symm hc]
    · simp [Delimiter.quotes, Ne.symm hc]

/-- Fewer than three quotes at the end of the text close nothing. -/
theorem tripleRound_quotes {quotes : Nat} (hquotes : quotes ≤ 2) :
    tripleRound opening content (List.replicate quotes '"') = .ends := by
  match quotes, hquotes with
  | 0, _ => rfl
  | 1, _ => simp [tripleRound, cut?, stopsTriple, Delimiter.quotes]
  | 2, _ => simp [tripleRound, cut?, stopsTriple, Delimiter.quotes, List.replicate]

end tripleLiterals

section outside

variable {opening : Opening} {ahead : List Char}

theorem round_nil : Place.round ⟨opening, []⟩ = .ends := rfl

/-- The end of a line leads to the next one. -/
theorem round_feed : Place.round ⟨opening, '\n' :: ahead⟩ = .lineOver opening ahead := by
  rw [Place.round, cut?_stop (by simp [stopsOutside])]
  rfl

/-- A quote is looked at by itself. -/
theorem round_quote : Place.round ⟨opening, '"' :: ahead⟩ = quoteRound opening ahead := by
  rw [Place.round, cut?_stop (by simp [stopsOutside])]
  rfl

/-- Any other character is passed. -/
theorem round_pass {c : Char} (hquote : c ≠ '"') (hfeed : c ≠ '\n') :
    Place.round ⟨opening, c :: ahead⟩
      = Place.round ⟨⟨opening.line, c :: opening.before⟩, ahead⟩ := by
  have hgo : stopsOutside opening.before (c :: ahead) = false := by
    simp [stopsOutside, hquote, hfeed]
  rw [Place.round, cut?_pass hgo]
  rfl

@[simp] theorem search_nil : search ⟨opening, []⟩ = [] := by
  rw [search_eq, round_nil, Round.literals_ends]

@[simp] theorem search_feed :
    search ⟨opening, '\n' :: ahead⟩ = search ⟨opening.nextLine, ahead⟩ := by
  rw [search_eq, round_feed, Round.literals_lineOver]

theorem search_quote : search ⟨opening, '"' :: ahead⟩ = (quoteRound opening ahead).literals := by
  rw [search_eq, round_quote]

theorem search_pass {c : Char} (hquote : c ≠ '"') (hfeed : c ≠ '\n') :
    search ⟨opening, c :: ahead⟩ = search ⟨⟨opening.line, c :: opening.before⟩, ahead⟩ := by
  rw [search_eq, round_pass hquote hfeed, ← search_eq]

end outside

/-- Two quotes and no third are an empty literal. -/
theorem quoteRound_pair {opening : Opening} {ahead : List Char} (h : ahead.head? ≠ some '"') :
    quoteRound opening ('"' :: ahead) = .found opening .single [] ahead := by
  unfold quoteRound
  split <;> simp_all

/-- A quote and no second opens a single literal. -/
theorem quoteRound_single {opening : Opening} {ahead : List Char} (h : ahead.head? ≠ some '"') :
    quoteRound opening ahead = singleRound opening [] ahead := by
  unfold quoteRound
  split <;> simp_all

/-! ### A Line Feed at the End -/

section finalFeed

variable {opening : Opening} {content ahead : List Char}

/-- A line feed at the end of a text makes no difference to a search, up to a
    length of the text. -/
def HidesFeed (length : Nat) : Prop :=
  ∀ (opening : Opening) (text : List Char), text.length ≤ length →
    search ⟨opening, text ++ ['\n']⟩ = search ⟨opening, text⟩

theorem HidesFeed.mono {length less : Nat} (h : HidesFeed length) (hless : less ≤ length) :
    HidesFeed less := by
  intro opening text hlength
  exact h opening text (Nat.le_trans hlength hless)

/-- A line feed at the end of a text closes no single literal, and hides no
    quote that does. -/
theorem singleRound_append_feed (hlater : HidesFeed ahead.length) :
    (singleRound opening content (ahead ++ ['\n'])).literals
      = (singleRound opening content ahead).literals := by
  induction ahead generalizing content with
  | nil => simp
  | cons c ahead ih =>
    have hlater' : HidesFeed ahead.length := hlater.mono (Nat.le_succ _)
    rw [List.cons_append]
    by_cases hfeed : c = '\n'
    · subst hfeed
      simp [hlater' _ ahead (Nat.le_refl _)]
    by_cases hclose : c = '"' ∧ backslashRun content % 2 = 0
    · obtain ⟨rfl, heven⟩ := hclose
      simp [singleRound_close heven, hlater' _ ahead (Nat.le_refl _)]
    · rw [singleRound_read hfeed hclose, singleRound_read hfeed hclose, ih hlater']

/-- A line feed at the end of a text is no part of three quotes in a row. -/
theorem quotes_prefix_append_feed :
    Delimiter.triple.quotes <+: ahead ++ ['\n'] ↔ Delimiter.triple.quotes <+: ahead := by
  rw [List.prefix_concat_iff]
  apply or_iff_right
  intro heq
  have hlast := congrArg List.getLast? heq
  simp [Delimiter.quotes] at hlast

/-- A line feed at the end of a text closes no triple literal, and hides no
    quotes that do. -/
theorem tripleRound_append_feed (hlater : HidesFeed ahead.length) :
    (tripleRound opening content (ahead ++ ['\n'])).literals
      = (tripleRound opening content ahead).literals := by
  induction ahead generalizing content with
  | nil =>
    rw [List.nil_append, tripleRound_read (by decide)]
    rfl
  | cons c ahead ih =>
    by_cases hclose : Delimiter.triple.quotes <+: c :: ahead
    · obtain ⟨text, hquotes⟩ := hclose
      have hless : text.length ≤ (c :: ahead).length := by
        rw [← hquotes, List.length_append]
        exact Nat.le_add_left _ _
      have htext := fun opening => hlater.mono hless opening text (Nat.le_refl _)
      rw [← hquotes]
      simp only [Delimiter.quotes, List.cons_append, List.nil_append, tripleRound_close,
        Round.literals_found, htext]
    · have hclose' : ¬ Delimiter.triple.quotes <+: c :: (ahead ++ ['\n']) := by
        intro hpre
        exact hclose (quotes_prefix_append_feed.1 hpre)
      rw [List.cons_append, tripleRound_read hclose, tripleRound_read hclose',
        ih (hlater.mono (Nat.le_succ _))]

/-- A line feed at the end of a text makes no difference to what a quote is. -/
theorem quoteRound_append_feed (hlater : HidesFeed ahead.length) :
    (quoteRound opening (ahead ++ ['\n'])).literals = (quoteRound opening ahead).literals := by
  have hhead : ∀ {text : List Char}, text.head? ≠ some '"' →
      (text ++ ['\n']).head? ≠ some '"' := by
    intro text h
    cases text with
    | nil => simp
    | cons c text => exact h
  by_cases hsecond : ahead.head? = some '"'
  · obtain ⟨ahead, rfl⟩ := List.head?_eq_some_iff.1 hsecond
    by_cases hthird : ahead.head? = some '"'
    · obtain ⟨ahead, rfl⟩ := List.head?_eq_some_iff.1 hthird
      have hless : ahead.length ≤ ('"' :: '"' :: ahead).length :=
        Nat.le_trans (Nat.le_succ _) (Nat.le_succ _)
      exact tripleRound_append_feed (hlater.mono hless)
    · rw [List.cons_append, quoteRound_pair hthird, quoteRound_pair (hhead hthird)]
      simp [hlater _ ahead (Nat.le_succ _)]
  · rw [quoteRound_single hsecond, quoteRound_single (hhead hsecond)]
    exact singleRound_append_feed hlater

/-- A line feed at the end of a text makes no difference to a search. -/
theorem search_append_feed (opening : Opening) (ahead : List Char) :
    search ⟨opening, ahead ++ ['\n']⟩ = search ⟨opening, ahead⟩ := by
  match ahead with
  | [] => simp
  | c :: ahead =>
    -- After its first round, the search goes on from any later place.
    have hlater : HidesFeed ahead.length := by
      intro opening text hlength
      exact search_append_feed opening text
    rw [List.cons_append]
    by_cases hfeed : c = '\n'
    · subst hfeed
      simp [hlater _ ahead (Nat.le_refl _)]
    by_cases hquote : c = '"'
    · subst hquote
      rw [search_quote, search_quote, quoteRound_append_feed hlater]
    · rw [search_pass hquote hfeed, search_pass hquote hfeed, hlater _ ahead (Nat.le_refl _)]
termination_by ahead.length

end finalFeed

end Search

end LiteralLint
