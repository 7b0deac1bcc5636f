import LiteralLint.Proofs.Checks
import LiteralLint.Proofs.ScanSearch
import LiteralLint.Proofs.Written
import Mathlib.Data.List.Pairwise

/-! # Line Numbers

  The number of a line is all that a finding says about where it is. It is a
  line of the source, with a quote on it that the mark of the finding stands
  before, and the numbers do not go down from one finding to the next.

  The key ideas:

  - `line?_of_text_eq`: a character of the text stands on the line that has as
    many line feeds before it, at the place that the text since the last line
    feed says. Where a search is tells what the lines are.
  - `Search.Written.pairwise_line`: a literal ends before the next one begins,
    and it ends as many lines below its first as it holds line feeds.

  A check refuses a literal on a line that the source does not have. There is
  none, and so every check succeeds (`Source.check_eq`).
-/

namespace LiteralLint

open Scan Search

/-! ### Lines of the Text -/

/-- The text since the last line feed. -/
def lastLine (text : List Char) : List Char := (text.reverse.takeWhile (· ≠ '\n')).reverse

/-- A text on one line is its last line. -/
theorem lastLine_of_notMem {text : List Char} (h : '\n' ∉ text) : lastLine text = text := by
  have hreverse : '\n' ∉ text.reverse := by
    intro hin
    exact h (List.mem_reverse.1 hin)
  rw [lastLine, takeWhile_of_notMem hreverse, List.reverse_reverse]

/-- What is above the last line feed is not on the last line. -/
theorem lastLine_append_feed (above text : List Char) :
    lastLine (above ++ '\n' :: text) = lastLine text := by
  have hcut : (text.reverse ++ '\n' :: above.reverse).takeWhile (· ≠ '\n')
      = text.reverse.takeWhile (· ≠ '\n') := by
    rw [List.takeWhile_append]
    split
    · next hall =>
      rw [List.takeWhile_cons_of_neg (by simp), List.append_nil]
      exact ((List.takeWhile_prefix _).eq_of_length hall).symm
    · rfl
  rw [lastLine, List.reverse_append, List.reverse_cons, List.append_assoc]
  exact congrArg List.reverse hcut

theorem takeWhile_append_of_notMem {line : List Char} (hline : '\n' ∉ line) (rest : List Char) :
    (line ++ rest).takeWhile (· ≠ '\n') = line ++ rest.takeWhile (· ≠ '\n') := by
  refine List.takeWhile_append_of_pos fun c hc => ?_
  rw [decide_eq_true_eq]
  rintro rfl
  exact hline hc

/-- A cut of a text that is joined from lines is on a line: as many lines are
    above it as there are line feeds before the cut. -/
theorem getElem?_of_intercalate_cut {lines : List (List Char)} (hne : lines ≠ [])
    (hlines : ∀ line ∈ lines, '\n' ∉ line) {passed rest : List Char}
    (h : ['\n'].intercalate lines = passed ++ rest) :
    lines[passed.count '\n']? = some (lastLine passed ++ rest.takeWhile (· ≠ '\n')) := by
  induction lines generalizing passed with
  | nil => exact absurd rfl hne
  | cons line lines ih =>
    obtain ⟨hline, hlines⟩ := List.forall_mem_cons.1 hlines
    cases lines with
    | nil =>
      rw [List.intercalate_singleton] at h
      subst h
      rw [List.mem_append, not_or] at hline
      rw [List.count_eq_zero_of_not_mem hline.1, lastLine_of_notMem hline.1,
        takeWhile_of_notMem hline.2]
      rfl
    | cons next lines =>
      rw [List.intercalate_cons_cons, List.append_assoc, List.singleton_append] at h
      -- The cut is on the line or at its end, or it is below the line.
      rcases List.append_eq_append_iff.1 h with ⟨tail, rfl, htail⟩ | ⟨tail, rfl, rfl⟩
      · cases tail with
        | nil =>
          rw [List.nil_append] at htail
          subst htail
          rw [List.append_nil, List.count_eq_zero_of_not_mem hline, lastLine_of_notMem hline]
          simp
        | cons d between =>
          obtain ⟨rfl, hbetween⟩ := List.cons.inj htail
          have hbelow := ih (List.cons_ne_nil _ _) hlines hbetween
          rw [lastLine_append_feed, ← hbelow, List.count_append, List.count_cons_self,
            List.count_eq_zero_of_not_mem hline]
          simp
      · rw [List.mem_append, not_or] at hline
        rw [List.count_eq_zero_of_not_mem hline.1, lastLine_of_notMem hline.1,
          takeWhile_append_of_notMem hline.2]
        simp

/-- There is a line more than the text has line feeds. -/
theorem count_intercalate {lines : List (List Char)} (hlines : ∀ line ∈ lines, '\n' ∉ line)
    (hne : lines ≠ []) : (['\n'].intercalate lines).count '\n' + 1 = lines.length := by
  induction lines with
  | nil => exact absurd rfl hne
  | cons line lines ih =>
    obtain ⟨hline, hlines⟩ := List.forall_mem_cons.1 hlines
    have hcount := List.count_eq_zero_of_not_mem hline
    cases lines with
    | nil => simp [hcount]
    | cons next lines =>
      have ih' := ih hlines (by simp)
      rw [List.intercalate_cons_cons, List.count_append, List.count_append, hcount]
      simp only [List.length_cons] at ih' ⊢
      simp
      omega

namespace Source

/-- No line of a text holds a line feed. -/
theorem notMem_toList_lines (text : String) :
    ∀ line ∈ (ofText text).lines.toList.map String.toList, '\n' ∉ line := by
  intro line hline
  obtain ⟨line, hmem, rfl⟩ := List.mem_map.1 hline
  exact notMem_lines_ofText text line hmem

/-- A source with some text has lines. -/
theorem map_lines_ne_nil {source : Source} (h : source.text ≠ []) :
    source.lines.toList.map String.toList ≠ [] := by
  intro hnil
  rw [Source.text, hnil] at h
  exact h rfl

/-- The first line has number 1. -/
theorem line?_of_getElem? {source : Source} {i : Nat} {chars : List Char}
    (h : (source.lines.toList.map String.toList)[i]? = some chars) :
    ∃ line, source.line? (1 + i) = some line ∧ line.text.toList = chars := by
  rw [List.getElem?_map, Option.map_eq_some_iff, Array.getElem?_toList] at h
  obtain ⟨line, hline, htoList⟩ := h
  refine ⟨⟨1 + i, line⟩, ?_, htoList⟩
  rw [line?, if_neg (by omega), Nat.add_sub_cancel_left, hline]
  rfl

/-- A character of the text of a source is on a line of the source. -/
theorem line?_of_text_eq {text : String} {passed rest : List Char} {c : Char} (hc : c ≠ '\n')
    (h : (ofText text).text = passed ++ c :: rest) :
    ∃ line after, (ofText text).line? (1 + passed.count '\n') = some line
      ∧ line.text.toList = lastLine passed ++ c :: after := by
  have hne : (ofText text).text ≠ [] := by simp [h]
  have hcut := getElem?_of_intercalate_cut (map_lines_ne_nil hne) (notMem_toList_lines text) h
  rw [List.takeWhile_cons_of_pos (by simpa using hc)] at hcut
  obtain ⟨line, hline, htoList⟩ := line?_of_getElem? hcut
  exact ⟨line, _, hline, htoList⟩

/-- A source whose text is not empty has more lines than its text has line
    feeds. -/
theorem count_text_lt_size {text : String} (h : (ofText text).text ≠ []) :
    (ofText text).text.count '\n' < (ofText text).size := by
  have hcount := count_intercalate (notMem_toList_lines text) (map_lines_ne_nil h)
  rw [List.length_map, Array.length_toList] at hcount
  rw [Source.text, size]
  omega

end Source

/-! ### Lines of Literals -/

/-- The number of the line on which a literal ends, its content one line for
    each line feed. -/
def Literal.lastLineNumber (literal : Literal) : Nat :=
  literal.line + literal.content.toList.count '\n'

namespace Search

variable {opening : Opening} {text : List Char} {literals : List Literal}

/-- Each literal begins and ends on lines of the text that it is written in. -/
theorem Written.line_bounds (h : Written opening text literals) {literal : Literal}
    (hmem : literal ∈ literals) :
    opening.line ≤ literal.line
      ∧ literal.lastLineNumber ≤ opening.line + text.count '\n' := by
  obtain ⟨passed, body, rest, rfl, -, hliteral⟩ := h.of_mem hmem
  have hline : literal.line = opening.line + passed.count '\n' := congrArg Literal.line hliteral
  have hcontent : literal.content.toList = body := by
    rw [hliteral, Opening.literal, String.toList_ofList]
  rw [Literal.lastLineNumber, hline, hcontent]
  simp only [Delimiter.enclose, List.count_append]
  omega

/-- Each literal ends before the next one begins, on the same line or above
    it. -/
theorem Written.pairwise_line (h : Written opening text literals) :
    literals.Pairwise fun literal later => literal.lastLineNumber ≤ later.line := by
  induction h with
  | nil => exact .nil
  | @cons opening passed body rest delimiter literals hbody hrest ih =>
    refine .cons ?_ ih
    intro later hlater
    have hbound := (hrest.line_bounds hlater).1
    simp only [Opening.past_line, Delimiter.enclose, List.count_append] at hbound
    simp only [Literal.lastLineNumber, Opening.literal, Opening.past_line, String.toList_ofList]
    omega

end Search

namespace Source

/-- The literals of a source are written in its text. -/
theorem written_literals (text : String) :
    Written ⟨1, []⟩ (ofText text).text (ofText text).literals := by
  rw [literals_ofText, search_plainEnds]
  exact written_search List.not_mem_nil _

/-- The literals of a source begin and end on lines of the source. -/
theorem literal_line_bounds {text : String} {literal : Literal}
    (h : literal ∈ (ofText text).literals) :
    1 ≤ literal.line ∧ literal.lastLineNumber ≤ (ofText text).size := by
  obtain ⟨hfirst, hlast⟩ := (written_literals text).line_bounds h
  have hne : (ofText text).text ≠ [] := by
    obtain ⟨passed, body, rest, htext, -, -⟩ := (written_literals text).of_mem h
    obtain ⟨tail, hquote⟩ := literal.delimiter.enclose_eq_cons body
    simp [htext, hquote]
  have hcount := count_text_lt_size hne
  refine ⟨hfirst, ?_⟩
  calc literal.lastLineNumber
      ≤ 1 + (ofText text).text.count '\n' := hlast
    _ ≤ (ofText text).size := by omega

/-- The line of a literal holds a quote that its mark is from. -/
theorem literal_on_line {text : String} {literal : Literal}
    (h : literal ∈ (ofText text).literals) :
    ∃ line before after, (ofText text).line? literal.line = some line
      ∧ line.text.toList = before ++ '"' :: after
      ∧ literal.mark = .ofPreceding before.getLast? := by
  obtain ⟨passed, body, rest, htext, -, hliteral⟩ := (written_literals text).of_mem h
  obtain ⟨tail, hquote⟩ := literal.delimiter.enclose_eq_cons body
  rw [hquote, List.cons_append] at htext
  obtain ⟨line, after, hline, htoList⟩ := line?_of_text_eq (by decide) htext
  have hnumber : literal.line = 1 + passed.count '\n' := congrArg Literal.line hliteral
  have hmark : literal.mark = .ofPreceding (lastLine passed).getLast? := by
    rw [congrArg Literal.mark hliteral, lastLine, List.getLast?_reverse]
    simp only [Opening.literal, Opening.mark, Opening.past, List.append_nil]
  exact ⟨line, lastLine passed, after, hnumber ▸ hline, htoList, hmark⟩

/-- No literal claims a line that the source does not have. -/
theorem contains_line_of_mem {text : String} {literal : Literal}
    (h : literal ∈ (ofText text).literals) : (ofText text).contains literal.line = true := by
  obtain ⟨hfirst, hlast⟩ := literal_line_bounds h
  have hsize : literal.line ≤ (ofText text).size := Nat.le_trans (Nat.le_add_right _ _) hlast
  simp [contains, hfirst, hsize]

/-- Nothing stops a check of a text, whatever its log is. -/
theorem checkWith_eq {σ : Type} (emit : σ → Event → σ) (log : σ) (text : String) :
    let source := ofText text
    source.checkWith emit log
      = (.ok source.findings,
          (source.events ++ [Event.finished source.size source.literals.length
            source.findings.length]).foldl emit log) := by
  intro source
  -- No literals and no findings come before the scan.
  have hcheck : source.checkWith emit log
      = (.ok ([] ++ source.findings),
          (source.events ++ [Event.finished source.size (0 + source.literals.length)
            (0 + source.findings.length)]).foldl emit log) :=
    checkFrom_eq fun _ => contains_line_of_mem
  rwa [List.nil_append, Nat.zero_add, Nat.zero_add] at hcheck

/-- A check of a text has all of its findings and collects all of its
    events. -/
theorem check_eq (text : String) :
    let source := ofText text
    source.check
      = ⟨.ok source.findings, source.events
          ++ [.finished source.size source.literals.length source.findings.length]⟩ := by
  intro source
  rw [check, checkWith_eq]
  simp [source]

/-- Every check succeeds, with one finding for each literal that gives rise to
    one. -/
theorem outcome_check (text : String) :
    (ofText text).check.outcome = .ok ((ofText text).literals.filterMap Literal.finding?) :=
  congrArg Check.outcome (check_eq text)

end Source

/-! ### Lines of Findings -/

/-- A finding has the line and the mark of its literal. -/
theorem Literal.line_of_finding? {literal : Literal} {finding : Finding}
    (h : literal.finding? = some finding) :
    finding.line = literal.line ∧ finding.mark = literal.mark := by
  unfold Literal.finding? at h
  split at h
  · obtain rfl := Option.some.inj h
    exact ⟨rfl, rfl⟩
  · obtain rfl := Option.some.inj h
    exact ⟨rfl, rfl⟩
  · cases h
  · cases h

/-- The text before a quote ends in the letter of a mark. For a mark without a
    letter, it does not end in one. -/
def Mark.Ends (mark : Mark) (before : List Char) : Prop :=
  match mark.letter? with
  | some c => before.getLast? = some c
  | none => before = [] ∨ ∃ c, before.getLast? = some c ∧ isAlphabetic c = false

/-- The mark that is read off a text is one that the text ends in. -/
theorem Mark.ends_ofPreceding (before : List Char) : (ofPreceding before.getLast?).Ends before := by
  rw [Ends, letter?_ofPreceding]
  cases hlast : before.getLast? with
  | none => exact .inl (List.getLast?_eq_none_iff.1 hlast)
  | some c =>
    rw [Option.filter_some]
    by_cases hc : isAlphabetic c = true
    · rw [if_pos hc]
    · rw [if_neg hc]
      exact .inr ⟨c, rfl, Bool.eq_false_iff.2 hc⟩

namespace Source

/-- The lines of findings do not go down. -/
theorem pairwise_line_findings (text : String) :
    (ofText text).findings.Pairwise fun finding later => finding.line ≤ later.line := by
  refine List.Pairwise.filterMap _ ?_ (written_literals text).pairwise_line
  intro literal later hends finding hfinding next hnext
  rw [(Literal.line_of_finding? hfinding).1, (Literal.line_of_finding? hnext).1]
  exact Nat.le_trans (Nat.le_add_right _ _) hends

/-- **A check succeeds, and its findings are where they say they are.** -/
theorem check_ofText (text : String) :
    (ofText text).check.outcome = .ok ((ofText text).literals.filterMap Literal.finding?)
      ∧ (∀ literal ∈ (ofText text).literals,
          1 ≤ literal.line ∧ literal.lastLineNumber ≤ (ofText text).size)
      ∧ ((ofText text).literals.Pairwise fun literal later =>
          literal.lastLineNumber ≤ later.line)
      ∧ ((ofText text).findings.Pairwise fun finding later => finding.line ≤ later.line)
      ∧ ∀ finding ∈ (ofText text).findings,
          ∃ line before after, (ofText text).line? finding.line = some line
            ∧ line.text.toList = before ++ '"' :: after
            ∧ finding.mark.Ends before := by
  refine ⟨outcome_check text, fun _ => literal_line_bounds,
    (written_literals text).pairwise_line, pairwise_line_findings text, ?_⟩
  intro finding hmem
  obtain ⟨literal, hliteral, hfinding⟩ := List.mem_filterMap.1 hmem
  obtain ⟨hline, hmark⟩ := Literal.line_of_finding? hfinding
  obtain ⟨line, before, after, hnumber, htoList, hpreceding⟩ := literal_on_line hliteral
  refine ⟨line, before, after, hline ▸ hnumber, htoList, ?_⟩
  rw [hmark, hpreceding]
  exact Mark.ends_ofPreceding before

/-- The second finding of a text is on its third line, as the first literal
    takes up two. -/
theorem check_ofText_two_findings :
    let text := "val a = \"\"\"$x\r\n\"\"\"\nprint(s\"hi\")"
    let literal : Literal := ⟨"hi", .s, 3, .single⟩
    let finding : Finding := ⟨.unneededMark, "hi", .s, 3⟩
    literal ∈ (ofText text).literals
      ∧ finding ∈ (ofText text).findings
      ∧ (1 ≤ literal.line ∧ literal.lastLineNumber ≤ (ofText text).size)
      ∧ ∃ line before after, (ofText text).line? finding.line = some line
        ∧ line.text.toList = before ++ '"' :: after
        ∧ finding.mark.Ends before := by
  intro text literal finding
  have hliteral : literal ∈ (ofText text).literals := by decide +kernel
  have hfinding : finding ∈ (ofText text).findings := by decide +kernel
  obtain ⟨-, hbounds, -, -, hquote⟩ := check_ofText text
  exact ⟨hliteral, hfinding, hbounds literal hliteral, hquote finding hfinding⟩

end Source

end LiteralLint
