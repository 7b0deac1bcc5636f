import LiteralLint.Proofs.Blur
import LiteralLint.Proofs.LineNumbers

/-! # Interpolation Line by Line

  A content that suggests a substitution has a line that does. Nothing is
  missed where lines are joined, and nothing appears there, because a line
  feed begins no reference.

  The key ideas:

  - A dollar sign and the character after it are together in a part of the
    text, or the cut is between them (`looksInterpolated_append`).
  - The lines of a literal's content are what its delimiters enclose on the
    lines of the source (`Source.carries_of_mem`). They follow from the place
    of the literal in the text, as each place tells its line
    (`getElem?_of_intercalate_cut`).
-/

namespace LiteralLint

open Scan Search

/-! ### References in Two Texts -/

/-- What begins a reference, character by character. -/
theorem beginsReference_iff {c : Char} :
    beginsReference c = true
      ↔ ('a' ≤ c ∧ c ≤ 'z') ∨ ('A' ≤ c ∧ c ≤ 'Z') ∨ c = '_' ∨ c = '{' := by
  have hupper : c.isUpper = true ↔ 'A' ≤ c ∧ c ≤ 'Z' := decide_eq_true_iff
  have hlower : c.isLower = true ↔ 'a' ≤ c ∧ c ≤ 'z' :=
    Bool.and_eq_true_iff.trans (and_congr decide_eq_true_iff decide_eq_true_iff)
  have hletter : c.isAlpha = true ↔ ('a' ≤ c ∧ c ≤ 'z') ∨ ('A' ≤ c ∧ c ≤ 'Z') := by
    rw [← hupper, ← hlower, or_comm]
    exact Bool.or_eq_true_iff
  simp only [beginsReference, Bool.or_eq_true, decide_eq_true_eq, hletter, or_assoc]

/-- A reference in two texts is in one of them, or its dollar sign ends the
    first and it begins the second. -/
theorem holdsReference_append (upper lower : List Char) :
    holdsReference (upper ++ lower)
      = (holdsReference upper || holdsReference lower
          || (upper.getLast? = some '$' && lower.head?.any beginsReference)) := by
  induction upper with
  | nil => simp [holdsReference]
  | cons c upper ih =>
    rw [List.cons_append, holdsReference_cons, holdsReference_cons, ih]
    cases upper with
    | nil =>
      -- The first text is only the character before the cut.
      by_cases hc : c = '$' <;> simp [hc, holdsReference, Bool.or_comm]
    | cons d upper =>
      rw [List.cons_append, List.head?_cons, List.head?_cons, List.getLast?_cons_cons,
        Bool.or_assoc, Bool.or_assoc, Bool.or_assoc]

theorem looksInterpolated_append (upper lower : String) :
    looksInterpolated (upper ++ lower) = true
      ↔ looksInterpolated upper = true ∨ looksInterpolated lower = true
        ∨ upper.toList.getLast? = some '$'
          ∧ ∃ c, lower.toList.head? = some c ∧ beginsReference c = true := by
  show holdsReference (upper ++ lower).toList = true ↔ holdsReference upper.toList = true
    ∨ holdsReference lower.toList = true ∨ _
  rw [String.toList_append, holdsReference_append]
  simp only [Bool.or_eq_true, Bool.and_eq_true, decide_eq_true_eq, Option.any_eq_true, or_assoc]

/-- A line feed is neither a dollar sign nor the beginning of a reference, so
    no reference is across it. -/
theorem looksInterpolated_append_feed (upper lower : String) :
    looksInterpolated (upper ++ "\n" ++ lower) = true
      ↔ looksInterpolated upper = true ∨ looksInterpolated lower = true := by
  rw [looksInterpolated_append, looksInterpolated_append]
  have hnone : looksInterpolated "\n" = false := by decide
  have hbegin : beginsReference '\n' = false := by decide
  simp [hnone, hbegin]

/-- Lines that are joined suggest a substitution when one of them does. -/
theorem looksInterpolated_intercalate {lines : List String} (hne : lines ≠ []) :
    looksInterpolated ("\n".intercalate lines) = true
      ↔ ∃ line ∈ lines, looksInterpolated line = true := by
  induction lines with
  | nil => exact absurd rfl hne
  | cons line lines ih =>
    cases lines with
    | nil => simp
    | cons next lines =>
      rw [String.intercalate_cons_cons, looksInterpolated_append_feed, ih (List.cons_ne_nil _ _)]
      simp only [List.mem_cons, exists_eq_or_imp]

/-! ### The Lines of a Content -/

/-- The lines of the content of a literal. -/
def Literal.contentLines (literal : Literal) : List String :=
  (literal.content.toList.splitOn '\n').map String.ofList

theorem Literal.contentLines_ne_nil (literal : Literal) : literal.contentLines ≠ [] := by
  simp [contentLines]

/-- The lines of a content make it up. -/
theorem Literal.intercalate_contentLines (literal : Literal) :
    "\n".intercalate literal.contentLines = literal.content := by
  apply String.toList_injective
  rw [String.toList_intercalate, contentLines, List.map_map]
  have hchars : String.toList ∘ String.ofList = id := funext fun _ => String.toList_ofList
  rw [hchars, List.map_id]
  exact List.intercalate_splitOn '\n'

/-- A text is split at every line feed. -/
theorem notMem_splitOn {text : List Char} : ∀ line ∈ text.splitOn '\n', '\n' ∉ line := by
  induction text with
  | nil => simp
  | cons c text ih =>
    rw [List.splitOn_cons_eq_if_modifyHead]
    split
    · simpa using ih
    · next hc =>
      obtain ⟨first, others, hsplit⟩ :=
        List.exists_cons_of_ne_nil (List.splitOn_ne_nil '\n' text)
      rw [hsplit] at ih ⊢
      obtain ⟨hfirst, hothers⟩ := List.forall_mem_cons.1 ih
      rw [List.modifyHead_cons, List.forall_mem_cons]
      refine ⟨?_, hothers⟩
      rw [List.mem_cons, not_or]
      exact ⟨fun heq => hc (beq_iff_eq.2 heq.symm), hfirst⟩

/-! ### Lines around a Cut -/

theorem lastLine_append_of_notMem (passed : List Char) {line : List Char} (hline : '\n' ∉ line) :
    lastLine (passed ++ line) = lastLine passed ++ line := by
  have hreverse : '\n' ∉ line.reverse := by
    intro hin
    exact hline (List.mem_reverse.1 hin)
  rw [lastLine, List.reverse_append, takeWhile_append_of_notMem hreverse, List.reverse_append,
    List.reverse_reverse]
  rfl

/-- Each line of a part of the text is on a line of the text, as far as the
    part goes. -/
theorem getElem?_of_intercalate_part {lines part : List (List Char)} (hne : lines ≠ [])
    (hlines : ∀ line ∈ lines, '\n' ∉ line) (hpart : ∀ line ∈ part, '\n' ∉ line)
    {passed rest : List Char}
    (h : ['\n'].intercalate lines = passed ++ (['\n'].intercalate part ++ rest))
    {i : Nat} {line : List Char} (hline : part[i]? = some line) :
    lines[passed.count '\n' + i]?
      = some ((if i = 0 then lastLine passed else []) ++ line
          ++ if i + 1 = part.length then rest.takeWhile (· ≠ '\n') else []) := by
  induction part generalizing passed i with
  | nil => cases hline
  | cons first part ih =>
    obtain ⟨hfirst, hpart⟩ := List.forall_mem_cons.1 hpart
    have hcut := getElem?_of_intercalate_cut hne hlines h
    cases i with
    | zero =>
      obtain rfl := Option.some.inj hline
      cases part with
      | nil =>
        rw [List.intercalate_singleton, takeWhile_append_of_notMem hfirst] at hcut
        simpa using hcut
      | cons next part =>
        rw [List.intercalate_cons_cons, List.append_assoc, List.append_assoc,
          takeWhile_append_of_notMem hfirst] at hcut
        simpa using hcut
    | succ i =>
      cases part with
      | nil => cases hline
      | cons next part =>
        -- The line feed after the first line is passed as well.
        have hbelow : ['\n'].intercalate lines
            = (passed ++ (first ++ ['\n'])) ++ (['\n'].intercalate (next :: part) ++ rest) := by
          rw [h, List.intercalate_cons_cons]
          simp only [List.append_assoc]
        have hrest := ih hpart hbelow hline
        have hlast : lastLine (passed ++ (first ++ ['\n'])) = [] := by
          rw [← List.append_assoc, lastLine_append_feed]
          rfl
        have hcount : (passed ++ (first ++ ['\n'])).count '\n' = passed.count '\n' + 1 := by
          simp [List.count_eq_zero_of_not_mem hfirst]
        rw [hcount, hlast, Nat.add_assoc, Nat.add_comm 1 i] at hrest
        simpa using hrest

/-! ### Literals on the Lines of a Source -/

/-- Delimiters are on one line. -/
theorem Delimiter.notMem_quotes (delimiter : Delimiter) : '\n' ∉ delimiter.quotes := by
  cases delimiter <;> decide

theorem Delimiter.quotes_ne_nil (delimiter : Delimiter) : delimiter.quotes ≠ [] := by
  cases delimiter <;> decide

namespace Source

/-- The lines of the content of a literal are on the lines of the source, one
    below the other. On the first one, the opening delimiter is before it, and
    on the last one, the closing delimiter is after it. Between them, they are
    whole lines of the source. -/
def Carries (source : Source) (literal : Literal) : Prop :=
  ∀ i text, literal.contentLines[i]? = some text →
    ∃ line before after, source.line? (literal.line + i) = some line
      ∧ line.text.toList = before ++ text.toList ++ after
      ∧ (if i = 0 then literal.delimiter.quotes <:+ before else before = [])
      ∧ (if i + 1 = literal.contentLines.length then literal.delimiter.quotes <+: after
          else after = [])

/-- Where a literal of a text is written: its lines are between its quotes, and
    its number counts the line feeds before it. -/
theorem exists_cut_of_mem {text : String} {literal : Literal}
    (h : literal ∈ (ofText text).literals) :
    ∃ passed rest, literal.line = 1 + passed.count '\n'
      ∧ (ofText text).text = (passed ++ literal.delimiter.quotes)
        ++ (['\n'].intercalate (literal.content.toList.splitOn '\n')
          ++ (literal.delimiter.quotes ++ rest)) := by
  obtain ⟨passed, body, rest, htext, -, hliteral⟩ := (written_literals text).of_mem h
  have hcontent : literal.content.toList = body := by
    rw [hliteral, Opening.literal, String.toList_ofList]
  refine ⟨passed, rest, congrArg Literal.line hliteral, ?_⟩
  rw [htext, hcontent, List.intercalate_splitOn, Delimiter.enclose]
  simp only [List.append_assoc]

/-- A source carries the literals that it has. -/
theorem carries_of_mem {text : String} {literal : Literal}
    (h : literal ∈ (ofText text).literals) : (ofText text).Carries literal := by
  obtain ⟨passed, rest, hnumber, hcut⟩ := exists_cut_of_mem h
  intro i part hpart
  have hquotes := literal.delimiter.notMem_quotes
  have hcount : (passed ++ literal.delimiter.quotes).count '\n' = passed.count '\n' := by
    simp [List.count_eq_zero_of_not_mem hquotes]
  have hne : (ofText text).text ≠ [] := by simp [hcut, literal.delimiter.quotes_ne_nil]
  rw [Literal.contentLines, List.getElem?_map, Option.map_eq_some_iff] at hpart
  obtain ⟨chars, hchars, rfl⟩ := hpart
  have hline := getElem?_of_intercalate_part (map_lines_ne_nil hne) (notMem_toList_lines text)
    notMem_splitOn hcut hchars
  obtain ⟨line, hlookup, htoList⟩ := line?_of_getElem? hline
  rw [hcount, ← Nat.add_assoc, ← hnumber] at hlookup
  refine ⟨line, _, _, hlookup, htoList.trans (by rw [String.toList_ofList]), ?_, ?_⟩
  · split
    · rw [lastLine_append_of_notMem _ hquotes]
      exact List.suffix_append _ _
    · rfl
  · rw [Literal.contentLines, List.length_map]
    split
    · rw [takeWhile_append_of_notMem hquotes]
      exact List.prefix_append _ _
    · rfl

end Source

/-- **Whether a content suggests a substitution is decided line by line.** Of
    two texts, one does, or the cut between them is right after a dollar sign
    and before the beginning of a reference. Of lines joined by line feeds, one
    does; these are also the lines of a literal that is written over several
    lines of a source. A dollar sign at the end of a line has no part in what
    the next line begins with. -/
theorem looksInterpolated_line_by_line :
    (∀ upper lower : String, looksInterpolated (upper ++ lower) = true
        ↔ looksInterpolated upper = true ∨ looksInterpolated lower = true
          ∨ upper.toList.getLast? = some '$'
            ∧ ∃ c, lower.toList.head? = some c
              ∧ (('a' ≤ c ∧ c ≤ 'z') ∨ ('A' ≤ c ∧ c ≤ 'Z') ∨ c = '_' ∨ c = '{'))
      ∧ (∀ lines : List String, lines ≠ [] →
          (looksInterpolated ("\n".intercalate lines) = true
            ↔ ∃ line ∈ lines, looksInterpolated line = true))
      ∧ (∀ text, ∀ literal ∈ (Source.ofText text).literals,
          (Source.ofText text).Carries literal
            ∧ (looksInterpolated literal.content = true
              ↔ ∃ line ∈ literal.contentLines, looksInterpolated line = true))
      ∧ ∀ upper lower : String, looksInterpolated (upper ++ "\n" ++ lower) = true
        ↔ looksInterpolated upper = true ∨ looksInterpolated lower = true := by
  refine ⟨fun upper lower => ?_, fun lines => looksInterpolated_intercalate,
    fun text literal hmem => ⟨Source.carries_of_mem hmem, ?_⟩, looksInterpolated_append_feed⟩
  · simp only [looksInterpolated_append, beginsReference_iff]
  · rw [← looksInterpolated_intercalate literal.contentLines_ne_nil,
      literal.intercalate_contentLines]

/-- The dollar sign at the end of the first line and the name at the beginning
    of the second make a reference only where nothing is between them. -/
theorem looksInterpolated_line_by_line_seam :
    let text := "val t = \"\"\"cost $\r\nname $5\"\"\""
    let literal : Literal := ⟨"cost $\nname $5", .bare, 1, .triple⟩
    let lines := ["cost $", "name $5"]
    literal ∈ (Source.ofText text).literals ∧ (Source.ofText text).Carries literal
      ∧ lines ≠ [] ∧ literal.contentLines = lines
      ∧ looksInterpolated ("\n".intercalate lines) = false
      ∧ looksInterpolated literal.content = false
      ∧ looksInterpolated ("cost $" ++ "name $5") = true := by
  intro text literal lines
  obtain ⟨happend, hlines, hliterals, -⟩ := looksInterpolated_line_by_line
  have hmem : literal ∈ (Source.ofText text).literals := by decide +kernel
  have hne : lines ≠ [] := List.cons_ne_nil _ _
  have hsplit : literal.contentLines = lines := by decide +kernel
  have hnone : ¬ ∃ line ∈ lines, looksInterpolated line = true := by decide +kernel
  obtain ⟨hcarries, hcontent⟩ := hliterals text literal hmem
  refine ⟨hmem, hcarries, hne, hsplit, ?_, ?_, ?_⟩
  · exact Bool.eq_false_iff.2 fun h => hnone ((hlines lines hne).1 h)
  · exact Bool.eq_false_iff.2 fun h => hnone (hsplit ▸ hcontent.1 h)
  · exact (happend _ _).2 (.inr (.inr ⟨by decide, 'n', by decide, by decide⟩))

end LiteralLint
