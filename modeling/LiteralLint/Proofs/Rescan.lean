import LiteralLint.Proofs.Document

/-! # Literals Scanned Again

  A literal that a scan finds is well formed, and it is found again when it is
  written by itself: its mark, and its content between its delimiters.

  It is found again with the same content, except for one thing. A source has
  its line ends made plain, and a triple literal can hold a line end that was
  made plain once and can be so again: its text had two carriage returns
  before a line feed.
-/

namespace LiteralLint

open Scan Search

namespace Literal

/-- The text of a literal that stands by itself. -/
def written (literal : Literal) : String :=
  literal.mark.text
    ++ String.ofList (literal.delimiter.enclose literal.content.toList)

/-- A literal as the only one of its text. -/
def alone (literal : Literal) : Literal :=
  { literal with
    content := String.ofList (plainEnds literal.content.toList)
    line := 1 }

end Literal

namespace Mark

/-- A character that is not alphabetic is not the letter of a mark. -/
theorem notMem_letter? {c : Char} (hc : isAlphabetic c = false) (preceding : Option Char) :
    c ∉ (ofPreceding preceding).letter?.toList := by
  intro hmem
  have halphabetic := isAlphabetic_letter (Option.mem_toList.1 hmem)
  rw [hc] at halphabetic
  cases halphabetic

/-- The letter of a mark, written before a quote, is read as that mark. -/
theorem ofPreceding_letter? (preceding : Option Char) :
    ofPreceding ((ofPreceding preceding).letter?.filter (· ≠ '\n')) = ofPreceding preceding := by
  have hkeep : (ofPreceding preceding).letter?.filter (· ≠ '\n')
      = (ofPreceding preceding).letter? := by
    have hfeed := @notMem_letter? '\n' (by decide +kernel) preceding
    cases hletter : (ofPreceding preceding).letter? with
    | none => rfl
    | some c =>
      rw [hletter] at hfeed
      have hc : c ≠ '\n' := fun heq => hfeed (by simp [heq])
      rw [Option.filter_some, if_pos (by simpa using hc)]
  rw [hkeep, letter?_ofPreceding, ofPreceding_filter]

/-- The letter of a mark as the text before a literal. -/
def gap (preceding : Option Char) : Gap where
  text := (ofPreceding preceding).letter?.toList
  noQuotes := notMem_letter? (by decide +kernel) preceding

theorem getLast?_gap (preceding : Option Char) :
    (gap preceding).text.getLast? = (ofPreceding preceding).letter? := by
  show (ofPreceding preceding).letter?.toList.getLast? = _
  cases (ofPreceding preceding).letter? <;> rfl

end Mark

namespace Literal

variable {literal : Literal}

/-- A literal whose mark can be read and whose delimiter can hold its content
    is found when it stands by itself. -/
theorem literals_written_of_holds {preceding : Option Char}
    (hmark : literal.mark = .ofPreceding preceding)
    (hholds : literal.delimiter.Holds literal.content.toList) :
    (Source.ofText literal.written).literals = [literal.alone] := by
  have hfound := (Document.single (Mark.gap preceding)
    ⟨_, _, Delimiter.fits_iff.2 hholds⟩).search_text
  have hfeed : (Mark.gap preceding).text.count '\n' = 0 :=
    List.count_eq_zero_of_not_mem (Mark.notMem_letter? (by decide +kernel) preceding)
  have halone : Quoted.literalAfter ⟨_, _, Delimiter.fits_iff.2 hholds⟩ (Mark.gap preceding).text
      = literal.alone := by
    rw [Quoted.literalAfter, Quoted.content_eq, hfeed, Mark.getLast?_gap,
      Mark.ofPreceding_letter?, ← hmark]
    rfl
  rw [Document.text_single, Document.literals_single, halone] at hfound
  rw [Source.literals_ofText, ← hfound, written, hmark]
  simp [Mark.text, Mark.gap, Quoted.text]

end Literal

/-- **A literal that a scan finds is well formed, and a scan finds it again**
    when it stands by itself. Its content is then the same, unless two carriage
    returns stood before a line feed of the text. -/
theorem Source.literals_written {text : String} {literal : Literal}
    (h : literal ∈ (ofText text).literals) :
    literal.delimiter.Holds literal.content.toList
      ∧ (ofText literal.written).literals = [literal.alone]
      ∧ (¬ ['\r', '\r', '\n'] <:+: text.toList → literal.alone.content = literal.content) := by
  rw [literals_ofText] at h
  obtain ⟨passed, body, rest, htext, hbody, hliteral⟩ :=
    (written_search List.not_mem_nil _).of_mem h
  have hcontent : literal.content.toList = body := by
    rw [hliteral, Opening.literal, String.toList_ofList]
  have hmark : literal.mark = .ofPreceding (Opening.past ⟨1, []⟩ passed).before.head? := by
    rw [hliteral]
    rfl
  rw [← hcontent] at hbody
  refine ⟨hbody, Literal.literals_written_of_holds hmark hbody, fun hsingle => ?_⟩
  -- The content is part of a text whose line ends were made plain once.
  have hkeep : ¬ ['\r', '\n'] <:+: body := by
    intro hin
    apply hsingle
    apply doubled_of_infix_plainEnds
    rw [htext]
    exact hin.trans ⟨passed ++ literal.delimiter.quotes, literal.delimiter.quotes ++ rest, by
      simp [Delimiter.enclose]⟩
  rw [Literal.alone, hcontent, plainEnds_eq_self hkeep, ← hcontent, String.ofList_toList]

/-- A literal over two lines, which holds a quote, is found again. -/
theorem Source.literals_written_two_lines :
    let literal : Literal := ⟨"a\n\"b", .s, 2, .triple⟩
    literal ∈ (ofText "\r\ns\"\"\"a\r\n\"b\"\"\"").literals
      ∧ ¬ ['\r', '\r', '\n'] <:+: "\r\ns\"\"\"a\r\n\"b\"\"\"".toList
      ∧ literal.delimiter.Holds literal.content.toList
      ∧ (ofText literal.written).literals = [literal.alone]
      ∧ literal.alone.content = literal.content := by
  intro literal
  have hmem : literal ∈ (ofText "\r\ns\"\"\"a\r\n\"b\"\"\"").literals := by decide +kernel
  have hsingle : ¬ ['\r', '\r', '\n'] <:+: "\r\ns\"\"\"a\r\n\"b\"\"\"".toList := by
    decide +kernel
  obtain ⟨hholds, hfound, hcontent⟩ := literals_written hmem
  exact ⟨hmem, hsingle, hholds, hfound, hcontent hsingle⟩

/-- Of three line end characters in a row, a text loses one, and the text of
    the literal found in it loses another. -/
example :
    (Source.ofText "\"\"\"\r\r\n\"\"\"").literals = [⟨"\r\n", .bare, 1, .triple⟩]
      ∧ (Literal.mk "\r\n" .bare 1 .triple).alone.content = "\n" := by
  decide +kernel

end LiteralLint
