import LiteralLint.Proofs.ScanSearch
import LiteralLint.Proofs.Written
import Mathlib.Data.List.Chain
import Mathlib.Data.List.Infix

/-! # Documents

  A document is a text that is put together: any number of literals, with text
  that holds no quotes before, between, and after them. A scan of its text
  takes it apart again.

  The key ideas:

  - What a delimiter can hold is said here by reading it from left to right,
    a backslash together with the character after it. `heldBySingle_iff`
    states that this is what counting the backslashes before each quote says.
  - A document is well formed by construction. The one thing that its parts do
    not already ensure is that two quotes which are an empty literal are not
    followed by a third one.
  - What a literal is found as depends on the text before it through its last
    character and the number of its line feeds, and on nothing else.
-/

namespace LiteralLint

open Scan Search

/-! ### Reading from Left to Right -/

/-- Whether a text can be read as characters and escapes, an escape being a
    backslash together with the character after it, so that no character read
    by itself is a quote. -/
def readsThrough : List Char → Bool
  | [] => true
  | ['\\'] => false
  | '\\' :: _ :: rest => readsThrough rest
  | c :: rest => c ≠ '"' && readsThrough rest

theorem readsThrough_escape (c : Char) (rest : List Char) :
    readsThrough ('\\' :: c :: rest) = readsThrough rest := rfl

theorem readsThrough_cons {c : Char} (hc : c ≠ '\\') (rest : List Char) :
    readsThrough (c :: rest) = (c ≠ '"' && readsThrough rest) := by
  rw [readsThrough]
  · exact fun heq _ => hc heq
  · exact fun _ _ heq _ => hc heq

/-- Where no backslash is left over, to read on is to count backslashes. -/
theorem heldAfter_iff {content : List Char} (heven : backslashRun content % 2 = 0)
    (body : List Char) :
    HeldAfter content body ↔ '\n' ∉ body ∧ readsThrough body = true := by
  match body with
  | [] => simp [heldAfter_nil, heven, readsThrough]
  | c :: rest =>
    by_cases hc : c = '\\'
    · subst hc
      have hodd : backslashRun ('\\' :: content) % 2 = 1 := by
        rw [backslashRun_cons, if_pos rfl]
        omega
      cases rest with
      | nil => simp [heldAfter_cons, heldAfter_nil, hodd, readsThrough]
      | cons d rest =>
        -- The escape leaves no backslash over, whatever character it ends with.
        have heven' : backslashRun (d :: '\\' :: content) % 2 = 0 := by
          rw [backslashRun_cons]
          split <;> omega
        rw [heldAfter_cons, heldAfter_cons, heldAfter_iff heven' rest, readsThrough_escape]
        simp [hodd, and_assoc, ne_comm]
    · have heven' : backslashRun (c :: content) % 2 = 0 := by
        rw [backslashRun_cons, if_neg hc]
      rw [heldAfter_cons, heldAfter_iff heven' rest, readsThrough_cons hc]
      simp [heven, and_left_comm, and_assoc, ne_comm]
termination_by body.length

/-- What a single literal can hold is what can be read through on one line. -/
theorem heldBySingle_iff (body : List Char) :
    HeldBySingle body ↔ '\n' ∉ body ∧ readsThrough body = true :=
  heldAfter_nil_iff.symm.trans (heldAfter_iff rfl body)

/-! ### Documents -/

/-- Text that holds no quotes. -/
structure Gap where
  text : List Char
  noQuotes : '"' ∉ text

/-- Whether a body can be written between delimiters. -/
def Delimiter.Fits : Delimiter → List Char → Prop
  | .single, body => '\n' ∉ body ∧ readsThrough body = true
  | .triple, body => HeldByTriple body

/-- The two ways to say what can be written between delimiters agree. -/
theorem Delimiter.fits_iff {delimiter : Delimiter} {body : List Char} :
    delimiter.Fits body ↔ delimiter.Holds body := by
  cases delimiter with
  | single => exact (heldBySingle_iff body).symm
  | triple => exact Iff.rfl

/-- A literal as it is written. -/
structure Quoted where
  delimiter : Delimiter
  /-- The text between the delimiters. -/
  body : List Char
  fits : delimiter.Fits body

namespace Quoted

/-- The text of a literal. -/
def text (quoted : Quoted) : List Char := quoted.delimiter.enclose quoted.body

/-- The content that a literal has. Only a triple literal can hold line ends. -/
def content (quoted : Quoted) : List Char :=
  match quoted.delimiter with
  | .single => quoted.body
  | .triple => plainEnds quoted.body

/-- The literal that this one is when the text `before` stands before it. -/
def literalAfter (quoted : Quoted) (before : List Char) : Literal where
  content := String.ofList quoted.content
  mark := .ofPreceding (before.getLast?.filter (· ≠ '\n'))
  line := 1 + before.count '\n'
  delimiter := quoted.delimiter

end Quoted

/-- A literal and the text up to the next one. -/
structure Part where
  /-- The literal. -/
  quoted : Quoted
  /-- The text after it. -/
  gap : Gap

namespace Part

/-- The text of a part. -/
def text (part : Part) : List Char := part.quoted.text ++ part.gap.text

/-- Whether a part can be taken for the beginning of a triple literal when a
    quote follows it. -/
def IsPair (part : Part) : Prop :=
  part.quoted.delimiter = .single ∧ part.quoted.body = [] ∧ part.gap.text = []

end Part

/-- Literals and the text around them. -/
structure Document where
  /-- The text before the first literal. -/
  lead : Gap
  /-- The literals, each with the text up to the next one. -/
  parts : List Part
  /-- No part but the last is two quotes only. -/
  apart : parts.IsChain fun part _ => ¬ part.IsPair

namespace Document

/-- The text of a document. -/
def text (document : Document) : List Char :=
  document.lead.text ++ document.parts.flatMap Part.text

/-- The literals of the parts when the text `before` stands before them. -/
def literalsAfter (before : List Char) : List Part → List Literal
  | [] => []
  | part :: parts =>
    part.quoted.literalAfter before :: literalsAfter (before ++ part.text) parts

/-- The literals of a document, in order. -/
def literals (document : Document) : List Literal :=
  literalsAfter document.lead.text document.parts

end Document

/-! ### What Literals Are Found As -/

/-- Where the literal opens that the text `before` stands before. -/
def openingAfter (before : List Char) : Opening := Opening.past ⟨1, []⟩ (plainEnds before)

theorem openingAfter_line (before : List Char) :
    (openingAfter before).line = 1 + before.count '\n' := by
  rw [openingAfter, Opening.past_line, count_plainEnds]

/-- The mark is that of the character before, unless a line ends there. -/
theorem openingAfter_mark (before : List Char) :
    (openingAfter before).mark = .ofPreceding (before.getLast?.filter (· ≠ '\n')) := by
  have hlast : (plainEnds before).reverse.head? = before.getLast? := by
    rw [← List.getLast?_eq_head?_reverse, getLast?_plainEnds]
  rw [Opening.mark, openingAfter, Opening.past, List.head?_takeWhile, List.append_nil, hlast]

/-- Quotes are no part of a line end. -/
theorem plainEnds_append_quotes (xs : List Char) (delimiter : Delimiter) (ys : List Char) :
    plainEnds (xs ++ (delimiter.quotes ++ ys))
      = plainEnds xs ++ (delimiter.quotes ++ plainEnds ys) := by
  have hquote : ('"' : Char) ≠ '\r' := by decide
  cases delimiter <;>
    simp [Delimiter.quotes, plainEnds_append_cons, plainEnds_cons hquote]

/-- Line ends are made plain within delimiters and around them. -/
theorem plainEnds_append_enclose (xs : List Char) (delimiter : Delimiter) (body ys : List Char) :
    plainEnds (xs ++ (delimiter.enclose body ++ ys))
      = plainEnds xs ++ (delimiter.enclose (plainEnds body) ++ plainEnds ys) := by
  have hopen := plainEnds_append_quotes xs delimiter (body ++ (delimiter.quotes ++ ys))
  rw [plainEnds_append_quotes body] at hopen
  simpa [Delimiter.enclose] using hopen

/-- What is further on after a text is after more text. -/
theorem openingAfter_past {before passed : List Char}
    (hcut : before.getLast? ≠ some '\r' ∨ passed.head? ≠ some '\n') :
    (openingAfter before).past (plainEnds passed) = openingAfter (before ++ passed) := by
  rw [openingAfter, Opening.past_past, openingAfter, plainEnds_append hcut]

namespace Quoted

variable (quoted : Quoted)

/-- The content is the body with plain line ends, whatever the delimiter. -/
theorem content_eq : quoted.content = plainEnds quoted.body := by
  obtain ⟨delimiter, body, hfits⟩ := quoted
  cases delimiter with
  | single => exact (plainEnds_of_notMem hfits.1).symm
  | triple => rfl

/-- The delimiter of a literal can hold its content. -/
theorem holds_content : quoted.delimiter.Holds quoted.content := by
  rw [content_eq]
  exact (Delimiter.fits_iff.1 quoted.fits).plainEnds

theorem literalAfter_eq (before : List Char) :
    quoted.literalAfter before
      = (openingAfter before).literal quoted.delimiter quoted.content := by
  rw [Opening.literal, openingAfter_line, openingAfter_mark]
  rfl

end Quoted

/-! ### Taking a Document Apart -/

/-- Parts do not begin within a line end. -/
theorem Part.head?_flatMap_text (parts : List Part) :
    (parts.flatMap Part.text).head? ≠ some '\n' := by
  cases parts with
  | nil => simp
  | cons part parts =>
    obtain ⟨⟨delimiter, body, _⟩, gap⟩ := part
    cases delimiter <;> simp [Part.text, Quoted.text, Delimiter.enclose, Delimiter.quotes]

/-- A gap whose line ends are made plain still holds no quotes. -/
theorem Gap.noQuotes_plainEnds (gap : Gap) : '"' ∉ plainEnds gap.text := by
  intro hmem
  have hin := infix_of_infix_plainEnds (by decide) ((List.singleton_infix_iff _ _).2 hmem)
  exact gap.noQuotes ((List.singleton_infix_iff _ _).1 hin)

/-- Two quotes are not followed by a third one, unless the parts are over. -/
theorem Part.head?_gap {part : Part} {parts : List Part}
    (hapart : (part :: parts).IsChain fun part _ => ¬ part.IsPair)
    (hsingle : part.quoted.delimiter = .single) (hbody : part.quoted.body = []) :
    (plainEnds (part.gap.text ++ parts.flatMap Part.text)).head? ≠ some '"' := by
  intro hhead
  have hquote : ['"'] <+: part.gap.text ++ parts.flatMap Part.text :=
    prefix_of_prefix_plainEnds (by decide) (List.singleton_prefix_iff_head?_eq_some.2 hhead)
  -- The quote cannot be in the gap, so there is none, and another part begins with it.
  cases hgap : part.gap.text with
  | cons c gap =>
    rw [hgap, List.cons_append] at hquote
    obtain ⟨rfl, -⟩ := List.cons_prefix_cons.1 hquote
    exact part.gap.noQuotes (hgap ▸ List.mem_cons_self)
  | nil =>
    cases parts with
    | nil => simp [hgap] at hquote
    | cons next parts => exact (List.isChain_cons_cons.1 hapart).1 ⟨hsingle, hbody, hgap⟩

/-- What comes after a part comes after its literal and its gap. -/
theorem Part.openingAfter_text (part : Part) (before : List Char) :
    ((openingAfter before).past (part.quoted.delimiter.enclose part.quoted.content)).past
        (plainEnds part.gap.text)
      = openingAfter (before ++ part.text) := by
  have htext : plainEnds part.text
      = part.quoted.delimiter.enclose part.quoted.content ++ plainEnds part.gap.text := by
    rw [Quoted.content_eq]
    exact plainEnds_append_enclose [] _ _ _
  have hquote : part.text.head? ≠ some '\n' := by
    simpa using Part.head?_flatMap_text [part]
  rw [Opening.past_past, ← htext, openingAfter_past (.inr hquote)]

/-- A search of the text of parts finds their literals. -/
theorem search_parts (before : List Char) {parts : List Part}
    (hapart : parts.IsChain fun part _ => ¬ part.IsPair) :
    search ⟨openingAfter before, plainEnds (parts.flatMap Part.text)⟩
      = Document.literalsAfter before parts := by
  -- What stands before the parts is arbitrary, as it grows along the document.
  induction parts generalizing before with
  | nil => exact search_nil
  | cons part parts ih =>
    have htext : plainEnds ((part :: parts).flatMap Part.text)
        = part.quoted.delimiter.enclose part.quoted.content
          ++ plainEnds (part.gap.text ++ parts.flatMap Part.text) := by
      rw [Quoted.content_eq, List.flatMap_cons, Part.text, List.append_assoc]
      exact plainEnds_append_enclose [] _ _ _
    have hsplit : part.quoted.delimiter = .single → part.quoted.content = [] →
        (plainEnds (part.gap.text ++ parts.flatMap Part.text)).head? ≠ some '"' := by
      intro hsingle hcontent
      exact Part.head?_gap hapart hsingle (by simpa [Quoted.content, hsingle] using hcontent)
    -- The literal is found first, then its gap is passed, and the rest is the hypothesis.
    rw [htext, search_enclose part.quoted.holds_content hsplit,
      plainEnds_append (.inr (Part.head?_flatMap_text parts)),
      search_gap part.gap.noQuotes_plainEnds (Opening.notMem_before_past _ _),
      part.openingAfter_text before, ih _ hapart.tail, ← Quoted.literalAfter_eq]
    rfl

namespace Document

/-- A search of a document's text finds its literals. -/
theorem search_text (document : Document) :
    search ⟨⟨1, []⟩, plainEnds document.text⟩ = document.literals := by
  obtain ⟨lead, parts, hapart⟩ := document
  show search ⟨_, plainEnds (lead.text ++ parts.flatMap Part.text)⟩ = literalsAfter lead.text parts
  rw [plainEnds_append (.inr (Part.head?_flatMap_text parts)),
    search_gap lead.noQuotes_plainEnds (by simp)]
  exact search_parts lead.text hapart

/-- One literal with nothing after it. -/
def single (lead : Gap) (quoted : Quoted) : Document where
  lead := lead
  parts := [⟨quoted, ⟨[], List.not_mem_nil⟩⟩]
  apart := .singleton _

theorem text_single (lead : Gap) (quoted : Quoted) :
    (single lead quoted).text = lead.text ++ quoted.text := by
  simp [text, single, Part.text]

theorem literals_single (lead : Gap) (quoted : Quoted) :
    (single lead quoted).literals = [quoted.literalAfter lead.text] := rfl

/-- **A scan takes a document apart.** It finds the literals of the document,
    all of them and in order, each with its content, its mark, its line, and
    its delimiter. -/
theorem literals_text (document : Document) :
    (Source.ofText (String.ofList document.text)).literals = document.literals := by
  rw [Source.literals_ofText, String.toList_ofList, search_text]

end Document

end LiteralLint
