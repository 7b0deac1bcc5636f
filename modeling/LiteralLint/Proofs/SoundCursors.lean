import LiteralLint.Proofs.Progress

/-! # Sound Cursors

  What the fields of a cursor hold wherever the loop is. No field knows of the
  others: a literal that is closed or dropped leaves its content, its escape and
  its quotes behind unless each of them is reset. And the content is put
  together from characters, quotes that were held back, and line ends.

  The key ideas:

  - A cursor that the loop comes to shows a scan state. So each of its fields is
    what the region of the state remembers, or it is reset (`Cursor.Keeps`), and
    what the region remembers agrees with the text (`State.Regular`). That the
    cursor is sound follows from both (`Cursor.Shows.sound`).
  - The loop has one answer (`Cursor.Returns.unique`). The cursor that a call
    leaves is therefore the one that shows the state after the call, in which
    no literal is open.
-/

namespace LiteralLint

open Search

namespace Scan

namespace Cursor

/-! ### What the Fields Hold -/

/-- What the fields of a cursor hold when it scans the source. -/
structure Sound (source : Source) (c : Cursor) : Prop where
  /-- The index is one of the line, or the end of it. -/
  pos_le : c.pos ≤ c.chars.size
  /-- Outside of literals, the content, the escape and the quotes are reset. -/
  outside : c.delimiter? = none → c.content = "" ∧ c.escaped = false ∧ c.quotes = 0
  /-- The content of a single literal is on one line, and the next character is
      escaped when the content ends in an odd number of backslashes. -/
  single : c.delimiter? = some .single →
    c.quotes = 0 ∧ '\n' ∉ c.content.toList
      ∧ (c.escaped = true ↔ backslashRun c.content.toList.reverse % 2 = 1)
  /-- The content of a triple literal holds no three quotes in a row and does
      not end in a quote. At most two quotes are held back. -/
  triple : c.delimiter? = some .triple →
    c.escaped = false ∧ c.quotes ≤ 2
      ∧ ¬ Delimiter.triple.quotes <:+: c.content.toList ∧ c.content.toList.getLast? ≠ some '"'
  /-- An open literal was opened on a line of the source, and not below the
      current one. -/
  opened : c.delimiter? ≠ none → 1 ≤ c.start ∧ c.start ≤ c.line ∧ c.line ≤ source.size

variable {source : Source} {c d e : Cursor} {s : State} {literal? literal'? : Option Literal}

/-- A cursor is sound if the state that it shows is one of a scan of the
    source. -/
theorem Shows.sound (h : c.Shows s) (hs : s.Regular source) : c.Sound source := by
  obtain ⟨⟨-, hregion⟩, ⟨hbound, -, -⟩, habove, hholds⟩ := hs
  obtain ⟨hline, -, hpos, -, -, hkeeps⟩ := h
  -- What is open decides which of the fields are in use.
  cases hopen : s.region with
  | outside =>
    rw [hopen] at hkeeps
    obtain ⟨hnone, hreset⟩ := hkeeps
    exact {
      pos_le := hpos
      outside := fun _ => hreset
      single := by simp [hnone]
      triple := by simp [hnone]
      opened := by simp [hnone] }
  | single opening content escaped =>
    rw [hopen] at hkeeps hregion
    obtain ⟨hsingle, hcontent, -, hstart, hescaped, hquotes⟩ := hkeeps
    obtain ⟨-, hfeed, hodd⟩ := hregion
    obtain ⟨hfirst, hle⟩ := habove opening (by rw [hopen]; rfl)
    have hlist : c.content.toList = content.reverse := by rw [hcontent, String.toList_ofList]
    exact {
      pos_le := hpos
      outside := by simp [hsingle]
      single := fun _ => by
        rw [hlist, List.reverse_reverse, hescaped, List.mem_reverse]
        exact ⟨hquotes, hfeed, hodd⟩
      triple := by simp [hsingle]
      opened := fun _ => by
        rw [hstart, hline]
        exact ⟨hfirst, hle, hbound⟩ }
  | triple opening content quotes =>
    rw [hopen] at hkeeps hregion hholds
    obtain ⟨htriple, hcontent, -, hstart, hescaped, hquotes⟩ := hkeeps
    obtain ⟨-, hfew⟩ := hregion
    obtain ⟨hfirst, hle⟩ := habove opening (by rw [hopen]; rfl)
    exact {
      pos_le := hpos
      outside := by simp [htriple]
      single := by simp [htriple]
      triple := fun _ => by
        rw [hcontent, String.toList_ofList]
        exact ⟨hescaped, hquotes.trans_le hfew, hholds⟩
      opened := fun _ => by
        rw [hstart, hline]
        exact ⟨hfirst, hle, hbound⟩ }

/-- Every cursor that the loop comes to on the source of a text is sound. -/
theorem Reached.sound {text : String} (h : Reached (.ofText text) c) : c.Sound (.ofText text) := by
  obtain ⟨labels, s, hrun, hshows⟩ := h.exists_shows
  exact hshows.sound (hrun.preserves regular_step (regular_initial text))

/-! ### Calls -/

/-- The loop has one answer and leaves one cursor. -/
theorem Returns.unique (h : Returns c literal? d) (h' : Returns c literal'? e) :
    literal? = literal'? ∧ d = e := by
  induction h with
  | answer hturn =>
    cases h' with
    | answer hturn' => exact Turn.answer.inj (Except.ok.inj (hturn.symm.trans hturn'))
    | again hturn' _ => cases hturn.symm.trans hturn'
  | again hturn _ ih =>
    cases h' with
    | answer hturn' => cases hturn.symm.trans hturn'
    | again hturn' hreturns =>
      obtain rfl := Turn.again.inj (Except.ok.inj (hturn.symm.trans hturn'))
      exact ih hreturns

/-- What a call leaves is reached. -/
theorem Reached.of_returns (h : Reached source c) (hreturns : Returns c literal? d) :
    Reached source d := by
  induction hreturns with
  | answer hturn => exact h.answer hturn
  | again hturn _ ih => exact ih (h.again hturn)

/-- No literal is open in what a call leaves. -/
theorem Shows.delimiter?_of_returns (h : c.Shows s) (hreturns : Returns c literal? d) :
    d.delimiter? = none := by
  obtain ⟨e, hanswer, hshows, -⟩ := h.returns
  obtain ⟨-, rfl⟩ := hreturns.unique hanswer
  have hkeeps := hshows.keeps
  rw [(call_next s).region] at hkeeps
  exact hkeeps.1

/-! ### Main Statement -/

/-- **Every cursor that the loop comes to is sound.** It may be within a call
    for the next literal or between two calls. The call that goes on from it
    returns, and whether it has found a literal or not, it leaves a sound cursor
    with no literal open. -/
theorem reached_sound (text : String) :
    let source := Source.ofText text
    ∀ c, Reached source c →
      c.Sound source
        ∧ (∃ literal? d, Returns c literal? d)
        ∧ ∀ literal? d, Returns c literal? d →
          Reached source d ∧ d.Sound source ∧ d.delimiter? = none := by
  intro source c hc
  obtain ⟨labels, s, hrun, hshows⟩ := hc.exists_shows
  obtain ⟨d, hreturns, -⟩ := hshows.returns
  refine ⟨hc.sound, ⟨_, d, hreturns⟩, ?_⟩
  intro literal? e hanswer
  have he : Reached source e := hc.of_returns hanswer
  exact ⟨he, he.sound, hshows.delimiter?_of_returns hanswer⟩

/-- Two quotes are held back on the second line of a triple literal. The source
    ends before it is closed, and the call leaves nothing of it. -/
theorem reached_sound_held_back :
    let source := Source.ofText "\"\"\"a\r\n\"\"$b"
    let c : Cursor :=
      { pending := [], chars := #['"', '"', '$', 'b'], pos := 2, line := 2,
        delimiter? := some .triple, content := "a\n", mark := .bare, start := 1,
        escaped := false, quotes := 2, log := [] }
    Reached source c ∧ c.Sound source
      ∧ ∃ d, Returns c none d ∧ d.Sound source ∧ d.delimiter? = none
        ∧ d.content = "" ∧ d.quotes = 0 ∧ d.log = [.discarded 1 .triple] := by
  intro source c
  have hloaded : Reached source
      { initial source with
        pending := ["\"\"$b"], chars := #['"', '"', '"', 'a'], line := 1 } :=
    .again .initial (by decide +kernel)
  have hopened : Reached source
      { c with pending := ["\"\"$b"], chars := #['"', '"', '"', 'a'], pos := 3, line := 1,
               content := "", quotes := 0 } :=
    .again hloaded (by decide +kernel)
  have hread : Reached source
      { c with pending := ["\"\"$b"], chars := #['"', '"', '"', 'a'], pos := 4, line := 1,
               content := "a", quotes := 0 } :=
    .again hopened (by decide +kernel)
  have hentered : Reached source { c with pos := 0, quotes := 0 } :=
    .again hread (by decide +kernel)
  have hheld : Reached source { c with pos := 1, quotes := 1 } :=
    .again hentered (by decide +kernel)
  have hreached : Reached source c := .again hheld (by decide +kernel)
  let d : Cursor :=
    { c with chars := #[], pos := 0, delimiter? := none, content := "", quotes := 0,
             log := [.discarded 1 .triple] }
  have hended : Returns { c with pos := 4, content := "a\n\"\"$b", quotes := 0 } none d :=
    .answer (by decide +kernel)
  have hlast : Returns { c with pos := 3, content := "a\n\"\"$", quotes := 0 } none d :=
    .again (by decide +kernel) hended
  have hreturns : Returns c none d := .again (by decide +kernel) hlast
  obtain ⟨hsound, -, hcalls⟩ := reached_sound _ c hreached
  obtain ⟨-, hleft, hnone⟩ := hcalls none d hreturns
  obtain ⟨hcontent, -, hquotes⟩ := hleft.outside hnone
  exact ⟨hreached, hsound, d, hreturns, hleft, hnone, hcontent, hquotes, rfl⟩

end Cursor

end Scan

end LiteralLint
