import LiteralLint.Proofs.Cursor
import LiteralLint.Proofs.Reachable

/-! # Progress

  The call for the next literal as a loop on a cursor: while the line has
  characters ahead, it takes steps, and at the end of a line it loads the next
  one. Nothing in the loop says that it ends, or that its indices are in range;
  both are proved.

  The key ideas:

  - A turn of the loop is a step of the scan that completes no literal, or it
    is the answer that the scan gives (`Cursor.Shows.turn`). So every cursor
    that the loop comes to shows a state of the scan, and no index is out of
    range in any of them.
  - A line that is loaded brings new characters, but there is one line less to
    load. So the lines come first in what gets less with each turn
    (`Cursor.ahead`).
-/

namespace LiteralLint

namespace Scan

namespace Cursor

/-! ### The Loop -/

/-- What a turn of the loop comes to. -/
inductive Turn
  /-- The loop goes on. -/
  | again (c : Cursor)
  /-- The call for the next literal is answered. -/
  | answer (literal? : Option Literal) (c : Cursor)
  deriving DecidableEq, Repr

/-- A turn of the loop: load the next line at the end of one, and take a step
    elsewhere. A literal ends the loop, and so does the end of the source. -/
def turn (c : Cursor) : Except OutOfRange Turn :=
  if c.atLineEnd then
    match c.nextLine with
    | (true, d) => .ok (.again d)
    | (false, d) => .ok (.answer none d)
  else
    match c.step with
    | .ok (none, d) => .ok (.again d)
    | .ok (some literal, d) => .ok (.answer (some literal) d)
    | .error fault => .error fault

/-- `Returns c literal? d`: the loop, entered with `c`, ends with this answer
    and leaves `d`. -/
inductive Returns : Cursor → Option Literal → Cursor → Prop
  | answer {c d : Cursor} {literal? : Option Literal}
      (hturn : c.turn = .ok (.answer literal? d)) : Returns c literal? d
  | again {c d e : Cursor} {literal? : Option Literal} (hturn : c.turn = .ok (.again d))
      (hreturns : Returns d literal? e) : Returns c literal? e

/-- The cursors that the loop comes to when it is entered any number of times,
    also after it has found the end of the source. -/
inductive Reached (source : Source) : Cursor → Prop
  | initial : Reached source (.initial source)
  | again {c d : Cursor} (hc : Reached source c) (hturn : c.turn = .ok (.again d)) :
      Reached source d
  | answer {c d : Cursor} {literal? : Option Literal} (hc : Reached source c)
      (hturn : c.turn = .ok (.answer literal? d)) : Reached source d

variable {source : Source} {c d : Cursor} {s t : State} {label : Label}

theorem turn_of_atLineEnd (hend : c.atLineEnd = true) :
    c.turn = match c.nextLine with
      | (true, d) => .ok (.again d)
      | (false, d) => .ok (.answer none d) := by
  rw [turn, if_pos hend]

theorem turn_of_ahead (hahead : c.atLineEnd = false) :
    c.turn = match c.step with
      | .ok (none, d) => .ok (.again d)
      | .ok (some literal, d) => .ok (.answer (some literal) d)
      | .error fault => .error fault := by
  rw [turn, hahead]
  rfl

/-! ### What Gets Less -/

/-- The lines that are still to be loaded and the characters that are still to
    be passed on the current one. -/
def ahead (c : Cursor) : Nat × Nat := (c.pending.length, c.chars.size - c.pos)

/-- There is less ahead of `d` than of `c`: fewer lines, or as many lines and
    fewer characters. -/
def Less (d c : Cursor) : Prop := Prod.Lex (· < ·) (· < ·) d.ahead c.ahead

theorem wellFounded_less : WellFounded Less :=
  InvImage.wf ahead (Prod.lex ⟨(· < ·), Nat.lt_wfRel.wf⟩ ⟨(· < ·), Nat.lt_wfRel.wf⟩).wf

theorem less_of_passes {count : Nat} (hpos : c.pos < c.chars.size) (hcount : 1 ≤ count)
    (h : Passes c d count) : Less d c := by
  rw [Less, ahead, ahead, h.pending_eq, h.chars_eq, h.pos_eq]
  exact .right _ (by omega)

theorem less_of_pending (h : c.pending.length = d.pending.length + 1) : Less d c :=
  .left _ _ (by omega)

/-! ### Turns -/

/-- A scan with characters ahead takes a step. -/
theorem exists_rule (hrest : s.rest ≠ [] ∨ s.pending ≠ []) : ∃ label t, Rule s label t := by
  cases hstep : step? s with
  | none =>
    obtain ⟨hnone, hlast, -⟩ := step?_eq_none_iff.1 hstep
    exact absurd hrest (by simp [hnone, hlast])
  | some following => exact ⟨following.1, following.2, step?_eq_some_iff.1 hstep⟩

/-- **A turn is a step of the scan or the answer of the scan.** In the first
    case there is less ahead. -/
theorem Shows.turn (h : c.Shows s) :
    (∃ label t d, Rule s label t ∧ label.literal? = none ∧ c.turn = .ok (.again d) ∧ d.Shows t
        ∧ d.log = c.log ++ label.event?.toList ∧ Less d c)
      ∨ ∃ d, c.turn = .ok (.answer (next s).literal? d) ∧ d.Shows (next s).state
        ∧ d.log = c.log ++ (next s).events := by
  by_cases hrest : s.rest = []
  · -- The next line is loaded, or there is none.
    rw [turn_of_atLineEnd (h.atLineEnd_iff.2 hrest)]
    by_cases hpending : s.pending = []
    · obtain ⟨d, hnext, hnone, hshows, hlog⟩ := h.finish hrest hpending
      refine .inr ⟨d, ?_, hshows, hlog⟩
      rw [hnext, hnone]
    · obtain ⟨label, t, hrule⟩ := exists_rule (.inr hpending)
      obtain ⟨d, hnext, hsilent, hshows, hlog, hless⟩ := h.nextLine hrule hrest hpending
      refine .inl ⟨label, t, d, hrule, hsilent, ?_, hshows, hlog, less_of_pending hless⟩
      rw [hnext]
  · -- A step is taken, and whether it completes a literal decides the turn.
    obtain ⟨char, rest, hahead⟩ := List.exists_cons_of_ne_nil hrest
    obtain ⟨label, t, hrule⟩ := exists_rule (.inl hrest)
    obtain ⟨d, hfollows⟩ := h.follows hrule hrest
    rw [turn_of_ahead (atLineEnd_of_lt (h.pos_lt hahead)), hfollows.step_eq]
    cases hliteral : label.literal? with
    | some literal =>
      have hnext := next_of_literal (step?_eq_some_iff.2 hrule) hliteral
      refine .inr ⟨d, ?_, ?_, ?_⟩
      · rw [hnext]
      · rw [hnext]
        exact hfollows.shows
      · rw [hnext]
        exact hfollows.log_eq
    | none =>
      have hpos := h.pos_lt hahead
      refine .inl ⟨label, t, d, hrule, hliteral, rfl, hfollows.shows, hfollows.log_eq, ?_⟩
      rcases hfollows.passes with hpasses | hpasses | hpasses
      · exact less_of_passes hpos (by decide) hpasses
      · exact less_of_passes hpos (by decide) hpasses
      · exact less_of_passes hpos (by decide) hpasses

/-- Every cursor that the loop comes to shows a state that the scan comes
    to. -/
theorem Reached.exists_shows (h : Reached source c) :
    ∃ labels s, Run (.initial source) labels s ∧ c.Shows s := by
  induction h with
  | initial => exact ⟨[], _, .stay _, shows_initial source⟩
  | again _ hturn ih =>
    obtain ⟨labels, s, hrun, hshows⟩ := ih
    rcases hshows.turn with ⟨label, t, d, hrule, -, hagain, hd, -⟩ | ⟨d, hanswer, -⟩
    · obtain rfl := Turn.again.inj (Except.ok.inj (hturn.symm.trans hagain))
      exact ⟨_, t, hrun.append (.step hrule (.stay t)), hd⟩
    · cases hturn.symm.trans hanswer
  | answer _ hturn ih =>
    obtain ⟨labels, s, hrun, hshows⟩ := ih
    rcases hshows.turn with ⟨label, t, d, -, -, hagain, -⟩ | ⟨d, hanswer, hd, -⟩
    · cases hturn.symm.trans hagain
    · obtain ⟨-, rfl⟩ := Turn.answer.inj (Except.ok.inj (hturn.symm.trans hanswer))
      obtain ⟨more, hmore⟩ := (call_next s).exists_run
      exact ⟨_, _, hrun.append hmore, hd⟩

/-- The loop ends, with the answer of the scan. The induction is on what is
    ahead. -/
theorem Shows.returns (h : c.Shows s) :
    ∃ d, Returns c (next s).literal? d ∧ d.Shows (next s).state
      ∧ d.log = c.log ++ (next s).events := by
  induction c using wellFounded_less.induction generalizing s with
  | _ c ih =>
    rcases h.turn with ⟨label, t, d, hrule, hsilent, hturn, hd, hlog, hless⟩
      | ⟨d, hturn, hd, hlog⟩
    · -- The scan has taken the same silent step, so its answer is that of the rest.
      obtain ⟨e, hreturns, he, hmore⟩ := ih d hless hd
      rw [next_of_silent (step?_eq_some_iff.2 hrule) hsilent]
      refine ⟨e, .again hturn hreturns, he, ?_⟩
      rw [hmore, hlog, List.append_assoc]
    · exact ⟨d, .answer hturn, hd, hlog⟩

/-! ### Main Statement -/

/-- The step that a cursor takes has all its indices in the line. The null
    character that stands for the end of the line is not seen: what is seen is
    the character at the index, and unless it is a quote or a backslash, it
    makes no difference which one it is. -/
structure StepsInRange (c : Cursor) : Prop where
  pos_lt : c.pos < c.chars.size
  peek_eq : c.peek = .ok c.chars[c.pos]
  previous?_eq : c.previous? = .ok (if c.pos = 0 then none else c.chars[c.pos - 1]?)
  quotesAhead_eq : ∃ quotes, c.quotesAhead = .ok quotes ∧ c.pos + quotes ≤ c.chars.size
  step_passing : c.chars[c.pos] ≠ '"' → c.chars[c.pos] ≠ '\\' →
    c.step = .ok (none, c.passing c.chars[c.pos])
  step_passes : ∃ literal? d, c.step = .ok (literal?, d)
    ∧ (Passes c d 1 ∨ Passes c d 2 ∨ Passes c d 3) ∧ d.pos ≤ d.chars.size

theorem Shows.stepsInRange (h : c.Shows s) (hahead : c.atLineEnd = false) : c.StepsInRange := by
  have hlt : c.pos < c.chars.size := Nat.not_le.1 (of_decide_eq_false hahead)
  have hrest : s.rest ≠ [] := by
    rw [ne_eq, ← h.atLineEnd_iff, hahead]
    exact Bool.false_ne_true
  obtain ⟨label, t, hrule⟩ := exists_rule (.inl hrest)
  obtain ⟨d, hfollows⟩ := h.follows hrule hrest
  exact {
    pos_lt := hlt
    peek_eq := peek_of_lt hlt
    previous?_eq := previous?_of_lt hlt
    quotesAhead_eq := exists_quotesAhead h.pos_le
    step_passing := Cursor.step_passing hlt
    step_passes := ⟨_, d, hfollows.step_eq, hfollows.passes, hfollows.shows.pos_le⟩ }

/-- A line that is loaded is one of those that were to be loaded. -/
theorem pending_of_nextLine (hnext : c.nextLine = (true, d)) :
    ∃ text, c.pending = text :: d.pending := by
  cases hpending : c.pending with
  | nil =>
    rw [nextLine_nil hpending] at hnext
    cases (congrArg Prod.fst hnext : false = true)
  | cons text pending =>
    rw [nextLine_cons hpending] at hnext
    obtain rfl := congrArg Prod.snd hnext
    exact ⟨text, rfl⟩

/-- A turn after which the loop goes on leaves less ahead. -/
theorem Shows.less_of_turn (h : c.Shows s) (hturn : c.turn = .ok (.again d)) : Less d c := by
  rcases h.turn with ⟨_, _, e, -, -, hagain, -, -, hless⟩ | ⟨e, hanswer, -⟩
  · obtain rfl := Turn.again.inj (Except.ok.inj (hturn.symm.trans hagain))
    exact hless
  · cases hturn.symm.trans hanswer

/-- **The call for the next literal ends, with its indices in range.** Take any
    cursor that the loop comes to. If it takes a step there, then the step has
    its indices in range and passes one, two or three characters of the line.
    If it loads a line, then that line is gone from those to be loaded. Each
    turn after which the loop goes on leaves less ahead, lines first. So the
    loop returns, and with what the scan answers in the state that the cursor
    shows. -/
theorem next_returns (source : Source) {c : Cursor} (h : Reached source c) :
    (c.atLineEnd = false → c.StepsInRange)
      ∧ (∀ d, c.nextLine = (true, d) → ∃ text, c.pending = text :: d.pending)
      ∧ (∀ d, c.turn = .ok (.again d) → Less d c)
      ∧ ∃ labels s d, Run (.initial source) labels s ∧ c.Shows s
        ∧ Returns c (next s).literal? d ∧ d.Shows (next s).state
        ∧ d.log = c.log ++ (next s).events := by
  obtain ⟨labels, s, hrun, hshows⟩ := h.exists_shows
  obtain ⟨d, hreturns, hd, hlog⟩ := hshows.returns
  exact ⟨hshows.stepsInRange, fun _ => pending_of_nextLine, fun _ => hshows.less_of_turn,
    labels, s, d, hrun, hshows, hreturns, hd, hlog⟩

/-- Four quotes and a null character. Three of the quotes open a literal, the
    fourth is held back, and the null character makes it content. -/
theorem next_returns_null :
    let source := Source.ofText "s\"\"\"\"\x00"
    let c : Cursor :=
      { pending := [], chars := #['s', '"', '"', '"', '"', '\x00'], pos := 5, line := 1,
        delimiter? := some .triple, content := "", mark := .s, start := 1, escaped := false,
        quotes := 1, log := [] }
    let d : Cursor := { c with pos := 6, content := "\"\x00", quotes := 0 }
    Reached source c ∧ c.atLineEnd = false ∧ c.peek = .ok '\x00' ∧ c.step = .ok (none, d)
      ∧ Less d c ∧ ∃ literal? e, Returns c literal? e := by
  intro source c d
  have hloaded : Reached source
      { initial source with pending := [], chars := c.chars, line := 1 } :=
    .again .initial (by decide +kernel)
  have hmarked : Reached source
      { initial source with pending := [], chars := c.chars, line := 1, pos := 1 } :=
    .again hloaded (by decide +kernel)
  have hopened : Reached source { c with pos := 4, quotes := 0 } :=
    .again hmarked (by decide +kernel)
  have hreached : Reached source c := .again hopened (by decide +kernel)
  have hahead : c.atLineEnd = false := by decide
  obtain ⟨hstep, -, hless, labels, s, e, -, -, hreturns, -⟩ := next_returns source hreached
  have hpeek : c.peek = .ok '\x00' := by decide
  have hpassing := (hstep hahead).step_passing
  rw [Except.ok.inj ((hstep hahead).peek_eq.symm.trans hpeek)] at hpassing
  have hpassed : c.passing '\x00' = d := by decide +kernel
  refine ⟨hreached, hahead, hpeek, ?_, hless d (by decide +kernel), _, e, hreturns⟩
  rw [hpassing (by decide) (by decide), hpassed]

end Cursor

end Scan

end LiteralLint
