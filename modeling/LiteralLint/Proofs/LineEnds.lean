import LiteralLint.Source
import Mathlib.Data.List.TakeWhile

/-! # Line Ends

  The text of a source is its lines joined by line feeds. It is the text that
  the source was made from, up to two differences:

  - A carriage return directly before a line feed is gone. `plainEnds` makes
    this change on a text.
  - A line feed that ends the text is gone.

  `plainEnds_toList` states that there are no others. What is proved of texts
  thereby carries over to sources, and the other way round.
-/

namespace LiteralLint

/-! ### Plain Line Ends -/

/-- A text with every line end made a bare line feed: one carriage return
    directly before each line feed is dropped. -/
def plainEnds : List Char → List Char
  | [] => []
  | c :: rest =>
    if c = '\r' ∧ rest.head? = some '\n' then plainEnds rest else c :: plainEnds rest

@[simp] theorem plainEnds_nil : plainEnds [] = [] := rfl

@[simp] theorem plainEnds_feed (rest : List Char) :
    plainEnds ('\n' :: rest) = '\n' :: plainEnds rest := by
  simp [plainEnds]

theorem plainEnds_cons_cons (c d : Char) (rest : List Char) :
    plainEnds (c :: d :: rest)
      = if c = '\r' ∧ d = '\n' then plainEnds (d :: rest) else c :: plainEnds (d :: rest) := by
  simp only [plainEnds, List.head?_cons, Option.some.injEq]

/-- Line ends are made plain piece by piece, unless a cut falls into one. -/
theorem plainEnds_append {xs ys : List Char}
    (hcut : xs.getLast? ≠ some '\r' ∨ ys.head? ≠ some '\n') :
    plainEnds (xs ++ ys) = plainEnds xs ++ plainEnds ys := by
  induction xs with
  | nil => rfl
  | cons c xs ih =>
    cases xs with
    | nil =>
      -- The only character of the piece stays unless it is half of a line end.
      have hkeep : ¬ (c = '\r' ∧ ys.head? = some '\n') := by
        rintro ⟨rfl, hhead⟩
        simp [hhead] at hcut
      simp [plainEnds, hkeep]
    | cons d xs =>
      have ih' := ih (by simpa using hcut)
      rw [List.cons_append] at ih'
      rw [List.cons_append, List.cons_append, plainEnds_cons_cons, plainEnds_cons_cons, ih']
      split <;> rfl

/-- No cut falls into a line end before a character other than a line feed. -/
theorem plainEnds_append_cons (xs : List Char) {c : Char} (hc : c ≠ '\n') (ys : List Char) :
    plainEnds (xs ++ c :: ys) = plainEnds xs ++ plainEnds (c :: ys) :=
  plainEnds_append (.inr (by simpa using hc))

/-- Neither does one after a character other than a carriage return. -/
theorem plainEnds_cons {c : Char} (hc : c ≠ '\r') (rest : List Char) :
    plainEnds (c :: rest) = c :: plainEnds rest := by
  simp [plainEnds, hc]

/-- A text without line ends to change stays as it is. -/
theorem plainEnds_eq_self {text : List Char} (h : ¬ ['\r', '\n'] <:+: text) :
    plainEnds text = text := by
  induction text with
  | nil => rfl
  | cons c rest ih =>
    have hrest : ¬ ['\r', '\n'] <:+: rest := by
      intro hin
      exact h (List.infix_cons hin)
    have hkeep : ¬ (c = '\r' ∧ rest.head? = some '\n') := by
      rintro ⟨rfl, hhead⟩
      obtain ⟨tail, rfl⟩ := List.head?_eq_some_iff.1 hhead
      exact h ⟨[], tail, rfl⟩
    rw [plainEnds, if_neg hkeep, ih hrest]

/-- A text without line feeds stays as it is. -/
theorem plainEnds_of_notMem {text : List Char} (h : '\n' ∉ text) : plainEnds text = text := by
  apply plainEnds_eq_self
  intro hin
  exact h (hin.subset (by simp))

/-- The line feeds all stay. -/
@[simp] theorem count_plainEnds (text : List Char) :
    (plainEnds text).count '\n' = text.count '\n' := by
  induction text with
  | nil => rfl
  | cons c rest ih =>
    rw [plainEnds]
    split
    · next hdrop => simp [hdrop.1, ih]
    · simp [List.count_cons, ih]

/-- So does the last character. -/
@[simp] theorem getLast?_plainEnds (text : List Char) :
    (plainEnds text).getLast? = text.getLast? := by
  induction text with
  | nil => rfl
  | cons c rest ih =>
    rw [plainEnds]
    split
    · next hdrop =>
      -- What is dropped is not the last character: a line feed follows it.
      obtain ⟨tail, rfl⟩ := List.head?_eq_some_iff.1 hdrop.2
      rw [ih, List.getLast?_cons_cons]
    · rw [List.getLast?_cons, ih, List.getLast?_cons]

/-- A carriage return before a line feed is left over only where there were
    two of them. -/
theorem doubled_of_infix_plainEnds {text : List Char} (h : ['\r', '\n'] <:+: plainEnds text) :
    ['\r', '\r', '\n'] <:+: text := by
  induction text with
  | nil => simp at h
  | cons c rest ih =>
    rw [plainEnds] at h
    split at h
    · exact List.infix_cons (ih h)
    · next hkeep =>
      rcases List.infix_cons_iff.1 h with hpre | hin
      · obtain ⟨rfl, hfeed⟩ := List.cons_prefix_cons.1 hpre
        -- The line feed comes from a line end, as one would have been dropped here.
        cases rest with
        | nil => simp at hfeed
        | cons d rest =>
          have hd : d ≠ '\n' := by
            intro heq
            subst heq
            exact hkeep ⟨rfl, rfl⟩
          rw [plainEnds] at hfeed
          split at hfeed
          · next hdrop =>
            obtain ⟨tail, rfl⟩ := List.head?_eq_some_iff.1 hdrop.2
            exact ⟨[], tail, by simp [hdrop.1]⟩
          · exact absurd (List.cons_prefix_cons.1 hfeed).1.symm hd
      · exact List.infix_cons (ih hin)

/-- A text with plain line ends is cut where the text is cut, at a character
    other than a line feed. -/
theorem exists_cut_of_plainEnds {text xs ys : List Char} {c : Char} (hc : c ≠ '\n')
    (h : plainEnds text = xs ++ c :: ys) :
    ∃ before after, text = before ++ c :: after ∧ plainEnds before = xs := by
  induction text generalizing xs with
  | nil => simp at h
  | cons d rest ih =>
    rw [plainEnds] at h
    split at h
    · next hdrop =>
      obtain ⟨before, after, rfl, hbefore⟩ := ih h
      -- The line feed is still before the cut, so the carriage return is dropped there, too.
      have hhead : before.head? = some '\n' := by
        cases before with
        | nil => exact absurd (Option.some.inj hdrop.2) hc
        | cons e before => exact hdrop.2
      exact ⟨d :: before, after, rfl, by rw [plainEnds, if_pos ⟨hdrop.1, hhead⟩, hbefore]⟩
    · next hkeep =>
      cases xs with
      | nil =>
        obtain ⟨rfl, -⟩ := List.cons.inj h
        exact ⟨[], rest, rfl, rfl⟩
      | cons e xs =>
        obtain ⟨rfl, htail⟩ := List.cons.inj h
        obtain ⟨before, after, rfl, hbefore⟩ := ih htail
        have hkeep' : ¬ (d = '\r' ∧ before.head? = some '\n') := by
          rintro ⟨hd, hhead⟩
          exact hkeep ⟨hd, by rw [List.head?_append, hhead]; rfl⟩
        exact ⟨d :: before, after, rfl, by rw [plainEnds, if_neg hkeep', hbefore]⟩

/-- What begins a text with plain line ends, on one line, begins the text. -/
theorem prefix_of_prefix_plainEnds {word text : List Char} (hword : '\n' ∉ word)
    (h : word <+: plainEnds text) : word <+: text := by
  induction text generalizing word with
  | nil => exact h
  | cons c rest ih =>
    -- The word is taken apart with the text, character by character.
    cases word with
    | nil => exact List.nil_prefix
    | cons d word =>
      rw [plainEnds] at h
      split at h
      · next hdrop =>
        -- A line feed comes first, and the word has none.
        obtain ⟨tail, rfl⟩ := List.head?_eq_some_iff.1 hdrop.2
        rw [plainEnds_feed] at h
        obtain ⟨rfl, -⟩ := List.cons_prefix_cons.1 h
        exact absurd List.mem_cons_self hword
      · obtain ⟨rfl, htail⟩ := List.cons_prefix_cons.1 h
        have hword' : '\n' ∉ word := by
          intro hin
          exact hword (List.mem_cons_of_mem _ hin)
        exact List.cons_prefix_cons.2 ⟨rfl, ih hword' htail⟩

/-- What stands in a text with plain line ends, on one line, stands in the
    text. -/
theorem infix_of_infix_plainEnds {word text : List Char} (hword : '\n' ∉ word)
    (h : word <:+: plainEnds text) : word <:+: text := by
  induction text with
  | nil => exact h
  | cons c rest ih =>
    by_cases hpre : word <+: plainEnds (c :: rest)
    · exact (prefix_of_prefix_plainEnds hword hpre).isInfix
    rw [plainEnds] at h hpre
    split at h
    · exact List.infix_cons (ih h)
    · next hkeep =>
      rw [if_neg hkeep] at hpre
      exact List.infix_cons (ih ((List.infix_cons_iff.1 h).resolve_left hpre))

/-! ### The Text of a Source -/

/-- A text on one line is all before its first line feed. -/
theorem takeWhile_of_notMem {text : List Char} (h : '\n' ∉ text) :
    text.takeWhile (· ≠ '\n') = text := by
  apply List.takeWhile_eq_self_iff.2
  intro c hc
  have hne : c ≠ '\n' := by
    intro heq
    subst heq
    exact h hc
  simpa using hne

namespace Source

/-- The lines of a source, joined by line feeds. -/
def text (source : Source) : List Char :=
  ['\n'].intercalate (source.lines.toList.map String.toList)

/-- The lines of a text of which `line` has been read, without a copy of the
    lines already ended. -/
theorem splitAfter_feed (line rest : List Char) :
    (splitAfter #[] line ('\n' :: rest)).toList
      = endedLine line :: (splitAfter #[] [] rest).toList := by
  rw [splitAfter, if_pos rfl, splitAfter_eq]
  simp

/-- Only the empty text has no lines. -/
theorem eq_nil_of_splitAfter_eq_nil {line rest : List Char}
    (h : (splitAfter #[] line rest).toList = []) : line = [] ∧ rest = [] := by
  induction rest generalizing line with
  | nil =>
    cases line with
    | nil => exact ⟨rfl, rfl⟩
    | cons d line => simp [splitAfter] at h
  | cons c rest ih =>
    by_cases hc : c = '\n'
    · subst hc
      rw [splitAfter_feed] at h
      cases h
    · rw [splitAfter, if_neg hc] at h
      cases (ih h).1

/-- A line without a carriage return at its end is not cut. -/
theorem endedLine_of_head? {line : List Char} (h : line.head? ≠ some '\r') :
    endedLine line = String.ofList line.reverse := by
  unfold endedLine
  split
  · exact absurd rfl h
  · rfl

/-- A line that a line feed ends, as the text that it came from has it. -/
theorem plainEnds_endedLine {line : List Char} (hline : '\n' ∉ line) (rest : List Char) :
    plainEnds (line.reverse ++ '\n' :: rest)
      = (endedLine line).toList ++ '\n' :: plainEnds rest := by
  match line with
  | [] => simp [endedLine]
  | c :: line =>
    have hline' : '\n' ∉ line.reverse := by simp_all
    -- The last character of the line is part of the line end, or it stays.
    by_cases hc : c = '\r'
    · subst hc
      rw [List.reverse_cons, List.append_assoc, List.singleton_append,
        plainEnds_append_cons _ (by decide), plainEnds_cons_cons, if_pos ⟨rfl, rfl⟩,
        plainEnds_of_notMem hline']
      simp [endedLine]
    · have hended : endedLine (c :: line) = String.ofList (c :: line).reverse :=
        endedLine_of_head? (by simpa using hc)
      rw [plainEnds_append (.inl (by simpa using hc)), plainEnds_of_notMem (by simp_all), hended]
      simp

/-- No line holds a line feed. -/
theorem notMem_splitAfter {line : List Char} (hline : '\n' ∉ line) (rest : List Char) :
    ∀ text ∈ (splitAfter #[] line rest).toList, '\n' ∉ text.toList := by
  induction rest generalizing line with
  | nil => by_cases h : line.isEmpty <;> simp_all [splitAfter]
  | cons c rest ih =>
    by_cases hc : c = '\n'
    · subst hc
      intro text htext
      rw [splitAfter_feed, List.mem_cons] at htext
      rcases htext with rfl | htext
      · unfold endedLine
        split <;> simp_all
      · exact ih (by simp) text htext
    · rw [splitAfter, if_neg hc]
      exact ih (by simp [hline, Ne.symm hc])

/-- The lines of a text, joined again, are the text up to its line ends. -/
theorem plainEnds_splitAfter {line : List Char} (hline : '\n' ∉ line) (rest : List Char) :
    ∃ final, (final = [] ∨ final = ['\n']) ∧
      plainEnds (line.reverse ++ rest)
        = ['\n'].intercalate ((splitAfter #[] line rest).toList.map String.toList) ++ final := by
  -- The induction is on what is not yet read; `line` is what is read of its line.
  induction rest generalizing line with
  | nil =>
    refine ⟨[], .inl rfl, ?_⟩
    rw [List.append_nil, List.append_nil, plainEnds_of_notMem (by simpa using hline)]
    by_cases h : line.isEmpty <;> simp_all [splitAfter]
  | cons c rest ih =>
    by_cases hc : c = '\n'
    · subst hc
      obtain ⟨final, hfinal, hrest⟩ := @ih [] (by simp)
      rw [plainEnds_endedLine hline, splitAfter_feed]
      cases hlines : (splitAfter #[] [] rest).toList with
      | nil =>
        -- The line feed ends the text: it is the one that the lines lack.
        rw [hlines] at hrest
        have hnone : rest = [] := (eq_nil_of_splitAfter_eq_nil hlines).2
        exact ⟨['\n'], .inr rfl, by simp [hnone]⟩
      | cons next lines =>
        rw [hlines] at hrest
        refine ⟨final, hfinal, ?_⟩
        rw [← List.nil_append rest, ← List.reverse_nil, hrest]
        simp
    · obtain ⟨final, hfinal, hrest⟩ := @ih (c :: line) (by simp [hline, Ne.symm hc])
      refine ⟨final, hfinal, ?_⟩
      rw [splitAfter, if_neg hc, ← hrest]
      simp

/-- No line of a text holds a line feed. -/
theorem notMem_lines_ofText (text : String) :
    ∀ line ∈ (ofText text).lines.toList, '\n' ∉ line.toList :=
  notMem_splitAfter (by simp) text.toList

/-- A text with plain line ends is the text of its source, except that it may
    end with a line feed more. -/
theorem plainEnds_toList (text : String) :
    plainEnds text.toList = (ofText text).text
      ∨ plainEnds text.toList = (ofText text).text ++ ['\n'] := by
  obtain ⟨final, hfinal, htext⟩ := @plainEnds_splitAfter [] (by simp) text.toList
  rcases hfinal with rfl | rfl
  · exact .inl (by simpa [Source.text, ofText] using htext)
  · exact .inr (by simpa [Source.text, ofText] using htext)

end Source

end LiteralLint
