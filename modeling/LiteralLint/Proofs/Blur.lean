import LiteralLint.Finding
import LiteralLint.Proofs.LineEnds
import LiteralLint.Text.Utf8

/-! # Texts Blurred beyond ASCII

  Nothing that a finding looks for is beyond ASCII. A text is blurred by
  putting one replacement character for each run of characters beyond ASCII.
  Its lines, and the findings of its literals, are then the same, but for
  being blurred themselves.

  A run never vanishes, so characters that were apart stay apart: no quotes
  come together, and no character after a backslash or a dollar sign is
  exchanged for one within ASCII.

  A text that is kept latest first is blurred from its other end. Both ways
  give the same text (`reverse_blurBack`), and they can be mixed
  (`blurBack_reverse_append`).
-/

namespace LiteralLint

/-! ### Blurring -/

/-- Whether a character is ASCII. -/
def isAscii (c : Char) : Bool := c.toNat < 0x80

/-- The replacement character is beyond ASCII. -/
theorem isAscii_replacement : isAscii Utf8.replacement = false := by decide

/-- A character beyond ASCII is no ASCII character. -/
theorem ne_of_beyond {c d : Char} (hc : isAscii c = false) (hd : isAscii d = true) : c ≠ d := by
  rintro rfl
  rw [hc] at hd
  cases hd

/-- A text with each run of characters beyond ASCII blurred into one
    replacement character. If the text goes on `within` a run, nothing is put
    for the rest of that run. -/
def blur (within : Bool) : List Char → List Char
  | [] => []
  | c :: rest =>
    if isAscii c then c :: blur false rest
    else if within then blur true rest
    else Utf8.replacement :: blur true rest

/-- Whether a text that is kept latest first ends within a run. -/
def endsInRun : List Char → Bool
  | [] => false
  | c :: _ => !isAscii c

/-- A text that is kept latest first, blurred. -/
def blurBack : List Char → List Char
  | [] => []
  | c :: passed =>
    if isAscii c then c :: blurBack passed
    else if endsInRun passed then blurBack passed
    else Utf8.replacement :: blurBack passed

section blur

variable {c : Char} {passed rest : List Char}

@[simp] theorem blur_nil (within : Bool) : blur within [] = [] := rfl

theorem blur_ascii (hc : isAscii c = true) (within : Bool) :
    blur within (c :: rest) = c :: blur false rest := by
  rw [blur, if_pos hc]

theorem blur_beyond (hc : isAscii c = false) :
    blur false (c :: rest) = Utf8.replacement :: blur true rest := by
  simp [blur, hc]

theorem blur_within (hc : isAscii c = false) : blur true (c :: rest) = blur true rest := by
  simp [blur, hc]

theorem blurBack_ascii (hc : isAscii c = true) :
    blurBack (c :: passed) = c :: blurBack passed := by
  rw [blurBack, if_pos hc]

theorem blurBack_beyond (hc : isAscii c = false) (hrun : endsInRun passed = false) :
    blurBack (c :: passed) = Utf8.replacement :: blurBack passed := by
  simp [blurBack, hc, hrun]

theorem blurBack_within (hc : isAscii c = false) (hrun : endsInRun passed = true) :
    blurBack (c :: passed) = blurBack passed := by
  simp [blurBack, hc, hrun]

/-- What is blurred going on from a text is blurred together with it. -/
theorem blurBack_reverse_append (text passed : List Char) :
    blurBack (text.reverse ++ passed)
      = (blur (endsInRun passed) text).reverse ++ blurBack passed := by
  induction text generalizing passed with
  | nil => rfl
  | cons c text ih =>
    rw [List.reverse_cons, List.append_assoc, List.singleton_append, ih]
    cases hc : isAscii c with
    | true => simp [endsInRun, hc, blur_ascii, blurBack_ascii]
    | false =>
      cases hrun : endsInRun passed with
      | true => simp [endsInRun, hc, blur_within, blurBack_within hc hrun]
      | false => simp [endsInRun, hc, blur_beyond, blurBack_beyond hc hrun]

/-- Both ways to blur a text agree. -/
theorem reverse_blurBack (passed : List Char) :
    (blurBack passed).reverse = blur false passed.reverse := by
  have hblur := blurBack_reverse_append passed.reverse []
  rw [List.reverse_reverse, List.append_nil] at hblur
  simp [hblur, endsInRun, blurBack]

/-- A character, blurred by itself. -/
def blurChar (c : Char) : Char := if isAscii c then c else Utf8.replacement

/-- The first character of a text is shown, be it a run of its own. -/
theorem head?_blur (text : List Char) : (blur false text).head? = text.head?.map blurChar := by
  cases text with
  | nil => rfl
  | cons c text => cases hc : isAscii c <;> simp [blur, blurChar, hc]

/-- So is the last one. -/
theorem head?_blurBack (passed : List Char) :
    (blurBack passed).head? = passed.head?.map blurChar := by
  induction passed with
  | nil => rfl
  | cons c passed ih =>
    cases hc : isAscii c with
    | true => simp [blurBack_ascii hc, blurChar, hc]
    | false =>
      cases hrun : endsInRun passed with
      | false => simp [blurBack_beyond hc hrun, blurChar, hc]
      | true =>
        -- The run goes back further, and what is shown for it is the same.
        cases passed with
        | nil => cases hrun
        | cons d passed =>
          have hd : isAscii d = false := by simpa [endsInRun] using hrun
          rw [blurBack_within hc hrun, ih]
          simp [blurChar, hc, hd]

/-- An ASCII character is left as it is, and no other character becomes one. -/
theorem blurChar_eq_iff {d : Char} (hd : isAscii d = true) : blurChar c = d ↔ c = d := by
  cases hc : isAscii c with
  | true => simp [blurChar, hc]
  | false =>
    have hkept := ne_of_beyond hc hd
    have hreplaced := ne_of_beyond isAscii_replacement hd
    simp [blurChar, hc, hkept, hreplaced]

/-- A character that is not further on in a run is shown. -/
theorem blur_shown (h : isAscii c = true ∨ endsInRun passed = false) (rest : List Char) :
    blur (endsInRun passed) (c :: rest) = blurChar c :: blur (endsInRun (c :: passed)) rest
      ∧ blurBack (c :: passed) = blurChar c :: blurBack passed := by
  cases hc : isAscii c with
  | true =>
    simp [blur_ascii hc, blurBack_ascii hc, blurChar, endsInRun, hc]
  | false =>
    have hrun : endsInRun passed = false := h.resolve_left (by simp [hc])
    rw [hrun, blur_beyond hc, blurBack_beyond hc hrun]
    simp [blurChar, endsInRun, hc]

/-- A character that is further on in a run is not. -/
theorem blur_hidden (hc : isAscii c = false) (hrun : endsInRun passed = true) (rest : List Char) :
    blur (endsInRun (c :: passed)) rest = blur (endsInRun passed) (c :: rest)
      ∧ blurBack (c :: passed) = blurBack passed := by
  have hend : endsInRun (c :: passed) = true := by simp [endsInRun, hc]
  rw [hend, hrun, blur_within hc, blurBack_within hc hrun]
  exact ⟨rfl, rfl⟩

@[simp] theorem endsInRun_quote (passed : List Char) : endsInRun ('"' :: passed) = false := rfl

@[simp] theorem blur_quote (within : Bool) (rest : List Char) :
    blur within ('"' :: rest) = '"' :: blur false rest := blur_ascii (by decide) within

@[simp] theorem blurBack_quote (passed : List Char) :
    blurBack ('"' :: passed) = '"' :: blurBack passed := blurBack_ascii (by decide)

/-- No ASCII character comes or goes at the beginning of a text. -/
theorem head?_blur_eq_some_iff (hc : isAscii c = true) :
    (blur false rest).head? = some c ↔ rest.head? = some c := by
  rw [head?_blur]
  cases rest with
  | nil => simp
  | cons d rest => simp [blurChar_eq_iff hc]

end blur

/-! ### Blurred Lines -/

/-- A string, blurred. -/
def blurText (text : String) : String := String.ofList (blur false text.toList)

@[simp] theorem toList_blurText (text : String) : (blurText text).toList = blur false text.toList :=
  String.toList_ofList

namespace Source

/-- A source, blurred line by line. -/
def blurred (source : Source) : Source := ⟨source.lines.map blurText⟩

theorem size_blurred (source : Source) : source.blurred.size = source.size := by
  simp [blurred, size]

/-- The line end that a line feed makes is within ASCII. -/
theorem endedLine_blurBack (line : List Char) :
    endedLine (blurBack line) = blurText (endedLine line) := by
  by_cases hreturn : line.head? = some '\r'
  · obtain ⟨line, rfl⟩ := List.head?_eq_some_iff.1 hreturn
    rw [blurBack_ascii (by decide)]
    simp [endedLine, blurText, reverse_blurBack]
  · have hblurred : (blurBack line).head? ≠ some '\r' := by
      rw [head?_blurBack]
      cases line with
      | nil => simp
      | cons c line =>
        have hc : c ≠ '\r' := by simpa using hreturn
        cases hascii : isAscii c <;> simp [blurChar, hascii, hc, Utf8.replacement]
    rw [endedLine_of_head? hreturn, endedLine_of_head? hblurred, reverse_blurBack, blurText,
      String.toList_ofList]

/-- The lines of a blurred text are the blurred lines. -/
theorem splitAfter_blur (line rest : List Char) :
    splitAfter #[] (blurBack line) (blur (endsInRun line) rest)
      = (splitAfter #[] line rest).map blurText := by
  induction rest generalizing line with
  | nil =>
    have hempty : (blurBack line).isEmpty = line.isEmpty := by
      have hhead := head?_blurBack line
      cases line with
      | nil => rfl
      | cons c line => cases hblur : blurBack (c :: line) <;> simp_all
    simp only [blur_nil, splitAfter, hempty]
    split <;> simp [blurText, reverse_blurBack]
  | cons c rest ih =>
    by_cases hfeed : c = '\n'
    · subst hfeed
      have hrest : splitAfter #[] [] (blur false rest)
          = (splitAfter #[] [] rest).map blurText := ih []
      rw [blur_ascii (by decide), splitAfter, if_pos rfl, splitAfter, if_pos rfl, splitAfter_eq,
        splitAfter_eq (#[].push (endedLine line)), hrest, endedLine_blurBack]
      simp
    · have hnext : splitAfter #[] line (c :: rest) = splitAfter #[] (c :: line) rest := by
        rw [splitAfter, if_neg hfeed]
      rw [hnext, ← ih (c :: line)]
      cases hc : isAscii c with
      | true =>
        rw [blur_ascii hc, splitAfter, if_neg hfeed, blurBack_ascii hc]
        simp [endsInRun, hc]
      | false =>
        have hend : endsInRun (c :: line) = true := by simp [endsInRun, hc]
        cases hrun : endsInRun line with
        | true => rw [blur_within hc, blurBack_within hc hrun, hend]
        | false =>
          rw [blur_beyond hc, blurBack_beyond hc hrun, hend, splitAfter, if_neg (by decide)]

/-- The source of a blurred text is the blurred source. -/
theorem ofText_blurText (text : String) : ofText (blurText text) = (ofText text).blurred := by
  have hlines : splitAfter #[] [] (blur false text.toList)
      = (splitAfter #[] [] text.toList).map blurText := splitAfter_blur [] text.toList
  simpa [ofText, blurText, blurred] using hlines

end Source

/-! ### Blurred Literals and Findings -/

/-- A mark, blurred. A letter beyond ASCII is lost. -/
def Mark.blurred : Mark → Mark
  | .bare => .bare
  | .s => .s
  | .f => .f
  | .letter c => if isAscii c then .letter c else .bare

/-- The replacement character is not a letter. -/
theorem Mark.ofPreceding_replacement : ofPreceding (some Utf8.replacement) = .bare := by
  decide +kernel

/-- The mark of a blurred text is the blurred mark. -/
theorem Mark.ofPreceding_blurChar (preceding : Option Char) :
    ofPreceding (preceding.map blurChar) = (ofPreceding preceding).blurred := by
  cases preceding with
  | none => rfl
  | some c =>
    cases hc : isAscii c with
    | true =>
      simp only [Option.map_some, blurChar, hc, if_true, ofPreceding]
      split
      · rfl
      split
      · rfl
      split
      · simp [blurred, hc]
      · rfl
    | false =>
      have hs : c ≠ 's' := ne_of_beyond hc (by decide)
      have hf : c ≠ 'f' := ne_of_beyond hc (by decide)
      have hbare : (ofPreceding (some c)).blurred = .bare := by
        simp only [ofPreceding, hs, hf, if_false]
        split <;> simp [blurred, hc]
      rw [hbare, Option.map_some, blurChar, hc]
      exact ofPreceding_replacement

theorem Mark.interpolates_blurred (mark : Mark) : mark.blurred.interpolates = mark.interpolates := by
  cases mark with
  | letter c => cases hc : isAscii c <;> simp [blurred, hc, interpolates]
  | _ => rfl

/-- A literal, blurred. -/
def Literal.blurred (literal : Literal) : Literal :=
  { literal with content := blurText literal.content, mark := literal.mark.blurred }

/-- A finding, blurred. -/
def Finding.blurred (finding : Finding) : Finding :=
  { finding with content := blurText finding.content, mark := finding.mark.blurred }

/-- What can begin a reference is within ASCII. -/
theorem isAscii_of_beginsReference {c : Char} (h : beginsReference c = true) :
    isAscii c = true := by
  simp only [beginsReference, Bool.or_eq_true, decide_eq_true_eq] at h
  rcases h with (hletter | rfl) | rfl
  · have hcode := toNat_of_isAlpha hletter
    rw [isAscii, decide_eq_true_eq]
    omega
  · decide
  · decide

theorem beginsReference_of_beyond {c : Char} (hc : isAscii c = false) :
    beginsReference c = false := by
  rw [← Bool.not_eq_true]
  intro h
  rw [isAscii_of_beginsReference h] at hc
  cases hc

theorem beginsReference_blurChar (c : Char) : beginsReference (blurChar c) = beginsReference c := by
  cases hc : isAscii c with
  | true => simp [blurChar, hc]
  | false =>
    simp [blurChar, hc, beginsReference_of_beyond hc,
      beginsReference_of_beyond isAscii_replacement]

/-- Whether a dollar sign in a text is followed by the beginning of a
    reference. -/
def holdsReference (text : List Char) : Bool :=
  (text.zip text.tail).any fun (c, following) => c = '$' && beginsReference following

theorem holdsReference_cons (c : Char) (rest : List Char) :
    holdsReference (c :: rest)
      = ((c = '$' && rest.head?.any beginsReference) || holdsReference rest) := by
  cases rest <;> simp [holdsReference]

/-- A reference after a dollar sign stays, and none appears. -/
theorem holdsReference_blur (within : Bool) (text : List Char) :
    holdsReference (blur within text) = holdsReference text := by
  induction text generalizing within with
  | nil => rfl
  | cons c rest ih =>
    cases hc : isAscii c with
    | true =>
      rw [blur_ascii hc, holdsReference_cons, holdsReference_cons, ih, head?_blur]
      cases rest with
      | nil => rfl
      | cons d rest => simp [beginsReference_blurChar]
    | false =>
      have hdollar : c ≠ '$' := ne_of_beyond hc (by decide)
      rw [holdsReference_cons]
      cases within with
      | true => simp [blur_within hc, ih, hdollar]
      | false =>
        rw [blur_beyond hc, holdsReference_cons, ih]
        simp [hdollar, Utf8.replacement]

theorem looksInterpolated_blurText (text : String) :
    looksInterpolated (blurText text) = looksInterpolated text := by
  have hblur := holdsReference_blur false text.toList
  rwa [← @String.toList_ofList (blur false text.toList)] at hblur

/-- The finding of a blurred literal is the blurred finding. -/
theorem Literal.finding?_blurred (literal : Literal) :
    literal.blurred.finding? = literal.finding?.map Finding.blurred := by
  unfold finding?
  simp only [blurred, looksInterpolated_blurText, Mark.interpolates_blurred]
  cases looksInterpolated literal.content <;> cases literal.mark.interpolates <;> rfl

end LiteralLint
