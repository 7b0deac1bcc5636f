import LiteralLint.Finding
import Mathlib.Data.List.TakeWhile

/-! # Report Lines

  A report line says which finding it is about: no other finding is shown
  like it. The content is shown as it is, without escapes, and may hold
  quotes, line feeds and all that a report line ends in. It is told from what
  is around it all the same:

  - From the right, the line number is the longest run of digits at the end,
    as a blank stands before it (`append_blank_digits_inj`).
  - From the left, what stands before the content names the letter that is
    not needed, or no letter (`Finding.lead_append_inj`).

  Of the mark, a line shows nothing else. Marks that are no interpolators all
  look alike on it.
-/

namespace LiteralLint

/-! ### Numbers at the End -/

/-- The blank before a number ends the digits that are read from the right. -/
theorem takeWhile_isDigit_reverse (before : List Char) (n : Nat) :
    (before ++ ' ' :: Nat.toDigits 10 n).reverse.takeWhile Char.isDigit
      = (Nat.toDigits 10 n).reverse := by
  have hdigits : ∀ c ∈ (Nat.toDigits 10 n).reverse, c.isDigit = true := by
    intro c hc
    exact Nat.isDigit_of_mem_toDigits (by decide) (by decide) (List.mem_reverse.1 hc)
  rw [List.reverse_append, List.reverse_cons, List.append_assoc,
    List.takeWhile_append_of_pos hdigits, List.singleton_append,
    List.takeWhile_cons_of_neg (by decide), List.append_nil]

/-- A number with a blank before it can be read off the end of a text. -/
theorem append_blank_digits_inj {before after : List Char} {m n : Nat}
    (h : before ++ ' ' :: Nat.toDigits 10 m = after ++ ' ' :: Nat.toDigits 10 n) :
    before = after ∧ m = n := by
  have hdigits : Nat.toDigits 10 m = Nat.toDigits 10 n := by
    rw [← List.reverse_inj, ← takeWhile_isDigit_reverse before m,
      ← takeWhile_isDigit_reverse after n, h]
  rw [hdigits] at h
  refine ⟨List.append_cancel_right h, ?_⟩
  -- The digits of a number have its value.
  simpa using congrArg (fun digits => Nat.ofDigitChars 10 digits 0) hdigits

namespace Finding

variable {finding other : Finding}

/-! ### Before the Content -/

/-- What stands before the content on a report line that names a letter as not
    needed, or none. -/
def lead : Option Char → String
  | none => "Possible missing s or f on string \""
  | some c =>
    "Possible unneeded " ++ String.ofList [c] ++ " on string " ++ String.ofList [c] ++ "\""

theorem lead_none : lead none = "Possible missing s or f on string \"" := rfl

theorem lead_some (c : Char) :
    lead (some c)
      = "Possible unneeded " ++ String.ofList [c] ++ " on string " ++ String.ofList [c] ++ "\"" :=
  rfl

/-- A line that names a letter does not begin like one that names none. -/
theorem lead_none_append_ne (c : Char) (content content' : List Char) :
    (lead none).toList ++ content ≠ (lead (some c)).toList ++ content' := by
  have hmissing : "Possible missing s or f on string \"".toList
      = "Possible missing s".toList ++ " or f on string \"".toList := by decide +kernel
  have hlength : "Possible missing s".toList.length = "Possible unneeded ".toList.length := by
    decide +kernel
  intro h
  simp only [lead_none, lead_some, hmissing, String.toList_append, List.append_assoc] at h
  exact absurd (List.append_inj_left h hlength) (by decide +kernel)

/-- What stands before the content is told from the content. -/
theorem lead_append_inj {letter? letter'? : Option Char} {content content' : List Char}
    (h : (lead letter?).toList ++ content = (lead letter'?).toList ++ content') :
    letter? = letter'? ∧ content = content' := by
  cases letter? with
  | none =>
    cases letter'? with
    | none => exact ⟨rfl, List.append_cancel_left h⟩
    | some d => exact absurd h (lead_none_append_ne d content content')
  | some c =>
    cases letter'? with
    | none => exact absurd h.symm (lead_none_append_ne c content' content)
    | some d =>
      have hletter := h
      simp only [lead_some, String.toList_append, String.toList_ofList, List.append_assoc,
        List.singleton_append] at hletter
      obtain ⟨rfl, -⟩ := List.cons.inj (List.append_cancel_left hletter)
      exact ⟨rfl, List.append_cancel_left h⟩

/-! ### The Whole Line -/

/-- The letter that the report line of a finding names as not needed. -/
def named? (finding : Finding) : Option Char :=
  match finding.kind with
  | .missingMark => none
  | .unneededMark => finding.mark.letter?

/-- A finding as a literal gives rise to it: only a mark that interpolates can
    be unneeded. -/
def Arises (finding : Finding) : Prop :=
  finding.kind = .unneededMark → finding.mark.interpolates = true

theorem arises_of_finding? {literal : Literal} (h : literal.finding? = some finding) :
    finding.Arises := by
  intro hkind
  unfold Literal.finding? at h
  split at h
  · obtain rfl := Option.some.inj h
    cases hkind
  · next hmark =>
    obtain rfl := Option.some.inj h
    exact hmark
  · cases h
  · cases h

/-- Marks that interpolate have a letter, and are told by it. -/
theorem letter?_eq_iff {mark mark' : Mark} (h : mark.interpolates = true)
    (h' : mark'.interpolates = true) : mark.letter? = mark'.letter? ↔ mark = mark' := by
  cases mark <;> cases h <;> cases mark' <;> cases h' <;> decide

theorem exists_letter {mark : Mark} (h : mark.interpolates = true) :
    ∃ c, mark.letter? = some c := by
  cases mark <;> cases h <;> exact ⟨_, rfl⟩

/-- Whether a letter is named, and which one, tells the kind of a finding, and
    its mark if the mark is unneeded. -/
theorem named?_eq_iff (h : finding.Arises) (h' : other.Arises) :
    finding.named? = other.named?
      ↔ finding.kind = other.kind
        ∧ (finding.kind = .unneededMark → finding.mark = other.mark) := by
  obtain ⟨kind, content, mark, line⟩ := finding
  obtain ⟨kind', content', mark', line'⟩ := other
  cases kind with
  | missingMark =>
    cases kind' with
    | missingMark => exact ⟨fun _ => ⟨rfl, nofun⟩, fun _ => rfl⟩
    | unneededMark =>
      obtain ⟨c, hc⟩ := exists_letter (h' rfl)
      exact ⟨fun hnone => absurd (hnone.trans hc) nofun, fun hkind => nomatch hkind.1⟩
  | unneededMark =>
    cases kind' with
    | missingMark =>
      obtain ⟨c, hc⟩ := exists_letter (h rfl)
      exact ⟨fun hnone => absurd (hnone.symm.trans hc) nofun, fun hkind => nomatch hkind.1⟩
    | unneededMark =>
      have hletter := letter?_eq_iff (h rfl) (h' rfl)
      exact ⟨fun hnamed => ⟨rfl, fun _ => hletter.1 hnamed⟩, fun hmark => hletter.2 (hmark.2 rfl)⟩

/-- A report line is what stands before the content, the content, and the
    number of the line. -/
theorem toList_render (h : finding.Arises) :
    finding.render.toList
      = (lead finding.named?).toList ++ (finding.content.toList ++ "\", line".toList)
        ++ ' ' :: Nat.toDigits 10 finding.line := by
  obtain ⟨kind, content, mark, line⟩ := finding
  have hnumber : (toString line).toList = Nat.toDigits 10 line := Nat.toList_repr
  have htrailer : "\", line ".toList = "\", line".toList ++ [' '] := by decide +kernel
  cases kind with
  | missingMark =>
    show (lead none ++ content ++ "\", line " ++ toString line).toList
      = (lead none).toList ++ _ ++ _
    simp only [String.toList_append, hnumber, htrailer, List.append_assoc, List.singleton_append]
  | unneededMark =>
    obtain ⟨c, hc⟩ := exists_letter (h rfl)
    have hnamed : named? ⟨.unneededMark, content, mark, line⟩ = some c := hc
    have htext : mark.text = String.ofList [c] := by rw [Mark.text, hc]; rfl
    rw [hnamed, lead_some]
    show ("Possible unneeded " ++ mark.text ++ " on string " ++ mark.text ++ "\"" ++ content
      ++ "\", line " ++ toString line).toList = _
    simp only [htext, String.toList_append, hnumber, htrailer, List.append_assoc,
      List.singleton_append]

/-- **A report line identifies its finding.** Findings that literals give rise
    to are shown alike only if they have the same kind, content and line, and
    also the same mark if the mark is unneeded. A mark that may be missing is
    not shown. -/
theorem render_eq_iff {first second : Literal} (h : first.finding? = some finding)
    (h' : second.finding? = some other) :
    finding.render = other.render
      ↔ finding.kind = other.kind ∧ finding.content = other.content ∧ finding.line = other.line
        ∧ (finding.kind = .unneededMark → finding.mark = other.mark) := by
  have harises := arises_of_finding? h
  have harises' := arises_of_finding? h'
  rw [← String.toList_inj, toList_render harises, toList_render harises']
  constructor
  · intro hlines
    -- The number is taken off the right, and what comes first off the left.
    obtain ⟨hbefore, hline⟩ := append_blank_digits_inj hlines
    obtain ⟨hnamed, hcontent⟩ := lead_append_inj hbefore
    obtain ⟨hkind, hmark⟩ := (named?_eq_iff harises harises').1 hnamed
    exact ⟨hkind, String.toList_injective (List.append_cancel_right hcontent), hline, hmark⟩
  · rintro ⟨hkind, hcontent, hline, hmark⟩
    rw [(named?_eq_iff harises harises').2 ⟨hkind, hmark⟩, hcontent, hline]

/-- A content that ends like a report line is told from the line that it ends
    like. Marks that may be missing are not told from each other. -/
theorem render_eq_iff_imitation :
    let imitation : Literal := ⟨"$a\", line 7", .bare, 1, .triple⟩
    let letter : Literal := ⟨"$a", .letter 'r', 7, .single⟩
    let bare : Literal := ⟨"$a", .bare, 7, .triple⟩
    let finding : Finding := ⟨.missingMark, "$a\", line 7", .bare, 1⟩
    let onLetter : Finding := ⟨.missingMark, "$a", .letter 'r', 7⟩
    let onBare : Finding := ⟨.missingMark, "$a", .bare, 7⟩
    imitation.finding? = some finding ∧ letter.finding? = some onLetter
      ∧ bare.finding? = some onBare
      ∧ finding.render ≠ onLetter.render ∧ onLetter.render = onBare.render := by
  intro imitation letter bare finding onLetter onBare
  have himitation : imitation.finding? = some finding := by decide +kernel
  have hletter : letter.finding? = some onLetter := by decide +kernel
  have hbare : bare.finding? = some onBare := by decide +kernel
  refine ⟨himitation, hletter, hbare, fun halike => ?_, ?_⟩
  · exact absurd ((render_eq_iff himitation hletter).1 halike).2.2.1 (by decide)
  · exact (render_eq_iff hletter hbare).2 ⟨rfl, rfl, rfl, nofun⟩

end Finding

end LiteralLint
