import LiteralLint.Proofs.BlurredScan
import LiteralLint.Proofs.Decoding
import LiteralLint.Proofs.ExitStatus
import Mathlib.Data.List.Forall2

/-! # The ASCII Skeleton of an Input

  The findings of an input depend on its ASCII bytes and on where other bytes
  stand between them, but neither on what the other bytes are nor on whether
  they are text.

  The key ideas:

  - A run of bytes beyond ASCII is decoded to a run of characters beyond
    ASCII, which is not empty, and the bytes around it are decoded as though it
    were not there. So the blurred text of an input is its skeleton, written
    with characters (`blur_decodeFrom`).
  - The blurred text of an input has the literals and findings of the input,
    blurred, and blurring changes no line, no delimiter, no kind of finding,
    and not whether a mark interpolates.
-/

namespace LiteralLint

namespace Utf8

/-! ### Skeletons -/

/-- A byte string with each run of bytes beyond ASCII replaced by one marker,
    which is `none`. If the byte string goes on `within` a run, nothing is put
    for the rest of that run. -/
def skeletonFrom (within : Bool) : Bytes → List (Option UInt8)
  | [] => []
  | byte :: rest =>
    if byte.toNat < 0x80 then some byte :: skeletonFrom false rest
    else if within then skeletonFrom true rest
    else none :: skeletonFrom true rest

/-- A byte string with each run of bytes beyond ASCII replaced by one
    marker. -/
def skeleton (bytes : Bytes) : List (Option UInt8) := skeletonFrom false bytes

/-- A marker stands for a whole run, and every ASCII byte for itself. -/
example :
    skeleton [0x24, 0xC3, 0xA9, 0xFF, 0x22, 0x80]
      = [some 0x24, none, some 0x22, none] := by
  decide

/-- A part of a skeleton as a character. -/
def skeletonChar : Option UInt8 → Char
  | some byte => Char.ofNat byte.toNat
  | none => replacement

/-- What is put where a run begins. -/
def runStart (within : Bool) : List Char := if within then [] else [replacement]

theorem skeletonFrom_beyond {byte : UInt8} (hbyte : ¬ byte.toNat < 0x80) (within : Bool)
    (bytes : Bytes) :
    (skeletonFrom within (byte :: bytes)).map skeletonChar
      = runStart within ++ (skeletonFrom true bytes).map skeletonChar := by
  cases within <;> simp [skeletonFrom, hbyte, runStart, skeletonChar]

theorem blur_cons_beyond {c : Char} (hc : isAscii c = false) (within : Bool) (rest : List Char) :
    blur within (c :: rest) = runStart within ++ blur true rest := by
  cases within <;> simp [blur, hc, runStart]

/-- An ASCII byte is an ASCII character. -/
theorem isAscii_ofNat {byte : UInt8} (hbyte : byte.toNat < 0x80) :
    isAscii (Char.ofNat byte.toNat) = true := by
  have hvalid : byte.toNat.isValidChar := .inl (by omega)
  simpa [isAscii, toNat_ofNat hvalid] using hbyte

/-- **The blurred text of a byte string is its skeleton.** A sequence that has
    begun is the beginning of a run. -/
theorem blur_decodeFrom (bytes : Bytes) :
    (∀ within, blur within (decodeFrom none bytes)
        = (skeletonFrom within bytes).map skeletonChar)
      ∧ ∀ sequence : Sequence, sequence.Sound → ∀ within,
          blur within (decodeFrom (some sequence) bytes)
            = runStart within ++ (skeletonFrom true bytes).map skeletonChar := by
  induction bytes with
  | nil =>
    refine ⟨fun within => rfl, fun sequence _ within => ?_⟩
    rw [decodeFrom_some_nil, blur_cons_beyond isAscii_replacement]
    rfl
  | cons byte bytes ih =>
    obtain ⟨hbetween, hbegun⟩ := ih
    have hfirst : ∀ within, blur within (decodeFrom none (byte :: bytes))
        = (skeletonFrom within (byte :: bytes)).map skeletonChar := by
      intro within
      by_cases hbyte : byte.toNat < 0x80
      · rw [decodeFrom_ascii hbyte, blur_ascii (isAscii_ofNat hbyte), hbetween]
        simp [skeletonFrom, hbyte, skeletonChar]
      · rw [skeletonFrom_beyond hbyte]
        cases hlead : lead? byte.toNat with
        | none =>
          rw [decodeFrom_stray hbyte hlead, blur_cons_beyond isAscii_replacement, hbetween]
        | some sequence =>
          rw [decodeFrom_lead hbyte hlead, hbegun sequence (sound_lead hlead)]
    refine ⟨hfirst, fun sequence hsound within => ?_⟩
    by_cases hrange : sequence.low ≤ byte.toNat ∧ byte.toNat ≤ sequence.high
    · have hbyte : ¬ byte.toNat < 0x80 := by
        have hlow := hsound.low
        omega
      have hwithin := skeletonFrom_beyond hbyte true bytes
      rw [runStart, if_pos rfl, List.nil_append] at hwithin
      rw [hwithin]
      by_cases howed : sequence.owed = 1
      · have hbeyond : isAscii (Char.ofNat (sequence.next byte).value) = false := by
          simpa [isAscii] using toNat_last hsound hrange howed
        rw [decodeFrom_last hrange howed, blur_cons_beyond hbeyond, hbetween]
      · rw [decodeFrom_next hrange howed, hbegun _ (sound_next hsound hrange howed)]
    · -- The byte is read again, as the next one of the run or as what ends it.
      rw [decodeFrom_cut hrange, blur_cons_beyond isAscii_replacement, hfirst]

/-- Byte strings with one skeleton have one blurred text. -/
theorem blurText_decode {first second : Bytes} (h : skeleton first = skeleton second) :
    blurText (decode first) = blurText (decode second) := by
  have hblur : ∀ bytes, blur false (decode bytes).toList = (skeleton bytes).map skeletonChar :=
    fun bytes => (blur_decodeFrom bytes).1 false
  rw [blurText, blurText, hblur, hblur, h]

end Utf8

/-! ### What Blurring Leaves -/

/-- Two literals that differ at most in their content and in a letter that does
    not interpolate. -/
def Literal.Alike (literal other : Literal) : Prop :=
  literal.line = other.line ∧ literal.delimiter = other.delimiter
    ∧ literal.mark.interpolates = other.mark.interpolates

/-- Two findings of one kind on one line. -/
def Finding.Alike (finding other : Finding) : Prop :=
  finding.kind = other.kind ∧ finding.line = other.line

theorem Literal.alike_of_blurred_eq {literal other : Literal}
    (h : literal.blurred = other.blurred) : literal.Alike other := by
  have hline : literal.blurred.line = other.blurred.line := congrArg Literal.line h
  have hdelimiter : literal.blurred.delimiter = other.blurred.delimiter :=
    congrArg Literal.delimiter h
  refine ⟨hline, hdelimiter, ?_⟩
  rw [← Mark.interpolates_blurred, ← Mark.interpolates_blurred other.mark]
  exact congrArg (fun literal => literal.mark.interpolates) h

theorem Finding.alike_of_blurred_eq {finding other : Finding}
    (h : finding.blurred = other.blurred) : finding.Alike other := by
  have hkind : finding.blurred.kind = other.blurred.kind := congrArg Finding.kind h
  have hline : finding.blurred.line = other.blurred.line := congrArg Finding.line h
  exact ⟨hkind, hline⟩

/-- Lists that are the same once blurred have elements that are pairwise the
    same once blurred. -/
theorem forall₂_of_map_eq {α β : Type} {blurred : α → β} {alike : α → α → Prop}
    (halike : ∀ {x y}, blurred x = blurred y → alike x y) {xs ys : List α}
    (h : xs.map blurred = ys.map blurred) : List.Forall₂ alike xs ys := by
  have heq : List.Forall₂ (· = ·) (xs.map blurred) (ys.map blurred) := by
    rw [List.forall₂_eq_eq_eq]
    exact h
  rw [List.forall₂_map_left_iff, List.forall₂_map_right_iff] at heq
  exact heq.imp fun _ _ => halike

/-! ### Inputs with One Skeleton -/

/-- **Findings depend on the ASCII skeleton only.** Two byte strings with one
    skeleton are read as sources with equally many lines, with literals that
    agree in line, delimiter, and whether their marks interpolate, and with
    findings that agree in kind and line, so that the counts and the exit codes
    are equal. -/
theorem Input.findings_of_skeleton {first second : Bytes}
    (h : Utf8.skeleton first = Utf8.skeleton second) (input other : Input) :
    ∃ source source' : Source,
      input.source (.ok first) = .ok source
        ∧ other.source (.ok second) = .ok source'
        ∧ source.size = source'.size
        ∧ List.Forall₂ Literal.Alike source.literals source'.literals
        ∧ (∃ findings findings' : List Finding,
            source.check.outcome = .ok findings
              ∧ source'.check.outcome = .ok findings'
              ∧ List.Forall₂ Finding.Alike findings findings')
        ∧ (source.lint {}).1 = (source'.lint {}).1
        ∧ (Command.lint input (.ok first) {}).code = (Command.lint other (.ok second) {}).code := by
  have hblurred : (Source.ofText (Utf8.decode first)).blurred
      = (Source.ofText (Utf8.decode second)).blurred := by
    rw [← Source.ofText_blurText, ← Source.ofText_blurText, Utf8.blurText_decode h]
  have hsize : (Source.ofText (Utf8.decode first)).size
      = (Source.ofText (Utf8.decode second)).size := by
    rw [← Source.size_blurred, hblurred, Source.size_blurred]
  have hliterals : (Source.ofText (Utf8.decode first)).literals.map Literal.blurred
      = (Source.ofText (Utf8.decode second)).literals.map Literal.blurred := by
    rw [← Source.literals_blurred, hblurred, Source.literals_blurred]
  have hfindings : (Source.ofText (Utf8.decode first)).findings.map Finding.blurred
      = (Source.ofText (Utf8.decode second)).findings.map Finding.blurred := by
    rw [← Source.findings_blurred, hblurred, Source.findings_blurred]
  have hcount : (Source.ofText (Utf8.decode first)).findings.length
      = (Source.ofText (Utf8.decode second)).findings.length := by
    simpa using congrArg List.length hfindings
  refine ⟨_, _, rfl, rfl, hsize, forall₂_of_map_eq Literal.alike_of_blurred_eq hliterals,
    ⟨_, _, Source.outcome_check _, Source.outcome_check _,
      forall₂_of_map_eq Finding.alike_of_blurred_eq hfindings⟩, ?_, ?_⟩
  · rw [Source.lint_unlimited, Source.lint_unlimited, hcount]
  · rw [Command.code_lint_unlimited, Command.code_lint_unlimited, hcount]

/-- A letter before a quote, and a character within it, are exchanged for a
    byte that is no text and for a sequence that is cut short. -/
theorem Input.findings_of_skeleton_exchanged :
    let first : Bytes := Utf8.encode "é\"ß$x\""
    let second : Bytes := [0xFF, 0x22, 0xE2, 0x82, 0x24, 0x78, 0x22]
    Utf8.skeleton first = Utf8.skeleton second
      ∧ (Command.lint .stdin (.ok first) {}).code = 1
      ∧ (Command.lint .stdin (.ok second) {}).code = 1 := by
  intro first second
  have hskeleton : Utf8.skeleton first = Utf8.skeleton second := by decide
  obtain ⟨-, -, -, -, -, -, -, -, hcode⟩ := findings_of_skeleton hskeleton .stdin .stdin
  have hfirst : (Command.lint .stdin (.ok first) {}).code = 1 := by
    rw [Command.code_lint_unlimited]
    decide +kernel
  exact ⟨hskeleton, hfirst, hcode ▸ hfirst⟩

end LiteralLint
