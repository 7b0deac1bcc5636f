import LiteralLint.Text.Utf8
import Mathlib.Algebra.Group.Nat.Defs
import Mathlib.Tactic.SplitIfs

/-! # Decoding Byte by Byte

  What the lossy decoder makes of a byte string, as equations on the first
  byte. The text decoded before does not matter, so that what is decoded from
  a byte on depends only on the sequence that the byte may belong to
  (`foldl_feed`).

  A sequence that the decoder has begun can only be completed to a character
  beyond ASCII: the range of its next byte leaves out whatever would be too
  small, too large, or a surrogate (`Sequence.Sound`).
-/

namespace LiteralLint

namespace Utf8

/-! ### The Rest of the Text -/

/-- The characters that a byte string is decoded to where a sequence may have
    begun. -/
def decodeFrom (sequence? : Option Sequence) (bytes : Bytes) : List Char :=
  (bytes.foldl Decoder.feed ⟨"", sequence?⟩).finish.toList

/-- A character that is added stands after the text before. -/
theorem push_eq (text : String) (c : Char) : text.push c = text ++ "".push c := by
  apply String.ext
  simp

theorem begin_text (text : String) (byte : Nat) :
    Decoder.begin text byte
      = ⟨text ++ (Decoder.begin "" byte).text, (Decoder.begin "" byte).sequence?⟩ := by
  unfold Decoder.begin
  split
  · rw [push_eq]
  · cases lead? byte with
    | none => rw [push_eq]
    | some sequence => rw [String.append_empty]

/-- What a byte adds to the text does not depend on the text before. -/
theorem feed_text (text : String) (sequence? : Option Sequence) (byte : UInt8) :
    Decoder.feed ⟨text, sequence?⟩ byte
      = ⟨text ++ (Decoder.feed ⟨"", sequence?⟩ byte).text,
          (Decoder.feed ⟨"", sequence?⟩ byte).sequence?⟩ := by
  cases sequence? with
  | none => exact begin_text text byte.toNat
  | some sequence =>
    obtain ⟨value, owed, low, high⟩ := sequence
    simp only [Decoder.feed]
    split
    · split
      · rw [push_eq]
      · rw [String.append_empty]
    · rw [begin_text, begin_text ("".push replacement), push_eq, String.append_assoc]

/-- Nor does what a byte string adds. -/
theorem foldl_feed (text : String) (sequence? : Option Sequence) (bytes : Bytes) :
    (bytes.foldl Decoder.feed ⟨text, sequence?⟩).finish.toList
      = text.toList ++ decodeFrom sequence? bytes := by
  induction bytes generalizing text sequence? with
  | nil => cases sequence? <;> simp [decodeFrom, Decoder.finish]
  | cons byte bytes ih =>
    rw [decodeFrom, List.foldl_cons, List.foldl_cons, feed_text, ih,
      feed_text "" sequence? byte, ih]
    simp

/-! ### Byte by Byte -/

section bytes

variable {byte : UInt8} {bytes : Bytes} {sequence : Sequence}

/-- A sequence that the end of the input cuts short is replaced. -/
@[simp] theorem decodeFrom_some_nil (sequence : Sequence) :
    decodeFrom (some sequence) [] = [replacement] := by
  simp [decodeFrom, Decoder.finish]

theorem decodeFrom_cons (sequence? : Option Sequence) (byte : UInt8) (bytes : Bytes) :
    decodeFrom sequence? (byte :: bytes)
      = (Decoder.feed ⟨"", sequence?⟩ byte).text.toList
        ++ decodeFrom (Decoder.feed ⟨"", sequence?⟩ byte).sequence? bytes := by
  rw [decodeFrom, List.foldl_cons, ← foldl_feed]

/-- A byte within ASCII is a character. -/
theorem decodeFrom_ascii (hbyte : byte.toNat < 0x80) :
    decodeFrom none (byte :: bytes) = Char.ofNat byte.toNat :: decodeFrom none bytes := by
  rw [decodeFrom_cons]
  simp [Decoder.feed, Decoder.begin, hbyte]

/-- A byte that leads a sequence adds nothing yet. -/
theorem decodeFrom_lead (hbyte : ¬ byte.toNat < 0x80) (hlead : lead? byte.toNat = some sequence) :
    decodeFrom none (byte :: bytes) = decodeFrom (some sequence) bytes := by
  rw [decodeFrom_cons]
  simp [Decoder.feed, Decoder.begin, hbyte, hlead]

/-- A byte that leads none is replaced. -/
theorem decodeFrom_stray (hbyte : ¬ byte.toNat < 0x80) (hlead : lead? byte.toNat = none) :
    decodeFrom none (byte :: bytes) = replacement :: decodeFrom none bytes := by
  rw [decodeFrom_cons]
  simp [Decoder.feed, Decoder.begin, hbyte, hlead]

/-- The sequence after one more of its bytes. -/
def Sequence.next (sequence : Sequence) (byte : UInt8) : Sequence :=
  ⟨sequence.value * 64 + byte.toNat % 64, sequence.owed - 1, 0x80, 0xBF⟩

/-- The last byte of a sequence completes a character. -/
theorem decodeFrom_last (hrange : sequence.low ≤ byte.toNat ∧ byte.toNat ≤ sequence.high)
    (howed : sequence.owed = 1) :
    decodeFrom (some sequence) (byte :: bytes)
      = Char.ofNat (sequence.next byte).value :: decodeFrom none bytes := by
  obtain ⟨value, owed, low, high⟩ := sequence
  simp only at hrange howed
  rw [decodeFrom_cons]
  simp [Decoder.feed, hrange, howed, Sequence.next]

/-- Any other byte of a sequence adds nothing yet. -/
theorem decodeFrom_next (hrange : sequence.low ≤ byte.toNat ∧ byte.toNat ≤ sequence.high)
    (howed : sequence.owed ≠ 1) :
    decodeFrom (some sequence) (byte :: bytes) = decodeFrom (some (sequence.next byte)) bytes := by
  obtain ⟨value, owed, low, high⟩ := sequence
  simp only at hrange howed
  rw [decodeFrom_cons]
  simp [Decoder.feed, hrange, howed, Sequence.next]

/-- A byte out of range cuts the sequence short, and stands by itself. -/
theorem decodeFrom_cut (hrange : ¬ (sequence.low ≤ byte.toNat ∧ byte.toNat ≤ sequence.high)) :
    decodeFrom (some sequence) (byte :: bytes)
      = replacement :: decodeFrom none (byte :: bytes) := by
  obtain ⟨value, owed, low, high⟩ := sequence
  simp only at hrange
  rw [decodeFrom_cons, decodeFrom_cons]
  simp only [Decoder.feed, hrange, if_false]
  rw [begin_text]
  simp

end bytes

/-! ### What Sequences Are Completed To -/

/-- The least code point that a sequence can be completed to. -/
def Sequence.least (sequence : Sequence) : Nat :=
  (sequence.value * 64 + (sequence.low - 0x80)) * 64 ^ (sequence.owed - 1)

/-- A bound on the code points that a sequence can be completed to, which is
    none of them. -/
def Sequence.bound (sequence : Sequence) : Nat :=
  (sequence.value * 64 + (sequence.high - 0x80) + 1) * 64 ^ (sequence.owed - 1)

/-- A sequence of which the next byte is beyond ASCII, and so is every
    character that it can be completed to. -/
structure Sequence.Sound (sequence : Sequence) : Prop where
  owed : 1 ≤ sequence.owed ∧ sequence.owed ≤ 3
  low : 0x80 ≤ sequence.low
  high : sequence.high ≤ 0xBF
  beyond : 0x80 ≤ sequence.least
  /-- No code point that it can be completed to is a surrogate or too large. -/
  scalar : sequence.bound ≤ 0xD800 ∨ 0xE000 ≤ sequence.least ∧ sequence.bound ≤ 0x110000

variable {sequence : Sequence} {byte : UInt8}

/-- Every lead begins such a sequence. -/
theorem sound_lead {byte : Nat} (h : lead? byte = some sequence) : sequence.Sound := by
  unfold lead? at h
  split_ifs at h
  all_goals
    obtain rfl := Option.some.inj h
    refine ⟨?_, ?_, ?_, ?_, ?_⟩ <;> simp only [Sequence.least, Sequence.bound] <;> omega

/-- A byte in range leaves a part of what a sequence could be completed to. -/
theorem least_next_and_bound_next (h : sequence.Sound)
    (hrange : sequence.low ≤ byte.toNat ∧ byte.toNat ≤ sequence.high) (howed : sequence.owed ≠ 1) :
    sequence.least ≤ (sequence.next byte).least
      ∧ (sequence.next byte).bound ≤ sequence.bound := by
  obtain ⟨value, owed, low, high⟩ := sequence
  obtain ⟨⟨hleast, hmost⟩, hlow, hhigh, -, -⟩ := h
  simp only at hleast hmost hlow hhigh hrange howed
  have hcases : owed = 2 ∨ owed = 3 := by omega
  simp only [Sequence.next, Sequence.least, Sequence.bound]
  generalize byte.toNat = byte at hrange ⊢
  rcases hcases with rfl | rfl
  · simp only [Nat.reduceSub, Nat.reducePow]
    omega
  · simp only [Nat.reduceSub, Nat.reducePow]
    omega

/-- A byte in range goes on with such a sequence. -/
theorem sound_next (h : sequence.Sound)
    (hrange : sequence.low ≤ byte.toNat ∧ byte.toNat ≤ sequence.high) (howed : sequence.owed ≠ 1) :
    (sequence.next byte).Sound := by
  obtain ⟨hleast, hbound⟩ := least_next_and_bound_next h hrange howed
  obtain ⟨⟨hfirst, hmost⟩, hlow, hhigh, hbeyond, hscalar⟩ := h
  refine ⟨?_, Nat.le_refl _, Nat.le_refl _, Nat.le_trans hbeyond hleast, ?_⟩
  · show 1 ≤ sequence.owed - 1 ∧ sequence.owed - 1 ≤ 3
    omega
  · omega

theorem toNat_ofNat {n : Nat} (h : n.isValidChar) : (Char.ofNat n).toNat = n := by
  rw [Char.ofNat, dif_pos h]
  rfl

/-- The last byte completes it to a character beyond ASCII. -/
theorem toNat_last (h : sequence.Sound)
    (hrange : sequence.low ≤ byte.toNat ∧ byte.toNat ≤ sequence.high) (howed : sequence.owed = 1) :
    0x80 ≤ (Char.ofNat (sequence.next byte).value).toNat := by
  obtain ⟨value, owed, low, high⟩ := sequence
  obtain ⟨-, hlow, hhigh, hbeyond, hscalar⟩ := h
  simp only [Sequence.least, Sequence.bound] at *
  subst howed
  have hvalid : (value * 64 + byte.toNat % 64).isValidChar := by
    unfold Nat.isValidChar
    omega
  rw [Sequence.next, toNat_ofNat hvalid]
  omega

end Utf8

end LiteralLint
