/-! # UTF-8

  Text as bytes and bytes as text. Encoding is exact. Decoding is lossy and
  never fails: each maximal part of the input that starts a well-formed
  sequence but does not complete it becomes one replacement character, and
  so does each byte that starts none.

  Decoding is a machine that is fed one byte at a time:

  - Between characters, a byte is either a character by itself, the lead of
    a longer sequence, or ill-formed.
  - Inside a sequence, the next byte must lie in a range that the lead fixes
    for the second byte (this excludes overlong forms, surrogates, and
    values above U+10FFFF) and that is 80..BF afterwards.
  - A byte outside its range cuts the sequence short and is then read as
    though it stood between characters.

  A byte below 80 is therefore never absorbed by a sequence.
-/

namespace LiteralLint

/-- A byte string. -/
abbrev Bytes := List UInt8

namespace Utf8

/-! ### Encoding -/

/-- The UTF-8 form of a text. -/
def encode (text : String) : Bytes :=
  text.toList.flatMap String.utf8EncodeChar

/-! ### The Decoder's State -/

/-- The character that stands for an ill-formed part of the input. -/
def replacement : Char := '\uFFFD'

/-- A sequence of several bytes that has begun and is not yet complete. -/
structure Sequence where
  /-- The bits of the code point read so far. -/
  value : Nat
  /-- How many bytes are still owed, at least one. -/
  owed : Nat
  /-- The least value the next byte may have. -/
  low : Nat
  /-- The greatest value the next byte may have. -/
  high : Nat
  deriving DecidableEq, Repr

/-- The state of the decoder between two bytes. -/
structure Decoder where
  /-- The text decoded so far. -/
  text : String
  /-- The sequence the last byte belongs to, unless that byte completed a
      character. -/
  sequence? : Option Sequence
  deriving DecidableEq, Repr

/-- The decoder before the first byte. -/
def Decoder.start : Decoder := ⟨"", none⟩

/-! ### Transitions -/

/-- The sequence of several bytes that a lead byte begins. The bytes C0, C1,
    and F5 to FF begin none: all their sequences would be overlong or exceed
    U+10FFFF. -/
def lead? (byte : Nat) : Option Sequence :=
  if 0xC2 ≤ byte ∧ byte ≤ 0xDF then some ⟨byte - 0xC0, 1, 0x80, 0xBF⟩
  else if byte = 0xE0 then some ⟨0, 2, 0xA0, 0xBF⟩
  else if byte = 0xED then some ⟨0xD, 2, 0x80, 0x9F⟩
  else if 0xE1 ≤ byte ∧ byte ≤ 0xEF then some ⟨byte - 0xE0, 2, 0x80, 0xBF⟩
  else if byte = 0xF0 then some ⟨0, 3, 0x90, 0xBF⟩
  else if byte = 0xF4 then some ⟨4, 3, 0x80, 0x8F⟩
  else if 0xF1 ≤ byte ∧ byte ≤ 0xF3 then some ⟨byte - 0xF0, 3, 0x80, 0xBF⟩
  else none

/-- Feed a byte that stands between characters. -/
def Decoder.begin (text : String) (byte : Nat) : Decoder :=
  if byte < 0x80 then ⟨text.push (Char.ofNat byte), none⟩
  else
    match lead? byte with
    | some sequence => ⟨text, some sequence⟩
    | none => ⟨text.push replacement, none⟩

/-- Feed one byte. -/
def Decoder.feed (d : Decoder) (byte : UInt8) : Decoder :=
  match d.sequence? with
  | none => .begin d.text byte.toNat
  | some ⟨value, owed, low, high⟩ =>
    if low ≤ byte.toNat ∧ byte.toNat ≤ high then
      let value := value * 64 + byte.toNat % 64
      if owed = 1 then ⟨d.text.push (Char.ofNat value), none⟩
      else ⟨d.text, some ⟨value, owed - 1, 0x80, 0xBF⟩⟩
    else .begin (d.text.push replacement) byte.toNat

/-- The text once the input has ended; a sequence cut short by the end is
    ill-formed. -/
def Decoder.finish (d : Decoder) : String :=
  match d.sequence? with
  | none => d.text
  | some _ => d.text.push replacement

/-! ### Decoding -/

/-- The text that a byte string holds, with ill-formed parts replaced. -/
def decode (bytes : Bytes) : String :=
  (bytes.foldl Decoder.feed .start).finish

/-- A sequence that is cut short is replaced as a whole, and what cuts it short
    is kept. -/
example : decode [0x24, 0xE2, 0x82, 0x22, 0xF0, 0x9F, 0x98] = "$\uFFFD\"\uFFFD" := by
  decide +kernel

/-- Bytes that no sequence can begin with, and second bytes that its lead does
    not allow, are replaced one by one. -/
example : decode [0xC0, 0x80, 0xED, 0xA0, 0x80] = "\uFFFD\uFFFD\uFFFD\uFFFD\uFFFD" := by
  decide +kernel

end Utf8

end LiteralLint
