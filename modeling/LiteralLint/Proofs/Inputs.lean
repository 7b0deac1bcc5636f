import LiteralLint.Input
import LiteralLint.Proofs.Decoding
import LiteralLint.Proofs.Stacking

/-! # Reading Inputs

  What an input is read as. Bytes that are a text are read as this text, and
  bytes that are not are read line by line: what stands on the other side of a
  line feed has no part in how a line is decoded.

  The key ideas:

  - The bytes of a character lead the decoder through a sequence that owes one
    byte less after each of them, and whose value is the code point but for
    the bits that the bytes still owed will add (`decodeFrom_trail`).
  - A line feed is never a byte that a sequence waits for. To the sequence that
    it cuts short it does what the end of the input would do
    (`feed_lineFeed`), and after it the decoder is where it started.
-/

namespace LiteralLint

namespace Utf8

/-! ### Characters and Their Bytes -/

section characters

variable {sequence : Sequence} {code value owed low high : Nat} {bytes : Bytes}

/-- The byte that carries the last six bits of a number. -/
def trail (code : Nat) : UInt8 := UInt8.ofNat (code % 64 + 128)

theorem toNat_trail (code : Nat) : (trail code).toNat = code % 64 + 128 :=
  UInt8.toNat_ofNat_of_lt (show code % 64 + 128 < 256 by omega)

/-- Such a byte is one that a sequence waits for after its second byte. -/
theorem trail_range (code : Nat) : 0x80 ≤ code % 64 + 128 ∧ code % 64 + 128 ≤ 0xBF := by omega

/-- The byte adds the bits that the number lacks. -/
theorem next_trail (code owed low high : Nat) :
    Sequence.next ⟨code / 64, owed, low, high⟩ (trail code) = ⟨code, owed - 1, 0x80, 0xBF⟩ := by
  have hbits : code / 64 * 64 + (code % 64 + 128) % 64 = code := by omega
  rw [Sequence.next, toNat_trail, hbits]

/-- A trailing byte in range goes on with a sequence that owes more bytes. -/
theorem decodeFrom_trail (hvalue : value = code / 64)
    (hrange : low ≤ code % 64 + 128 ∧ code % 64 + 128 ≤ high) :
    decodeFrom (some ⟨value, owed + 2, low, high⟩) (trail code :: bytes)
      = decodeFrom (some ⟨code, owed + 1, 0x80, 0xBF⟩) bytes := by
  rw [← toNat_trail] at hrange
  rw [decodeFrom_next hrange (by simp), hvalue, next_trail]
  rfl

/-- The last trailing byte completes the character. -/
theorem decodeFrom_lastTrail (hvalue : value = code / 64)
    (hrange : low ≤ code % 64 + 128 ∧ code % 64 + 128 ≤ high) :
    decodeFrom (some ⟨value, 1, low, high⟩) (trail code :: bytes)
      = Char.ofNat code :: decodeFrom none bytes := by
  rw [← toNat_trail] at hrange
  rw [decodeFrom_last hrange rfl, hvalue, next_trail]

/-- The lead of two bytes. -/
theorem lead?_two (hleast : 0x80 ≤ code) (hmost : code ≤ 0x7FF) :
    lead? (code / 64 + 0xC0) = some ⟨code / 64, 1, 0x80, 0xBF⟩ := by
  unfold lead?
  rw [if_pos (by omega), Nat.add_sub_cancel]

/-- The lead of three bytes admits the second one. -/
theorem lead?_three (hleast : 0x800 ≤ code) (hmost : code ≤ 0xFFFF)
    (hscalar : code < 0xD800 ∨ 0xDFFF < code) :
    ∃ low high, lead? (code / 4096 + 0xE0) = some ⟨code / 4096, 2, low, high⟩
      ∧ low ≤ code / 64 % 64 + 128 ∧ code / 64 % 64 + 128 ≤ high := by
  unfold lead?
  rw [if_neg (by omega)]
  -- The leads E0 and ED stand for fewer code points than the others.
  by_cases hfirst : code / 4096 = 0
  · rw [hfirst, if_pos rfl]
    exact ⟨_, _, rfl, by omega, by omega⟩
  rw [if_neg (by omega)]
  by_cases hsurrogate : code / 4096 = 0xD
  · rw [hsurrogate, if_pos rfl]
    exact ⟨_, _, rfl, by omega, by omega⟩
  rw [if_neg (by omega), if_pos (by omega), Nat.add_sub_cancel]
  exact ⟨_, _, rfl, by omega, by omega⟩

/-- The lead of four bytes admits the second one. -/
theorem lead?_four (hleast : 0x10000 ≤ code) (hmost : code ≤ 0x10FFFF) :
    ∃ low high, lead? (code / 262144 + 0xF0) = some ⟨code / 262144, 3, low, high⟩
      ∧ low ≤ code / 4096 % 64 + 128 ∧ code / 4096 % 64 + 128 ≤ high := by
  unfold lead?
  rw [if_neg (by omega), if_neg (by omega), if_neg (by omega), if_neg (by omega)]
  -- The leads F0 and F4 stand for fewer code points than the others.
  by_cases hfirst : code / 262144 = 0
  · rw [hfirst, if_pos rfl]
    exact ⟨_, _, rfl, by omega, by omega⟩
  rw [if_neg (by omega)]
  by_cases hlast : code / 262144 = 4
  · rw [hlast, if_pos rfl]
    exact ⟨_, _, rfl, by omega, by omega⟩
  rw [if_neg (by omega), if_pos (by omega), Nat.add_sub_cancel]
  exact ⟨_, _, rfl, by omega, by omega⟩

/-- A byte that leads a sequence begins it. -/
theorem decodeFrom_ofNat_lead {byte : Nat} (hbyte : 0x80 ≤ byte ∧ byte < 256)
    (hlead : lead? byte = some sequence) :
    decodeFrom none (UInt8.ofNat byte :: bytes) = decodeFrom (some sequence) bytes := by
  have htoNat : (UInt8.ofNat byte).toNat = byte := UInt8.toNat_ofNat_of_lt hbyte.2
  apply decodeFrom_lead
  · rw [htoNat]
    omega
  · rw [htoNat]
    exact hlead

/-- One byte is decoded to the character that it encodes. -/
theorem decodeFrom_one (hmost : code ≤ 0x7F) :
    decodeFrom none (UInt8.ofNat code :: bytes) = Char.ofNat code :: decodeFrom none bytes := by
  have htoNat : (UInt8.ofNat code).toNat = code :=
    UInt8.toNat_ofNat_of_lt (show code < 256 by omega)
  rw [decodeFrom_ascii (by omega), htoNat]

/-- So are two bytes. -/
theorem decodeFrom_two (hleast : 0x80 ≤ code) (hmost : code ≤ 0x7FF) :
    decodeFrom none (UInt8.ofNat (code / 64 % 32 + 0xC0) :: trail code :: bytes)
      = Char.ofNat code :: decodeFrom none bytes := by
  rw [Nat.mod_eq_of_lt (by omega), decodeFrom_ofNat_lead (by omega) (lead?_two hleast hmost)]
  exact decodeFrom_lastTrail rfl (trail_range code)

/-- So are three bytes. -/
theorem decodeFrom_three (hleast : 0x800 ≤ code) (hmost : code ≤ 0xFFFF)
    (hscalar : code < 0xD800 ∨ 0xDFFF < code) :
    decodeFrom none
        (UInt8.ofNat (code / 4096 % 16 + 0xE0) :: trail (code / 64) :: trail code :: bytes)
      = Char.ofNat code :: decodeFrom none bytes := by
  obtain ⟨low, high, hlead, hrange⟩ := lead?_three hleast hmost hscalar
  have hvalue : code / 4096 = code / 64 / 64 := by omega
  rw [Nat.mod_eq_of_lt (by omega), decodeFrom_ofNat_lead (by omega) hlead,
    decodeFrom_trail hvalue hrange]
  exact decodeFrom_lastTrail rfl (trail_range code)

/-- So are four bytes. -/
theorem decodeFrom_four (hleast : 0x10000 ≤ code) (hmost : code ≤ 0x10FFFF) :
    decodeFrom none
        (UInt8.ofNat (code / 262144 % 8 + 0xF0) :: trail (code / 4096) :: trail (code / 64)
          :: trail code :: bytes)
      = Char.ofNat code :: decodeFrom none bytes := by
  obtain ⟨low, high, hlead, hrange⟩ := lead?_four hleast hmost
  have hvalue : code / 262144 = code / 4096 / 64 := by omega
  have hvalue' : code / 4096 = code / 64 / 64 := by omega
  rw [Nat.mod_eq_of_lt (by omega), decodeFrom_ofNat_lead (by omega) hlead,
    decodeFrom_trail hvalue hrange, decodeFrom_trail hvalue' (trail_range _)]
  exact decodeFrom_lastTrail rfl (trail_range code)

end characters

/-- The bytes of a character are decoded to the character. -/
theorem decodeFrom_encodeChar (c : Char) (bytes : Bytes) :
    decodeFrom none (String.utf8EncodeChar c ++ bytes) = c :: decodeFrom none bytes := by
  -- The code point of a character is not a surrogate and not too large.
  have hscalar : c.val.toNat < 0xD800 ∨ 0xDFFF < c.val.toNat ∧ c.val.toNat < 0x110000 := c.valid
  have hchar : Char.ofNat c.val.toNat = c := Char.ofNat_toNat c
  unfold String.utf8EncodeChar
  generalize c.val.toNat = code at hscalar hchar ⊢
  subst hchar
  by_cases hone : code ≤ 0x7F
  · simp only [hone, if_true]
    exact decodeFrom_one hone
  by_cases htwo : code ≤ 0x7FF
  · simp only [hone, htwo, if_true, if_false]
    exact decodeFrom_two (by omega) htwo
  by_cases hthree : code ≤ 0xFFFF
  · simp only [hone, htwo, hthree, if_true, if_false]
    exact decodeFrom_three (by omega) hthree (by omega)
  · simp only [hone, htwo, hthree, if_false]
    exact decodeFrom_four (by omega) (by omega)

/-- **To decode undoes to encode.** -/
theorem decode_encode (text : String) : decode (encode text) = text := by
  have hchars : ∀ chars : List Char,
      decodeFrom none (chars.flatMap String.utf8EncodeChar) = chars := by
    intro chars
    induction chars with
    | nil => rfl
    | cons c chars ih => rw [List.flatMap_cons, decodeFrom_encodeChar, ih]
  apply String.ext
  exact hchars text.toList

/-! ### Lines of Bytes -/

/-- A decoder in which only a sequence can have begun that waits for a byte
    beyond ASCII. -/
def Decoder.Sound (d : Decoder) : Prop := ∀ sequence ∈ d.sequence?, sequence.Sound

theorem sound_begin (text : String) (byte : Nat) : (Decoder.begin text byte).Sound := by
  intro sequence hsequence
  unfold Decoder.begin at hsequence
  split at hsequence
  · cases hsequence
  · cases hlead : lead? byte with
    | none =>
      rw [hlead] at hsequence
      cases hsequence
    | some begun =>
      rw [hlead] at hsequence
      obtain rfl := Option.some.inj hsequence
      exact sound_lead hlead

/-- Every byte leaves such a decoder. -/
theorem sound_feed {d : Decoder} (h : d.Sound) (byte : UInt8) : (d.feed byte).Sound := by
  obtain ⟨text, sequence?⟩ := d
  cases sequence? with
  | none => exact sound_begin text byte.toNat
  | some sequence =>
    obtain ⟨value, owed, low, high⟩ := sequence
    have hsound := h _ rfl
    by_cases hrange : low ≤ byte.toNat ∧ byte.toNat ≤ high
    · by_cases howed : owed = 1
      · simp [Decoder.feed, hrange, howed, Decoder.Sound]
      · -- The sequence that goes on is the next one.
        have hnext := sound_next hsound hrange howed
        intro next hmem
        simp only [Decoder.feed, hrange, howed, and_self, if_true, if_false] at hmem
        obtain rfl := Option.some.inj hmem
        exact hnext
    · simp only [Decoder.feed, hrange, if_false]
      exact sound_begin _ byte.toNat

/-- And so do any number of bytes. -/
theorem sound_foldl {d : Decoder} (h : d.Sound) (bytes : Bytes) :
    (bytes.foldl Decoder.feed d).Sound := by
  induction bytes generalizing d with
  | nil => exact h
  | cons byte bytes ih => exact ih (sound_feed h byte)

/-- The byte of a line feed. -/
def lineFeed : UInt8 := 0x0A

/-- A line feed is decoded as though the input ended before it. -/
theorem feed_lineFeed {d : Decoder} (h : d.Sound) :
    d.feed lineFeed = ⟨d.finish ++ "\n", none⟩ := by
  obtain ⟨text, sequence?⟩ := d
  cases sequence? with
  | none => rfl
  | some sequence =>
    -- The sequence is cut short, as it waits for no ASCII byte.
    obtain ⟨value, owed, low, high⟩ := sequence
    have hlow : 0x80 ≤ low := (h _ rfl).low
    have hrange : ¬ (low ≤ lineFeed.toNat ∧ lineFeed.toNat ≤ high) := by
      have hfeed : lineFeed.toNat = 10 := rfl
      omega
    simp only [Decoder.feed, hrange, if_false]
    rfl

/-- **Bytes are decoded line by line.** -/
theorem decode_append_lineFeed (above below : Bytes) :
    decode (above ++ [lineFeed] ++ below) = decode above ++ "\n" ++ decode below := by
  have hstart : Decoder.start.Sound := nofun
  have habove := feed_lineFeed (sound_foldl hstart above)
  apply String.ext
  rw [String.toList_append, decode, List.foldl_append, List.foldl_append, List.foldl_cons,
    List.foldl_nil, habove, foldl_feed]
  rfl

/-- A line feed at the end of bytes is one at the end of the text. -/
theorem decode_concat_lineFeed (above : Bytes) :
    decode (above ++ [lineFeed]) = decode above ++ "\n" := by
  have hnone := decode_append_lineFeed above []
  rw [List.append_nil] at hnone
  rw [hnone]
  exact String.append_empty

end Utf8

/-! ### Numbered Lines -/

/-- A line `lines` lines further down. -/
def Line.below (lines : Nat) (line : Line) : Line := { line with number := line.number + lines }

namespace Source

/-- The lines of the lower source are numbered on from those of the upper
    one. -/
theorem numbered_stack (above below : Source) :
    (above.stack below).numbered = above.numbered ++ below.numbered.map (.below above.size) := by
  unfold numbered stack size
  rw [Array.toList_append, List.zipIdx_append, List.map_append, List.map_map,
    Array.length_toList]
  congr 1
  rw [Nat.add_comm, ← List.map_snd_add_zipIdx_eq_zipIdx, List.map_map]
  rfl

/-- A byte string that is cut after a line feed is two sources, one above the
    other. -/
theorem ofText_decode_lineFeed (above below : Bytes) :
    ofText (Utf8.decode (above ++ [Utf8.lineFeed] ++ below))
      = (ofText (Utf8.decode (above ++ [Utf8.lineFeed]))).stack (ofText (Utf8.decode below)) := by
  rw [Utf8.decode_append_lineFeed, Utf8.decode_concat_lineFeed, ofText_append_feed]

end Source

/-! ### Inputs -/

namespace Input

/-- Read an input. -/
def read (input : Input) (stdin : Except Fault Bytes) (files : FileTree) :
    Except Failure Source :=
  input.source (input.fetch stdin files)

variable {stdin : Except Fault Bytes} {files : FileTree}

theorem read_of_fetch {input : Input} {bytes : Bytes} (h : input.fetch stdin files = .ok bytes) :
    input.read stdin files = .ok (.ofText (Utf8.decode bytes)) := by
  unfold read
  rw [h]
  rfl

/-- **Text is read as it is, and bytes are read line by line.** An input that
    holds the bytes of a text is read as the text. Of inputs of which one holds
    what the other two hold, cut after a line feed, it has the lines of the
    first of these and below them the lines of the second one; this is so for
    any bytes. -/
theorem read_lines (stdin : Except Fault Bytes) (files : FileTree) :
    (∀ (input : Input) (text : String), input.fetch stdin files = .ok (Utf8.encode text) →
        input.read stdin files = .ok (.ofText text))
      ∧ ∀ (whole upper lower : Input) (above below : Bytes),
        whole.fetch stdin files = .ok (above ++ [Utf8.lineFeed] ++ below) →
        upper.fetch stdin files = .ok (above ++ [Utf8.lineFeed]) →
        lower.fetch stdin files = .ok below →
        ∃ source sourceAbove sourceBelow : Source,
          whole.read stdin files = .ok source
            ∧ upper.read stdin files = .ok sourceAbove
            ∧ lower.read stdin files = .ok sourceBelow
            ∧ source.numbered
              = sourceAbove.numbered ++ sourceBelow.numbered.map (.below sourceAbove.size) := by
  refine ⟨?_, ?_⟩
  · intro input text hfetch
    rw [read_of_fetch hfetch, Utf8.decode_encode]
  · intro whole upper lower above below hwhole hupper hlower
    refine ⟨_, _, _, read_of_fetch hwhole, read_of_fetch hupper, read_of_fetch hlower, ?_⟩
    rw [Source.ofText_decode_lineFeed, Source.numbered_stack]

/-- A sequence of three bytes is cut by a line feed. -/
theorem read_lines_cut_sequence :
    let place (name : String) : List Bytes := [Utf8.encode name]
    let path (name : String) : Input := .file (Utf8.encode name)
    let files : FileTree :=
      ⟨[], [(place "text", .file (Utf8.encode "s\"é\"\r\n€")),
        (place "whole", .file [0x22, 0xE2, 0x82, 0x0A, 0xAC, 0x22]),
        (place "upper", .file [0x22, 0xE2, 0x82, 0x0A]),
        (place "lower", .file [0xAC, 0x22])]⟩
    (path "text").read (.ok []) files = .ok ⟨#["s\"é\"", "€"]⟩
      ∧ ∃ source sourceAbove sourceBelow : Source,
        (path "whole").read (.ok []) files = .ok source
          ∧ (path "upper").read (.ok []) files = .ok sourceAbove
          ∧ (path "lower").read (.ok []) files = .ok sourceBelow
          ∧ source.numbered
            = sourceAbove.numbered ++ sourceBelow.numbered.map (.below sourceAbove.size)
          ∧ source.lines = #["\"\uFFFD", "\uFFFD\""] := by
  intro place path files
  obtain ⟨htext, hlines⟩ := read_lines (.ok []) files
  obtain ⟨source, sourceAbove, sourceBelow, hsource, habove, hbelow, hnumbered⟩ :=
    hlines (path "whole") (path "upper") (path "lower") [0x22, 0xE2, 0x82] [0xAC, 0x22]
      (by decide +kernel) (by decide +kernel) (by decide +kernel)
  have hread : (path "whole").read (.ok []) files = .ok ⟨#["\"\uFFFD", "\uFFFD\""]⟩ := by
    decide +kernel
  obtain rfl := Except.ok.inj (hread.symm.trans hsource)
  refine ⟨?_, _, _, _, hsource, habove, hbelow, hnumbered, rfl⟩
  rw [htext (path "text") "s\"é\"\r\n€" (by decide +kernel)]
  decide +kernel

end Input

end LiteralLint
