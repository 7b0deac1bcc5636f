/-! # Source Text

  The text to be checked, as numbered lines.

  A line ends at a line feed, and one carriage return directly before the
  line feed belongs to the line end. Any other carriage return is an ordinary
  character, also one that ends the text. A line end that ends the text
  starts no further line, so the empty text has no lines.
-/

namespace LiteralLint

/-- A line of a source, without its line end. -/
structure Line where
  /-- The position in the source; the first line has number 1. -/
  number : Nat
  /-- The characters of the line. -/
  text : String
  deriving DecidableEq, Repr

/-- A text split into lines. -/
structure Source where
  /-- The texts of the lines, in order. -/
  lines : Array String
  deriving DecidableEq, Repr

namespace Source

/-- The source without lines. -/
def empty : Source := ⟨#[]⟩

instance : Inhabited Source := ⟨empty⟩

/-! ### Splitting -/

/-- A line's text from its characters, latest first, when a line feed has
    ended it: one carriage return at the end is dropped. -/
def endedLine : List Char → String
  | '\r' :: line => String.ofList line.reverse
  | line => String.ofList line.reverse

/-- The lines of a text of which `done` and `line` have been read: `done` are
    the lines already ended, `line` the characters of the next one, latest
    first. -/
def splitAfter (done : Array String) (line : List Char) : List Char → Array String
  | [] => if line.isEmpty then done else done.push (String.ofList line.reverse)
  | c :: rest =>
    if c = '\n' then splitAfter (done.push (endedLine line)) [] rest
    else splitAfter done (c :: line) rest

/-- Lines already ended do not affect the lines still to come. -/
theorem splitAfter_eq (done : Array String) (line rest : List Char) :
    splitAfter done line rest = done ++ splitAfter #[] line rest := by
  induction rest generalizing done line with
  | nil => by_cases h : line.isEmpty <;> simp [splitAfter, h]
  | cons c rest ih =>
    by_cases h : c = '\n'
    · simp [splitAfter, h, ih (done.push (endedLine line)), ih #[endedLine line]]
    · simp [splitAfter, h, ih done (c :: line)]

/-- The source that a text holds. -/
def ofText (text : String) : Source :=
  ⟨splitAfter #[] [] text.toList⟩

/-- Both line ends split, and the last line needs none. -/
example : (ofText "one\r\n\ntwo").lines = #["one", "", "two"] := by decide +kernel

/-- One carriage return belongs to the line end, and one at the end of the
    text does not. -/
example : (ofText "\r\r\n\r").lines = #["\r", "\r"] := by decide +kernel

/-! ### Lookup -/

/-- The number of lines. -/
def size (source : Source) : Nat := source.lines.size

/-- The lines with their numbers. -/
def numbered (source : Source) : List Line :=
  (source.lines.toList.zipIdx 1).map fun (text, number) => ⟨number, text⟩

/-- Whether `number` is the number of a line. -/
def contains (source : Source) (number : Nat) : Bool :=
  1 ≤ number && number ≤ source.size

/-- The line with a given number; there is no line 0. -/
def line? (source : Source) (number : Nat) : Option Line :=
  if number = 0 then none
  else source.lines[number - 1]?.map fun text => ⟨number, text⟩

end Source

end LiteralLint
