import LiteralLint.Literal
import LiteralLint.Source

/-! # Scan States

  A scan walks a source from its first character to its last and looks for
  string literals. Its state between two steps says how far it has come and
  what it is inside of:

  - The current line, split into the characters passed and the characters
    still ahead, and the lines not yet entered.
  - The region: outside every literal, or inside one that is open.

  Characters that were passed are kept latest first, so that the nearest one
  is the head of its list.
-/

namespace LiteralLint

namespace Scan

/-! ### Openings -/

/-- Where a literal opens. -/
structure Opening where
  /-- The number of the line that holds the opening quote. -/
  line : Nat
  /-- The characters of that line before the opening quote, nearest first. -/
  before : List Char
  deriving DecidableEq, Repr

/-- The mark of the literal that opens here. -/
def Opening.mark (opening : Opening) : Mark :=
  .ofPreceding opening.before.head?

/-! ### Regions -/

/-- What a scan is inside of. The content of an open literal is kept latest
    character first. -/
inductive Region
  /-- No literal is open. -/
  | outside
  /-- A single literal is open; `escaped` says that the next character is
      escaped, that is, follows a backslash which is not itself escaped. -/
  | single (opening : Opening) (content : List Char) (escaped : Bool)
  /-- A triple literal is open; the last `quotes` characters were quotes that
      are not yet part of the content, because they may begin the closing
      delimiter. -/
  | triple (opening : Opening) (content : List Char) (quotes : Nat)
  deriving DecidableEq, Repr

/-- The delimiter of the literal that is open. -/
def Region.delimiter? : Region → Option Delimiter
  | .outside => none
  | .single .. => some .single
  | .triple .. => some .triple

/-- Where the literal opened that is open. -/
def Region.opening? : Region → Option Opening
  | .outside => none
  | .single opening .. => some opening
  | .triple opening .. => some opening

/-- The content of a triple literal, latest character first, once the quotes
    held back have turned out to be part of it. -/
def withQuotes (quotes : Nat) (content : List Char) : List Char :=
  List.replicate quotes '"' ++ content

/-! ### States -/

/-- The state of a scan between two steps. -/
structure State where
  /-- The number of the current line, 0 before the first line is entered. -/
  line : Nat
  /-- The characters of the current line already passed, latest first. -/
  passed : List Char
  /-- The characters of the current line still ahead. -/
  rest : List Char
  /-- The lines not yet entered. -/
  pending : List String
  /-- What the scan is inside of. -/
  region : Region
  deriving DecidableEq, Repr

namespace State

/-- The state before a source is scanned. -/
def initial (source : Source) : State :=
  ⟨0, [], [], source.lines.toList, .outside⟩

/-- The state at the start of the next line. -/
def enter (s : State) (text : String) (pending : List String) (region : Region) : State :=
  ⟨s.line + 1, [], text.toList, pending, region⟩

/-- An upper bound on the steps that a scan can still take: two for each
    character ahead, one for each line to enter, and one for dropping a
    literal that is open. -/
def work (s : State) : Nat :=
  2 * s.rest.length
    + s.pending.foldr (fun text work => 2 * text.toList.length + 1 + work) 0
    + match s.region with
      | .outside => 0
      | .single .. | .triple .. => 1

end State

end Scan

end LiteralLint
