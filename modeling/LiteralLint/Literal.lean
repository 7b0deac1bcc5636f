import LiteralLint.Text.Alphabetic

/-! # Marks and Literals

  A string literal as a scan finds it: its content, its mark, the line on
  which it opens, and its delimiter.

  The mark is the alphabetic character directly before the opening quote.
  Two marks interpolate: `s` substitutes variables, `f` also formats them.
  Every other letter belongs to an identifier or to an interpolator that
  this library knows nothing about.
-/

namespace LiteralLint

/-! ### Marks -/

/-- What stands directly before the opening quote of a literal. -/
inductive Mark
  /-- No alphabetic character: the literal is a bare string. -/
  | bare
  /-- The substituting interpolator `s`. -/
  | s
  /-- The formatting interpolator `f`. -/
  | f
  /-- Another letter, which has no meaning here. -/
  | letter (c : Char)
  deriving DecidableEq, Repr

namespace Mark

/-- The mark of a literal from the character before its opening quote, which
    is `none` where the quote starts its line. -/
def ofPreceding : Option Char → Mark
  | none => .bare
  | some c =>
    if c = 's' then .s
    else if c = 'f' then .f
    else if isAlphabetic c then .letter c
    else .bare

/-- Whether a literal with this mark substitutes variables. -/
def interpolates : Mark → Bool
  | .s | .f => true
  | .bare | .letter _ => false

/-- The character the mark is written with. -/
def letter? : Mark → Option Char
  | .bare => none
  | .s => some 's'
  | .f => some 'f'
  | .letter c => some c

/-- The mark as it is written before the quote. -/
def text (mark : Mark) : String :=
  String.ofList mark.letter?.toList

end Mark

/-! ### Literals -/

/-- The quotes that delimit a literal. -/
inductive Delimiter
  /-- One quote. The literal ends on its line, and a backslash escapes the
      character after it. -/
  | single
  /-- Three quotes. The literal may span lines, and nothing is escaped. -/
  | triple
  deriving DecidableEq, Repr

/-- A string literal that was opened and closed. -/
structure Literal where
  /-- The characters between the delimiters, escapes left as written; line
      ends inside a triple literal are line feeds. -/
  content : String
  /-- The mark before the opening delimiter. -/
  mark : Mark
  /-- The number of the line that holds the opening delimiter. -/
  line : Nat
  /-- The delimiter that opens and closes the literal. -/
  delimiter : Delimiter
  deriving DecidableEq, Repr

end LiteralLint
