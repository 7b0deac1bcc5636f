/-! # Command Line Arguments

  The command takes one operand, the input, and knows two options, each with
  a long and a short form. Arguments are read from left to right, and the
  first one that settles the matter does so, whatever comes after it:

  - `--` makes every later argument an operand.
  - Before it, an argument that begins with `-` is an option, except `-`
    itself, which is an operand like every other argument.
  - An option settles the matter, and so does a second operand.
-/

namespace LiteralLint

/-- Why arguments do not name an input. -/
inductive Usage
  /-- The help text was asked for. -/
  | help
  /-- The version was asked for. -/
  | version
  /-- An option is not known, or there is a second operand. -/
  | unknownArgument
  /-- A value was given to an option that takes none. -/
  | unwantedValue
  /-- There is no operand. -/
  | missingOperand
  deriving DecidableEq, Repr

namespace Arguments

/-! ### Options -/

/-- The meaning of the name of a long option. -/
def longName (name : List Char) : Usage :=
  if name = "help".toList then .help
  else if name = "version".toList then .version
  else .unknownArgument

/-- What a long option means, from what follows its two dashes. Its name ends
    where an equals sign begins a value, and no option takes one. -/
def longOption (text : List Char) : Usage :=
  match longName (text.takeWhile (· ≠ '=')) with
  | .unknownArgument => .unknownArgument
  | usage => if '=' ∈ text then .unwantedValue else usage

/-- What a cluster of short options means, from its first letter, which
    settles it. -/
def shortOption (letter : Char) : Usage :=
  if letter = 'h' then .help
  else if letter = 'V' then .version
  else .unknownArgument

/-- What an argument means if it is an option. -/
def option? (argument : List Char) : Option Usage :=
  match argument with
  | '-' :: '-' :: name => some (longOption name)
  | '-' :: letter :: _ => some (shortOption letter)
  | _ => none

/-! ### Parsing -/

/-- Read an operand, where one may have been read before. -/
def operand (operand? : Option String) (argument : String) : Except Usage String :=
  match operand? with
  | none => .ok argument
  | some _ => .error .unknownArgument

/-- The answer at the end of the arguments. -/
def atEnd (operand? : Option String) : Except Usage String :=
  match operand? with
  | none => .error .missingOperand
  | some operand => .ok operand

/-- Read arguments all of which are operands. -/
def parseOperands (operand? : Option String) : List String → Except Usage String
  | [] => atEnd operand?
  | argument :: rest =>
    match operand operand? argument with
    | .ok operand => parseOperands (some operand) rest
    | .error usage => .error usage

/-- Read arguments. -/
def parseFrom (operand? : Option String) : List String → Except Usage String
  | [] => atEnd operand?
  | argument :: rest =>
    if argument = "--" then parseOperands operand? rest
    else
      match option? argument.toList with
      | some usage => .error usage
      | none =>
        match operand operand? argument with
        | .ok operand => parseFrom (some operand) rest
        | .error usage => .error usage

/-- The operand that the arguments of the command hold. -/
def parse (arguments : List String) : Except Usage String :=
  parseFrom none arguments

end Arguments

end LiteralLint
