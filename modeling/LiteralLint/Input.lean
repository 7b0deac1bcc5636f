import LiteralLint.FileTree
import LiteralLint.Source

/-! # Inputs

  Where the text to be checked comes from, and how it becomes a source. The
  argument `-` names standard input; any other argument is a path.
-/

namespace LiteralLint

/-- Where the text to be checked comes from. -/
inductive Input
  | stdin
  | file (path : Bytes)
  deriving DecidableEq, Repr

namespace Input

/-- The input that an argument names. -/
def ofArgument (argument : String) : Input :=
  if argument = "-" then .stdin else .file (Utf8.encode argument)

/-- The name of the input in messages. Bytes of a path that are not text are
    replaced. -/
def display : Input → String
  | .stdin => "<stdin>"
  | .file path => Utf8.decode path

/-- The bytes of the input, where standard input and the files are given. -/
def fetch (input : Input) (stdin : Except Fault Bytes) (files : FileTree) : Except Fault Bytes :=
  match input with
  | .stdin => stdin
  | .file path => files.read path

/-- The source that the fetched bytes of the input hold. -/
def source (input : Input) (fetched : Except Fault Bytes) : Except Failure Source :=
  match fetched with
  | .ok bytes => .ok (.ofText (Utf8.decode bytes))
  | .error fault => .error (.unreadable input.display fault)

end Input

end LiteralLint
