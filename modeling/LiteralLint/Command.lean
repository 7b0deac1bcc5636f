import LiteralLint.Arguments
import LiteralLint.Input
import LiteralLint.Lint

/-! # The Command

  A run of the command as a function of its arguments, its standard input,
  the file tree, and the sink that standard output is. Its outcome holds all
  that can be seen of the run: the exit code, what standard output has taken,
  and the log and the failure that standard error shows.

  The input is read as a whole before anything is written, so a run that
  cannot read its input leaves standard output as it was. The events of a run
  do not depend on the log level, which is applied only when standard error
  is rendered.
-/

namespace LiteralLint

/-! ### Texts -/

/-- The help text. -/
def helpText : String :=
  "Flag string literals whose s/f interpolation prefix disagrees with their content\n" ++
  "\n" ++
  "Usage: strlint <INPUT>\n" ++
  "\n" ++
  "Arguments:\n" ++
  "  <INPUT>  Source file to check, or `-` to read standard input\n" ++
  "\n" ++
  "Options:\n" ++
  "  -h, --help     Print help\n" ++
  "  -V, --version  Print version\n" ++
  "\n" ++
  "Exit status:\n" ++
  "  0    no issues found\n" ++
  "  N    number of issues found, capped at 255\n" ++
  "  Codes 1 and 2 are also used for failures: 1 on a read error, 2 on bad\n" ++
  "  arguments. A failure writes nothing to stdout and prints the error on\n" ++
  "  stderr, while findings always end with an \"issues found\" summary line.\n"

/-- The version text. -/
def versionText : String := "strlint 0.1.0\n"

/-! ### Exit Codes -/

/-- The exit code for a number of findings. It is capped, so that no number
    of findings looks like none. -/
def exitCode (count : Nat) : Nat := min count 255

/-- The exit code of a run whose lint has this answer. -/
def answerCode : Except Failure Nat → Nat
  | .ok count => exitCode count
  | .error _ => 1

/-- Why a run failed whose lint has this answer, if it did. -/
def answerFailure? : Except Failure Nat → Option Failure
  | .ok _ => none
  | .error failure => some failure

/-- The exit code when the arguments name no input: the texts that were asked
    for are no error. -/
def Usage.exitCode : Usage → Nat
  | .help | .version => 0
  | .unknownArgument | .unwantedValue | .missingOperand => 2

/-- The text that was asked for on standard output. -/
def Usage.text : Usage → String
  | .help => helpText
  | .version => versionText
  | .unknownArgument | .unwantedValue | .missingOperand => ""

/-! ### Runs -/

/-- What a run finds around it. -/
structure Host where
  /-- The bytes of standard input, or why they cannot be read. -/
  stdin : Except Fault Bytes
  /-- The files. -/
  files : FileTree
  /-- Standard output. -/
  stdout : Sink

/-- What can be seen of a run. -/
structure Outcome where
  /-- The exit code. -/
  code : Nat
  /-- Standard output after the run. -/
  stdout : Sink
  /-- The events of the run, in order. -/
  events : List Event
  /-- Why the run failed, if it did. -/
  failure? : Option Failure

namespace Command

/-- A run in which the arguments name no input. That standard output takes no
    text does not change the exit code. -/
def advise (usage : Usage) (stdout : Sink) : Outcome :=
  ⟨usage.exitCode, (stdout.write (Utf8.encode usage.text)).2, [], none⟩

/-- Lint an input of which the bytes, or the reason that there are none, have
    been fetched. The name of the input is logged before anything else. -/
def lintWith {σ : Type} (emit : σ → Event → σ) (log : σ) (input : Input)
    (fetched : Except Fault Bytes) (stdout : Sink) : (Except Failure Nat × Sink) × σ :=
  let log := emit log (.checking input.display)
  match input.source fetched with
  | .error failure => ((.error failure, stdout), log)
  | .ok source => source.lintWith emit log stdout

/-- A run on an input that has been fetched. -/
def lint (input : Input) (fetched : Except Fault Bytes) (stdout : Sink) : Outcome :=
  let ((answer, stdout), events) := lintWith Array.push #[] input fetched stdout
  ⟨answerCode answer, stdout, events.toList, answerFailure? answer⟩

/-- A run of the command. -/
def run (arguments : List String) (host : Host) : Outcome :=
  match Arguments.parse arguments with
  | .error usage => advise usage host.stdout
  | .ok argument =>
    let input := Input.ofArgument argument
    lint input (input.fetch host.stdin host.files) host.stdout

end Command

/-! ### Standard Error -/

namespace Outcome

/-- The log of the run at a level. -/
def log (outcome : Outcome) (setting : Level) : List Event :=
  outcome.events.filter fun event => setting.admits event.level

/-- What standard error shows: the log, then the failure. -/
def stderr (outcome : Outcome) (setting : Level) : String :=
  String.join ((outcome.log setting).map Event.render)
    ++ match outcome.failure? with
      | none => ""
      | some failure => "Error: " ++ failure.message ++ "\n"

end Outcome

end LiteralLint
