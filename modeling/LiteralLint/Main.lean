import LiteralLint.Command

/-! # Program Entry

  Reads what a run of the command needs, runs it, and shows its outcome. The
  level of the log is taken from the environment variable `STRLINT_LOG`.
-/

namespace LiteralLint

/-- The number of an error of the operating system, which the host hands over
    with either sign. -/
def errorNumber (code : UInt32) : Nat :=
  (min code (0 - code)).toNat

/-- The fault that a failed read or write of the host stands for. -/
def Fault.ofHost (error : IO.Error) : Fault :=
  match error with
  | .noFileOrDirectory .. => .notFound
  | .inappropriateType _ code _ => if errorNumber code = 21 then .isDirectory else .notDirectory
  | .invalidArgument _ code _ =>
    if errorNumber code = 36 then .nameTooLong else .other (toString error)
  | .resourceExhausted _ code _ =>
    if errorNumber code = 28 then .deviceFull else .other (toString error)
  | .permissionDenied _ _ _ => .other "Permission denied (os error 13)"
  | _ => .other (toString error)

/-- What standard error shows when the arguments name no input. What is wrong
    with them is not worded here: a reminder of the usage stands in for what
    the argument parser says. -/
def Usage.reminder : Usage → String
  | .help | .version => ""
  | .unknownArgument | .unwantedValue | .missingOperand => "Usage: strlint <INPUT>\n"

/-- Read the bytes of an input; `argument` is the argument that named it. -/
def fetchFromHost (input : Input) (argument : String) : IO (Except Fault Bytes) := do
  try
    let bytes ← match input with
      | .stdin => (← IO.getStdin).readBinToEnd
      | .file _ => IO.FS.readBinFile argument
    return .ok bytes.toList
  catch error => return .error (.ofHost error)

/-- Show the outcome of a run that depends on the sink it writes to. If
    standard output refuses what the run has written, the run that counts is
    the one with a sink that takes nothing. -/
def showRun (run : Sink → Outcome) : IO Outcome := do
  let outcome := run {}
  let stdout ← IO.getStdout
  try
    stdout.write ⟨outcome.stdout.written⟩
    stdout.flush
    return outcome
  catch error => return run { room? := some 0, overflow := .ofHost error }

end LiteralLint

open LiteralLint in
/-- Run the command on the arguments of the process. -/
def main (arguments : List String) : IO UInt32 := do
  let setting := Level.ofSetting (← IO.getEnv "STRLINT_LOG")
  match Arguments.parse arguments with
  | .error usage =>
    let outcome ← showRun (Command.advise usage)
    IO.eprint usage.reminder
    return outcome.code.toUInt32
  | .ok argument =>
    let input := Input.ofArgument argument
    let fetched ← fetchFromHost input argument
    let outcome ← showRun (Command.lint input fetched)
    IO.eprint (outcome.stderr setting)
    return outcome.code.toUInt32
