/-! # Faults and Failures

  A fault is why reading or writing did not succeed, independent of what was
  read or written. A failure is why a run stopped: it says what the run was
  doing when the fault arose.

  The wording of both lives here and nowhere else.
-/

namespace LiteralLint

/-! ### Faults -/

/-- A reason why bytes could not be read or written. -/
inductive Fault
  /-- A path names nothing. -/
  | notFound
  /-- A path names a directory where a file is wanted. -/
  | isDirectory
  /-- A path goes on below something that is not a directory. -/
  | notDirectory
  /-- A path, or a name in it, exceeds the limit on its length. -/
  | nameTooLong
  /-- A path holds a zero byte, which no path can. -/
  | zeroInPath
  /-- The receiver of the output has gone away. -/
  | closed
  /-- The receiver of the output takes nothing more, without saying why. -/
  | noProgress
  /-- The device that the output goes to is full. -/
  | deviceFull
  /-- The receiver could not make the output it has taken permanent. -/
  | flushFailed
  /-- Any other reason, in its own words. -/
  | other (text : String)
  deriving DecidableEq, Repr

/-- The wording of a fault. -/
def Fault.message : Fault → String
  | .notFound => "No such file or directory (os error 2)"
  | .isDirectory => "Is a directory (os error 21)"
  | .notDirectory => "Not a directory (os error 20)"
  | .nameTooLong => "File name too long (os error 36)"
  | .zeroInPath => "file name contained an unexpected NUL byte"
  | .closed => "closed"
  | .noProgress => "failed to write whole buffer"
  | .deviceFull => "No space left on device (os error 28)"
  | .flushFailed => "flush failed"
  | .other text => text

/-! ### Failures -/

/-- A reason why a run stopped before its end. -/
inductive Failure
  /-- The input, named as it is displayed, could not be read. -/
  | unreadable (input : String) (fault : Fault)
  /-- The report could not be written. -/
  | unwritable (fault : Fault)
  /-- A literal claims a line that a source of `total` lines does not
      have. -/
  | lineOutOfRange (line total : Nat)
  deriving DecidableEq, Repr

namespace Failure

/-- The fault behind a failure. -/
def fault? : Failure → Option Fault
  | .unreadable _ fault | .unwritable fault => some fault
  | .lineOutOfRange .. => none

/-- The wording of a failure. -/
def message : Failure → String
  | .unreadable input fault => "cannot read " ++ input ++ ": " ++ fault.message
  | .unwritable fault => "cannot write report: " ++ fault.message
  | .lineOutOfRange line total =>
    "internal error: literal at line " ++ toString line ++ " outside source of "
      ++ toString total ++ " lines"

end Failure

end LiteralLint
