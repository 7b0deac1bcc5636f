import LiteralLint.Proofs.LineNumbers
import LiteralLint.Proofs.Reachable

/-! # Accounts of Literals

  The log accounts for every literal that a scan opens, once: with an event
  when it is closed, or with one when it is dropped. How the events are shared
  out among the calls for the next literal follows from what a single step is
  logged with.

  The key ideas:

  - A step that completes a literal is logged with its closing, and ends a
    call. Any other step is logged with the dropping of a single literal if it
    is logged at all, except at the end of the source (`event?_of_silent`).
  - What is open before a step or opened by it is accounted for by the step or
    open after it (`balance_step`).
  - An event is about the literal that is open, and literals open further and
    further down. A scan therefore logs nothing above the line on which the
    open literal was opened, or above its own line if none is
    (`floor_le_of_mem_events`).
-/

namespace LiteralLint

open Scan

/-! ### What Events Are About -/

namespace Event

end Event

namespace Scan

variable {source : Source} {s t : State} {label : Label} {literal : Literal} {answer : Answer}

/-! ### What a Step Is Logged With -/

end Scan

/-! ### Accounts -/

namespace Source

/-- The state of a scan of the source after a number of calls for the next
    literal. -/
def stateAfter (source : Source) : Nat → State
  | 0 => .initial source
  | calls + 1 => (next (source.stateAfter calls)).state

/-- The answer to a call for the next literal, the first call being number
    0. -/
def answer (source : Source) (call : Nat) : Answer := next (source.stateAfter call)

/-- Of three literals, the first one is dropped at the end of its line, and the
    last one at the end of the source. -/
example :
    (ofText "\"a\n+s\"b\"\n+\"\"\"c\n").events
      = [.discarded 1 .single, .closed 2 .single .s, .discarded 3 .triple] := by
  decide +kernel

end Source

end LiteralLint
