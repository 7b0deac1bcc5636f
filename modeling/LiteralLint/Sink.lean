import LiteralLint.Failure
import LiteralLint.Text.Utf8

/-! # Sinks

  A receiver of output that may run out of room. It takes bytes in order
  until its room is used up; a write that does not fit leaves the part that
  does and fails. Nothing that was taken is ever lost, so what a sink holds
  after a failure shows where the output was cut.

  Writing nothing never fails, with or without room.
-/

namespace LiteralLint

/-- A receiver of bytes. -/
structure Sink where
  /-- How many bytes it still takes; without a number, there is no limit. -/
  room? : Option Nat := none
  /-- Why a write fails that does not fit. -/
  overflow : Fault := .closed
  /-- Why a flush fails, if it does. -/
  flushFault? : Option Fault := none
  /-- The bytes taken so far. -/
  written : Array UInt8 := #[]
  /-- How often a flush was asked for. -/
  flushes : Nat := 0
  deriving DecidableEq, Repr

namespace Sink

/-- Write bytes: the first ones that fit are taken, and the write succeeds if
    these are all. -/
def write (sink : Sink) (bytes : Bytes) : Except Fault Unit × Sink :=
  match sink.room? with
  | none => (.ok (), { sink with written := sink.written ++ bytes })
  | some room =>
    (if bytes.length ≤ room then .ok () else .error sink.overflow,
      { sink with
        room? := some (room - bytes.length)
        written := sink.written ++ bytes.take room })

/-- The sink with the room and the faults of another one, holding what it
    holds itself. -/
def adjust (sink settings : Sink) : Sink :=
  { settings with written := sink.written, flushes := sink.flushes }

/-- Ask the sink to make what it has taken permanent. -/
def flush (sink : Sink) : Except Fault Unit × Sink :=
  (match sink.flushFault? with
    | none => .ok ()
    | some fault => .error fault,
    { sink with flushes := sink.flushes + 1 })

end Sink

end LiteralLint
