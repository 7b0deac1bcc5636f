import LiteralLint.Report
import LiteralLint.Scan.Trace

/-! # Checking and Linting

  A check scans a source and judges each literal when it is complete. Linting
  is a check whose findings are written as a report: all of them are known
  before the first byte is written.

  A check logs events as it goes. What a log is, is left open: it is given as
  a value and a function that adds an event to it.
-/

namespace LiteralLint

variable {σ : Type}

/-! ### Checking -/

/-- What a check of a source yields. -/
structure Check where
  /-- The findings in the order in which their literals close, or why there
      are none to trust. -/
  outcome : Except Failure (List Finding)
  /-- The events of the check, in order. -/
  events : List Event

namespace Source

/-- The findings of a source, one for each literal that gives rise to one. -/
def findings (source : Source) : List Finding :=
  source.literals.filterMap Literal.finding?

/-- Check what a scan finds from the state `s` on, after it has found `count`
    literals with the findings `found`. A literal on a line that the source
    does not have stops the check; otherwise the check ends with an event that
    counts what it has seen. -/
def checkFrom (emit : σ → Event → σ) (source : Source) (log : σ) (count : Nat)
    (found : Array Finding) (s : Scan.State) : Except Failure (List Finding) × σ :=
  match _h : Scan.step? s with
  | none => (.ok found.toList, emit log (.finished source.size count found.size))
  | some (label, t) =>
    let log := label.event?.toList.foldl emit log
    match label.literal? with
    | none => checkFrom emit source log count found t
    | some literal =>
      if source.contains literal.line then
        checkFrom emit source log (count + 1) (found ++ literal.finding?.toList) t
      else (.error (.lineOutOfRange literal.line source.size), log)
termination_by s.work
decreasing_by all_goals exact Scan.step?_work _h

/-- Check a source. -/
def checkWith (emit : σ → Event → σ) (log : σ) (source : Source) :
    Except Failure (List Finding) × σ :=
  source.checkFrom emit log 0 #[] (.initial source)

/-- Check a source and collect the events. -/
def check (source : Source) : Check :=
  let (outcome, events) := source.checkWith Array.push #[]
  ⟨outcome, events.toList⟩

end Source

/-! ### Linting -/

/-- Write the report on what a check has come to. The answer is the number of
    findings. -/
def Report.conclude (outcome : Except Failure (List Finding)) (sink : Sink) :
    Except Failure Nat × Sink :=
  match outcome with
  | .error failure => (.error failure, sink)
  | .ok findings =>
    match (Report.on sink).addAll findings with
    | (.error fault, report) => (.error (.unwritable fault), report.sink)
    | (.ok (), report) =>
      match report.finish with
      | (.error fault, sink) => (.error (.unwritable fault), sink)
      | (.ok count, sink) => (.ok count, sink)

namespace Source

/-- Check a source and write the report of its findings. -/
def lintWith (emit : σ → Event → σ) (log : σ) (source : Source) (sink : Sink) :
    (Except Failure Nat × Sink) × σ :=
  let (outcome, log) := source.checkWith emit log
  (Report.conclude outcome sink, log)

/-- Check a source and write the report of its findings, without a log. -/
def lint (source : Source) (sink : Sink) : Except Failure Nat × Sink :=
  (source.lintWith (fun log _ => log) () sink).1

end Source

end LiteralLint
