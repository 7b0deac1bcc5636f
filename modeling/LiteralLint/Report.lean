import LiteralLint.Finding
import LiteralLint.Sink

/-! # Reports

  Findings are written to a sink one per line, and a report that holds any
  ends with a line that gives their number.

  A finding counts once its whole line was taken. A line that was cut stays
  in the sink as far as it was taken, and is not counted.
-/

namespace LiteralLint

/-- The line that ends a report of `count` findings, without its line
    feed. -/
def summary (count : Nat) : String :=
  toString count ++ " string interpolation issues found"

/-- A report that is being written. -/
structure Report where
  /-- Where the report goes. -/
  sink : Sink
  /-- How many findings were written in full. -/
  count : Nat
  deriving DecidableEq, Repr

namespace Report

/-- A report without findings. -/
def on (sink : Sink) : Report := ⟨sink, 0⟩

/-- Write a text and a line feed. -/
def writeLine (report : Report) (text : String) : Except Fault Unit × Report :=
  let (outcome, sink) := report.sink.write (Utf8.encode (text ++ "\n"))
  (outcome, { report with sink })

/-- Add a finding. -/
def add (report : Report) (finding : Finding) : Except Fault Unit × Report :=
  match report.writeLine finding.render with
  | (.ok (), report) => (.ok (), { report with count := report.count + 1 })
  | (.error fault, report) => (.error fault, report)

/-- Add findings in order, until one fails. -/
def addAll (report : Report) : List Finding → Except Fault Unit × Report
  | [] => (.ok (), report)
  | finding :: findings =>
    match report.add finding with
    | (.ok (), report) => report.addAll findings
    | (.error fault, report) => (.error fault, report)

/-- Write the summary, unless the report is empty. -/
def summarize (report : Report) : Except Fault Unit × Report :=
  if report.count = 0 then (.ok (), report) else report.writeLine (summary report.count)

/-- End the report: write the summary and flush the sink. The answer is the
    number of findings. -/
def finish (report : Report) : Except Fault Nat × Sink :=
  match report.summarize with
  | (.error fault, report) => (.error fault, report.sink)
  | (.ok (), report) =>
    match report.sink.flush with
    | (.error fault, sink) => (.error fault, sink)
    | (.ok (), sink) => (.ok report.count, sink)

end Report

end LiteralLint
