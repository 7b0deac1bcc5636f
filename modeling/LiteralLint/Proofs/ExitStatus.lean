import LiteralLint.Command
import LiteralLint.Proofs.Output

/-! # Exit Status

  The exit codes of failures are also numbers of findings. What tells them
  apart is standard output: a failure leaves it empty, and findings do not.

  The key ideas:

  - A run ends in one of four ways, which its arguments and its input decide
    (`Ends`). What standard output is has no part in that.
  - The input is read before anything is written, and a lint is one write of
    the whole report (`Source.lint_eq`). So a run that fails to read writes
    nothing, and on a device that takes nothing a run fails if and only if it
    has findings to write.
  - The cap on the exit code lies above zero.
-/

namespace LiteralLint

/-! ### Endings -/

/-- How a run ends, standard output aside. -/
inductive Ending
  /-- A text was asked for. -/
  | advised (usage : Usage)
  /-- The arguments are wrong. -/
  | misused (usage : Usage)
  /-- The input cannot be read. -/
  | unread (input : Input) (fault : Fault)
  /-- The input was checked. -/
  | checked (findings : List Finding)

/-- `Ends arguments stdin files ending`: a run with these arguments ends like
    this where these are standard input and the files. -/
inductive Ends (arguments : List String) (stdin : Except Fault Bytes) (files : FileTree) :
    Ending → Prop
  | advised {usage : Usage} (hparse : Arguments.parse arguments = .error usage)
      (husage : usage = .help ∨ usage = .version) :
      Ends arguments stdin files (.advised usage)
  | misused {usage : Usage} (hparse : Arguments.parse arguments = .error usage)
      (husage : usage ≠ .help ∧ usage ≠ .version) :
      Ends arguments stdin files (.misused usage)
  | unread {argument : String} {fault : Fault} (hparse : Arguments.parse arguments = .ok argument)
      (hfetch : (Input.ofArgument argument).fetch stdin files = .error fault) :
      Ends arguments stdin files (.unread (.ofArgument argument) fault)
  | checked {argument : String} {bytes : Bytes} {findings : List Finding}
      (hparse : Arguments.parse arguments = .ok argument)
      (hfetch : (Input.ofArgument argument).fetch stdin files = .ok bytes)
      (hcheck : (Source.ofText (Utf8.decode bytes)).check.outcome = .ok findings) :
      Ends arguments stdin files (.checked findings)

variable {arguments : List String} {stdin : Except Fault Bytes} {files : FileTree}
  {ending other : Ending}

/-- A run ends in one way only. -/
theorem Ends.unique (h : Ends arguments stdin files ending)
    (h' : Ends arguments stdin files other) : other = ending := by
  cases h <;> cases h' <;> simp_all

/-- A run ends in one of the ways. -/
theorem exists_ends (arguments : List String) (stdin : Except Fault Bytes) (files : FileTree) :
    ∃ ending, Ends arguments stdin files ending := by
  cases hparse : Arguments.parse arguments with
  | error usage =>
    by_cases husage : usage = .help ∨ usage = .version
    · exact ⟨_, .advised hparse husage⟩
    · exact ⟨_, .misused hparse (not_or.1 husage)⟩
  | ok argument =>
    cases hfetch : (Input.ofArgument argument).fetch stdin files with
    | error fault => exact ⟨_, .unread hparse hfetch⟩
    | ok bytes => exact ⟨_, .checked hparse hfetch (Source.outcome_check _)⟩

/-! ### What a Run Shows -/

/-- Standard output that takes nothing, as its device is full. -/
def Sink.full : Sink where
  room? := some 0
  overflow := .deviceFull

namespace Outcome

/-- At every log level, standard error ends in the line of an error with this
    text. -/
def ShowsError (outcome : Outcome) (text : String) : Prop :=
  ∀ setting, ∃ log, outcome.stderr setting = log ++ "Error: " ++ text ++ "\n"

/-- At every log level, standard error holds the log and nothing else. -/
def ShowsLogOnly (outcome : Outcome) : Prop :=
  ∀ setting, outcome.stderr setting = String.join ((outcome.log setting).map Event.render)

variable {outcome : Outcome}

theorem showsError {failure : Failure} (h : outcome.failure? = some failure) :
    outcome.ShowsError failure.message := by
  intro setting
  refine ⟨String.join ((outcome.log setting).map Event.render), ?_⟩
  rw [stderr, h]
  simp only [String.append_assoc]

theorem showsLogOnly (h : outcome.failure? = none) : outcome.ShowsLogOnly := by
  intro setting
  rw [stderr, h]
  exact String.append_empty

end Outcome

namespace Ending

/-- A failure that has nothing to do with standard output. -/
def Fails : Ending → Prop
  | .misused _ | .unread .. => True
  | .advised _ | .checked _ => False

/-- What a run that ends like this shows where standard output works. -/
def Shows (outcome : Outcome) : Ending → Prop
  | .advised _ => outcome.code = 0
  | .misused _ => outcome.code = 2 ∧ outcome.stdout.written = #[]
  | .unread input fault =>
    outcome.code = 1 ∧ outcome.stdout.written = #[]
      ∧ outcome.ShowsError ("cannot read " ++ input.display ++ ": " ++ fault.message)
  | .checked findings =>
    outcome.code = min findings.length 255
      ∧ (outcome.code = 0 ↔ findings.length = 0)
      ∧ outcome.ShowsLogOnly
      ∧ (outcome.stdout.written = #[] ↔ findings.length = 0)
      ∧ (findings.length ≠ 0 →
        outcome.stdout.written.toList = Report.bytes findings
          ∧ Utf8.encode (toString findings.length ++ " string interpolation issues found\n")
            <:+ outcome.stdout.written.toList)

/-- What a run that ends like this shows where the device of standard output is
    full; `working` is the run where standard output works. -/
def ShowsFull (working outcome : Outcome) : Ending → Prop
  | .advised _ => outcome.code = working.code
  | .misused _ | .unread .. =>
    outcome.code = working.code ∧ outcome.stdout.written = working.stdout.written
      ∧ ∀ setting, outcome.stderr setting = working.stderr setting
  | .checked findings =>
    outcome.stdout.written = #[]
      ∧ (findings.length = 0 → outcome.code = 0 ∧ outcome.ShowsLogOnly)
      ∧ (findings.length ≠ 0 → outcome.code = 1
        ∧ outcome.ShowsError "cannot write report: No space left on device (os error 28)")

end Ending

/-- A code other than zero and no output mean that a run failed. -/
theorem Ending.Shows.fails_iff {outcome : Outcome} (h : ending.Shows outcome) :
    outcome.code ≠ 0 ∧ outcome.stdout.written = #[] ↔ ending.Fails := by
  cases ending with
  | advised usage => exact ⟨fun hfailed => hfailed.1 h, False.elim⟩
  | misused usage => exact ⟨fun _ => trivial, fun _ => ⟨h.1 ▸ by decide, h.2⟩⟩
  | unread input fault => exact ⟨fun _ => trivial, fun _ => ⟨h.1 ▸ by decide, h.2.1⟩⟩
  | checked findings =>
    -- No output means that there are no findings, and then the code is zero.
    obtain ⟨-, hcode, -, hempty, -⟩ := h
    refine ⟨fun hfailed => hfailed.1 ?_, False.elim⟩
    exact hcode.2 (hempty.1 hfailed.2)

/-- The cap keeps findings from looking like none. -/
theorem exitCode_eq_zero_iff {count : Nat} : exitCode count = 0 ↔ count = 0 := by
  rw [exitCode]
  omega

/-! ### Lints -/

namespace Report

/-- The summary ends a report that has findings. -/
theorem summary_suffix_bytes {findings : List Finding} (h : findings.length ≠ 0) :
    Utf8.encode (toString findings.length ++ " string interpolation issues found\n")
      <:+ bytes findings := by
  have hne : findings ≠ [] := by
    rintro rfl
    exact h rfl
  have hsummary : toString findings.length ++ " string interpolation issues found\n"
      = summary findings.length ++ "\n" := by
    rw [summary, String.append_assoc]
    rfl
  rw [bytes, if_neg hne, hsummary]
  exact List.suffix_append _ _

/-- Only a report without findings is empty. -/
theorem bytes_eq_nil_iff {findings : List Finding} :
    bytes findings = [] ↔ findings.length = 0 := by
  constructor
  · intro hnil
    by_contra h
    have hsuffix := summary_suffix_bytes h
    rw [hnil, List.suffix_nil] at hsuffix
    simp [Utf8.encode] at hsuffix
  · intro h
    rw [List.length_eq_zero_iff.1 h]
    rfl

end Report

namespace Input

/-- The events of a run on an input: its name, and those of the check if there
    are bytes to be checked. -/
def events (input : Input) (fetched : Except Fault Bytes) : List Event :=
  .checking input.display ::
    match fetched with
    | .error _ => []
    | .ok bytes =>
      let source := Source.ofText (Utf8.decode bytes)
      source.events ++ [.finished source.size source.literals.length source.findings.length]

/-- The answer of a lint of an input, and what it leaves of standard output. -/
def answer (input : Input) (fetched : Except Fault Bytes) (stdout : Sink) :
    Except Failure Nat × Sink :=
  match fetched with
  | .error fault => (.error (.unreadable input.display fault), stdout)
  | .ok bytes => (Source.ofText (Utf8.decode bytes)).lint stdout

end Input

namespace Command

/-- A lint of an input logs its events, whatever the log is. The log has no part
    in the answer. -/
theorem lintWith_eq {σ : Type} (emit : σ → Event → σ) (log : σ) (input : Input)
    (fetched : Except Fault Bytes) (stdout : Sink) :
    lintWith emit log input fetched stdout
      = (input.answer fetched stdout, (input.events fetched).foldl emit log) := by
  cases fetched with
  | error fault => rfl
  | ok bytes =>
    show (Source.ofText (Utf8.decode bytes)).lintWith emit _ stdout = _
    rw [Source.lintWith_eq]
    rfl

/-- What can be seen of a run on an input. -/
theorem lint_eq (input : Input) (fetched : Except Fault Bytes) (stdout : Sink) :
    let answer := input.answer fetched stdout
    Command.lint input fetched stdout
      = ⟨answerCode answer.1, answer.2, input.events fetched, answerFailure? answer.1⟩ := by
  intro answer
  rw [Command.lint, lintWith_eq]
  simp [answer]

/-- The outcome of a run that has made a lint of its input. -/
theorem lint_of_ok {input : Input} {bytes : Bytes} {stdout sink : Sink} {count : Nat}
    (h : (Source.ofText (Utf8.decode bytes)).lint stdout = (.ok count, sink)) :
    let outcome := Command.lint input (.ok bytes) stdout
    outcome.code = exitCode count ∧ outcome.stdout = sink ∧ outcome.failure? = none := by
  intro outcome
  have houtcome : outcome = _ := lint_eq input (.ok bytes) stdout
  rw [houtcome, Input.answer, h]
  exact ⟨rfl, rfl, rfl⟩

/-- The outcome of a run that has failed to write the report on its input. -/
theorem lint_of_error {input : Input} {bytes : Bytes} {stdout sink : Sink} {failure : Failure}
    (h : (Source.ofText (Utf8.decode bytes)).lint stdout = (.error failure, sink)) :
    let outcome := Command.lint input (.ok bytes) stdout
    outcome.code = 1 ∧ outcome.stdout = sink ∧ outcome.failure? = some failure := by
  intro outcome
  have houtcome : outcome = _ := lint_eq input (.ok bytes) stdout
  rw [houtcome, Input.answer, h]
  exact ⟨rfl, rfl, rfl⟩

/-- A sink without limits takes the report of a run on an input that can be
    read. -/
theorem lint_unlimited (input : Input) (bytes : Bytes) :
    let findings := (Source.ofText (Utf8.decode bytes)).findings
    let outcome := Command.lint input (.ok bytes) {}
    outcome.code = exitCode findings.length
      ∧ outcome.stdout.written.toList = Report.bytes findings
      ∧ outcome.failure? = none := by
  intro findings outcome
  have hfits : Sink.Fits {} (Report.bytes findings).length := nofun
  have hlint := Source.lint_eq (Utf8.decode bytes) {}
  rw [Sink.commit_of_fits hfits] at hlint
  obtain ⟨hcode, hstdout, hfailure⟩ := @lint_of_ok input _ _ _ _ hlint
  refine ⟨hcode, ?_, hfailure⟩
  rw [hstdout]
  simp only [Sink.written_after]
  simp [findings]

/-- A run on an input that can be read, with a sink without limits, exits with
    the number of findings up to the cap. -/
theorem code_lint_unlimited (input : Input) (bytes : Bytes) :
    (Command.lint input (.ok bytes) {}).code
      = exitCode (Source.ofText (Utf8.decode bytes)).findings.length :=
  (lint_unlimited input bytes).1

/-- On a full device, a run on an input that can be read has nothing to write
    or fails. -/
theorem lint_full (input : Input) (bytes : Bytes) :
    let findings := (Source.ofText (Utf8.decode bytes)).findings
    let outcome := Command.lint input (.ok bytes) .full
    outcome.stdout.written = #[]
      ∧ (findings.length = 0 → outcome.code = 0 ∧ outcome.failure? = none)
      ∧ (findings.length ≠ 0 →
        outcome.code = 1 ∧ outcome.failure? = some (.unwritable .deviceFull)) := by
  intro findings outcome
  have hwritten : (Sink.full.after (Report.bytes findings)).written = #[] := by
    rw [Sink.written_after]
    simp [Sink.full]
  have hlint := Source.lint_eq (Utf8.decode bytes) .full
  by_cases hcount : findings.length = 0
  · -- Nothing is written, and nothing always fits.
    have hfits : Sink.full.Fits (Report.bytes findings).length := by
      intro room _
      rw [Report.bytes_eq_nil_iff.2 hcount]
      exact Nat.zero_le room
    rw [Sink.commit_of_fits hfits] at hlint
    obtain ⟨hcode, hstdout, hfailure⟩ := @lint_of_ok input _ _ _ _ hlint
    refine ⟨?_, fun _ => ⟨?_, hfailure⟩, fun hsome => absurd hcount hsome⟩
    · rw [hstdout]
      exact hwritten
    · rw [hcode, show (Source.ofText (Utf8.decode bytes)).findings.length = 0 from hcount]
      rfl
  · -- Not even the first byte fits.
    have hover : ¬ Sink.full.Fits (Report.bytes findings).length := by
      intro hfits
      have hnil := List.length_eq_zero_iff.1 (Nat.le_zero.1 (hfits 0 rfl))
      exact hcount (Report.bytes_eq_nil_iff.1 hnil)
    rw [Sink.commit_of_not_fits hover] at hlint
    obtain ⟨hcode, hstdout, hfailure⟩ := @lint_of_error input _ _ _ _ hlint
    exact ⟨hstdout ▸ hwritten, fun hnone => absurd hnone hcount, fun _ => ⟨hcode, hfailure⟩⟩

end Command

/-! ### Runs -/

namespace Command

/-- The arguments and the input decide what is run. -/
theorem run_of_usage {host : Host} {usage : Usage}
    (h : Arguments.parse arguments = .error usage) :
    run arguments host = advise usage host.stdout := by
  rw [run, h]

theorem run_of_argument {host : Host} {argument : String}
    (h : Arguments.parse arguments = .ok argument) :
    run arguments host = Command.lint (.ofArgument argument)
      ((Input.ofArgument argument).fetch host.stdin host.files) host.stdout := by
  rw [run, h]

/-- What a run shows where standard output works. -/
theorem shows_run (h : Ends arguments stdin files ending) :
    ending.Shows (run arguments ⟨stdin, files, {}⟩) := by
  cases h with
  | @advised usage hparse husage =>
    rw [run_of_usage hparse]
    rcases husage with rfl | rfl <;> rfl
  | @misused usage hparse husage =>
    rw [run_of_usage hparse]
    cases usage with
    | help => exact absurd rfl husage.1
    | version => exact absurd rfl husage.2
    | unknownArgument | unwantedValue | missingOperand => exact ⟨rfl, rfl⟩
  | @unread argument fault hparse hfetch =>
    rw [run_of_argument hparse, hfetch]
    let input := Input.ofArgument argument
    have hfailure : (Command.lint input (.error fault) {}).failure?
        = some (.unreadable input.display fault) := rfl
    exact ⟨rfl, rfl, Outcome.showsError hfailure⟩
  | @checked argument bytes findings hparse hfetch hcheck =>
    obtain rfl : (Source.ofText (Utf8.decode bytes)).findings = findings :=
      Except.ok.inj ((Source.outcome_check _).symm.trans hcheck)
    obtain ⟨hcode, hwritten, hfailure⟩ := lint_unlimited (.ofArgument argument) bytes
    rw [run_of_argument hparse, hfetch]
    have hempty : (Command.lint (.ofArgument argument) (.ok bytes) {}).stdout.written = #[]
        ↔ (Source.ofText (Utf8.decode bytes)).findings.length = 0 := by
      rw [← Array.toList_eq_nil_iff, hwritten, Report.bytes_eq_nil_iff]
    exact ⟨hcode, by rw [hcode, exitCode_eq_zero_iff], Outcome.showsLogOnly hfailure, hempty,
      fun hsome => ⟨hwritten, hwritten ▸ Report.summary_suffix_bytes hsome⟩⟩

/-- What a run shows where the device of standard output is full. -/
theorem showsFull_run (h : Ends arguments stdin files ending) :
    ending.ShowsFull (run arguments ⟨stdin, files, {}⟩) (run arguments ⟨stdin, files, .full⟩) := by
  cases h with
  | advised hparse _ =>
    rw [run_of_usage hparse, run_of_usage hparse]
    rfl
  | @misused usage hparse husage =>
    rw [run_of_usage hparse, run_of_usage hparse]
    cases usage with
    | help => exact absurd rfl husage.1
    | version => exact absurd rfl husage.2
    | unknownArgument | unwantedValue | missingOperand => exact ⟨rfl, rfl, fun _ => rfl⟩
  | unread hparse hfetch =>
    rw [run_of_argument hparse, run_of_argument hparse, hfetch]
    exact ⟨rfl, rfl, fun _ => rfl⟩
  | @checked argument bytes findings hparse hfetch hcheck =>
    obtain rfl : (Source.ofText (Utf8.decode bytes)).findings = findings :=
      Except.ok.inj ((Source.outcome_check _).symm.trans hcheck)
    obtain ⟨hwritten, hnone, hsome⟩ := lint_full (.ofArgument argument) bytes
    rw [run_of_argument hparse, run_of_argument hparse, hfetch]
    have htext : Failure.message (.unwritable .deviceFull)
        = "cannot write report: No space left on device (os error 28)" := by decide +kernel
    refine ⟨hwritten, fun hcount => (hnone hcount).imp_right Outcome.showsLogOnly, ?_⟩
    intro hcount
    obtain ⟨hcode, hfailure⟩ := hsome hcount
    exact ⟨hcode, htext ▸ Outcome.showsError hfailure⟩

/-- **The exit code and standard output tell failures from findings.** A run
    ends in one way only. Where standard output works, a code other than zero
    and no output mean that the run failed. Where its device is full, the run
    fails if it has findings to write, and only then does it end otherwise. -/
theorem exit_status (arguments : List String) (stdin : Except Fault Bytes) (files : FileTree) :
    let working := run arguments ⟨stdin, files, {}⟩
    let full := run arguments ⟨stdin, files, .full⟩
    ∃ ending, Ends arguments stdin files ending
      ∧ (∀ other, Ends arguments stdin files other → other = ending)
      ∧ ending.Shows working
      ∧ (working.code ≠ 0 ∧ working.stdout.written = #[] ↔ ending.Fails)
      ∧ ending.ShowsFull working full := by
  intro working full
  obtain ⟨ending, hends⟩ := exists_ends arguments stdin files
  have hshows := shows_run hends
  exact ⟨ending, hends, fun other => hends.unique, hshows, hshows.fails_iff, showsFull_run hends⟩

/-- Two findings and wrong arguments share an exit code, but not what standard
    output shows. -/
example :
    let findings := run ["-"] ⟨.ok (Utf8.encode "\"$x\" + s\"y\""), ⟨[], []⟩, {}⟩
    let misuse := run ["-", "-"] ⟨.ok [], ⟨[], []⟩, {}⟩
    findings.code = 2 ∧ findings.stdout.written ≠ #[]
      ∧ misuse.code = 2 ∧ misuse.stdout.written = #[] := by
  decide +kernel

end Command

end LiteralLint
