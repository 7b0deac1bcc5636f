import LiteralLint.Proofs.ExitStatus

/-! # Logging

  A run does not collect its log and show it at the end. Each part of it writes
  an event when it comes to it, unless the setting holds the event back. What
  such a run yields is the same for every setting, and what it writes to
  standard error is the log of `Outcome.stderr`.

  The key ideas:

  - A lint has the same answer for every log, and puts the same events into it,
    one after the other (`Command.lintWith_eq`). So the setting, which decides
    what the log keeps of them, has no way into the answer.
  - A log that leaves out what the setting does not admit, event by event, is
    what is left of the whole log (`Logging.foldl_emit`).
  - Why a run fails is said without the run (`Fails`): by what its input holds,
    and by the room that standard output has for the report.
-/

namespace LiteralLint

/-! ### Settings -/

/-- `Selects setting? level`: the setting stands for the level. It is absent, or
    it is the name of the level in any letter case. -/
inductive Level.Selects : Option String → Level → Prop
  | unset : Selects none .warn
  | named {name : String} {level : Level}
      (hname : name.toList.map Char.toLower = level.name.toList.map Char.toLower) :
      Selects (some name) level

/-- A setting is read as the level that it stands for. -/
theorem Level.ofSetting_of_selects {setting? : Option String} {level : Level}
    (h : Selects setting? level) : ofSetting setting? = level := by
  cases h with
  | unset => rfl
  | @named name _ hname =>
    have hlower : name.toLower = level.name.toLower := by
      show name.map Char.toLower = level.name.map Char.toLower
      rw [← String.toList_inj, String.toList_map, String.toList_map]
      exact hname
    show (ofName? name).getD .warn = level
    unfold ofName?
    rw [hlower]
    cases level <;> decide +kernel

/-! ### Writing as a Run Goes -/

/-- What is written to standard error at one time. -/
inductive Message
  | log (event : Event)
  | error (failure : Failure)
  deriving DecidableEq

/-- The text of a message, which ends with a line feed. -/
def Message.text : Message → String
  | .log event => event.render
  | .error failure => "Error: " ++ failure.message ++ "\n"

/-- The event that a message is written for. -/
def Message.event? : Message → Option Event
  | .log event => some event
  | .error _ => none

/-- What a run shows that writes its log as it goes. -/
structure Seen where
  /-- The exit code. -/
  code : Nat
  /-- Standard output after the run. -/
  stdout : Sink
  /-- Why the arguments name no input, if they do not. -/
  usage? : Option Usage
  /-- What was written to standard error once the arguments had named an
      input, in order. -/
  stderr : List Message
  deriving DecidableEq

namespace Seen

/-- The events among the messages. -/
def log (seen : Seen) : List Event := seen.stderr.filterMap Message.event?

/-- The messages as they are written. -/
def text (seen : Seen) : String := String.join (seen.stderr.map Message.text)

end Seen

/-- What the arguments ask for, or do wrong, if they name no input. -/
def Arguments.usage? (arguments : List String) : Option Usage :=
  match parse arguments with
  | .error usage => some usage
  | .ok _ => none

namespace Logging

/-- Write an event if the setting admits it. -/
def emit (setting : Level) (written : List Message) (event : Event) : List Message :=
  if setting.admits event.level then written ++ [.log event] else written

/-- Run on an input. The events are written when the run comes to them, and the
    failure, if there is one, is written last. -/
def runOn (setting : Level) (input : Input) (host : Host) : Seen :=
  let ((answer, stdout), written) :=
    Command.lintWith (emit setting) [] input (input.fetch host.stdin host.files) host.stdout
  ⟨answerCode answer, stdout, none, written ++ (answerFailure? answer).toList.map .error⟩

/-- Run the command. The setting is read once the arguments have named an
    input. -/
def run (setting? : Option String) (arguments : List String) (host : Host) : Seen :=
  match Arguments.parse arguments with
  | .error usage =>
    let outcome := Command.advise usage host.stdout
    ⟨outcome.code, outcome.stdout, some usage, []⟩
  | .ok argument => runOn (.ofSetting setting?) (.ofArgument argument) host

/-! ### Results and Events -/

/-- Events that are written one by one are those that the setting admits. -/
theorem foldl_emit (setting : Level) (written : List Message) (events : List Event) :
    events.foldl (emit setting) written
      = written ++ (events.filter fun event => setting.admits event.level).map .log := by
  induction events generalizing written with
  | nil => exact (List.append_nil _).symm
  | cons event events ih =>
    rw [List.foldl_cons, ih, emit, List.filter_cons]
    split
    · rw [List.append_assoc]
      rfl
    · rfl

end Logging

namespace Outcome

/-- The messages of the run at a level. -/
def messages (outcome : Outcome) (setting : Level) : List Message :=
  (outcome.log setting).map .log ++ outcome.failure?.toList.map .error

/-- The messages are what standard error shows. -/
theorem join_messages (outcome : Outcome) (setting : Level) :
    String.join ((outcome.messages setting).map Message.text) = outcome.stderr setting := by
  have hlog : (Message.text ∘ Message.log) = Event.render := rfl
  rw [messages, stderr, List.map_append, List.map_map, hlog, String.join_append]
  cases outcome.failure? with
  | none => rfl
  | some failure => simp [Message.text, String.join]

end Outcome

namespace Logging

/-- A run on an input that writes its log as it goes shows what its outcome
    does. -/
theorem runOn_eq (setting : Level) (input : Input) (host : Host) :
    let outcome := Command.lint input (input.fetch host.stdin host.files) host.stdout
    runOn setting input host
      = ⟨outcome.code, outcome.stdout, none, outcome.messages setting⟩ := by
  intro outcome
  have houtcome : outcome = _ := Command.lint_eq _ _ _
  rw [houtcome, runOn, Command.lintWith_eq, foldl_emit, List.nil_append]
  rfl

/-- **A run that writes its log as it goes is the run.** The setting decides
    which messages are written and nothing else. -/
theorem run_eq (setting? : Option String) (arguments : List String) (host : Host) :
    let outcome := Command.run arguments host
    run setting? arguments host
      = ⟨outcome.code, outcome.stdout, Arguments.usage? arguments,
          outcome.messages (.ofSetting setting?)⟩ := by
  intro outcome
  unfold run Arguments.usage?
  cases hparse : Arguments.parse arguments with
  | error usage =>
    have houtcome : outcome = Command.advise usage host.stdout := Command.run_of_usage hparse
    rw [houtcome]
    rfl
  | ok argument =>
    have houtcome : outcome = Command.lint _ _ host.stdout := Command.run_of_argument hparse
    rw [houtcome]
    exact runOn_eq (.ofSetting setting?) (.ofArgument argument) host

end Logging

/-! ### Levels -/

/-- A setting either admits every event, or all but those of the most verbose
    level, or none. -/
theorem Level.admits_level (setting : Level) (event : Event) :
    setting.admits event.level
      = (setting = .trace ∨ setting = .debug ∧ event.level ≠ .trace : Bool) := by
  cases event <;> cases setting <;> rfl

namespace Outcome

theorem log_trace (outcome : Outcome) : outcome.log .trace = outcome.events := by
  unfold log
  rw [List.filter_eq_self]
  intro event _
  rw [Level.admits_level]
  rfl

theorem log_debug (outcome : Outcome) :
    outcome.log .debug = outcome.events.filter fun event => event.level ≠ .trace := by
  unfold log
  congr 1
  funext event
  rw [Level.admits_level]
  simp

theorem log_of_silent (outcome : Outcome) {setting : Level} (hdebug : setting ≠ .debug)
    (htrace : setting ≠ .trace) : outcome.log setting = [] := by
  unfold log
  rw [List.filter_eq_nil_iff]
  intro event _
  rw [Level.admits_level]
  simp [hdebug, htrace]

end Outcome

/-! ### Failures -/

/-- `Fails input host failure`: a run on the input fails for this reason where
    it finds this around it. -/
inductive Fails (input : Input) (host : Host) : Failure → Prop
  /-- The input cannot be read. -/
  | unread {fault : Fault} (hfetch : input.fetch host.stdin host.files = .error fault) :
      Fails input host (.unreadable input.display fault)
  /-- Standard output has no room for the whole report. -/
  | cut {bytes : Bytes} (hfetch : input.fetch host.stdin host.files = .ok bytes)
      (hroom : ¬ host.stdout.Fits
        (Report.bytes (Source.ofText (Utf8.decode bytes)).findings).length) :
      Fails input host (.unwritable host.stdout.overflow)
  /-- Standard output takes the report and cannot be flushed. -/
  | unflushed {bytes : Bytes} {fault : Fault}
      (hfetch : input.fetch host.stdin host.files = .ok bytes)
      (hroom : host.stdout.Fits
        (Report.bytes (Source.ofText (Utf8.decode bytes)).findings).length)
      (hflush : host.stdout.flushFault? = some fault) :
      Fails input host (.unwritable fault)

variable {input : Input} {host : Host} {failure : Failure}

/-- A reason why a run fails is the one that its outcome names. -/
theorem Fails.failure?_eq (h : Fails input host failure) :
    (Command.lint input (input.fetch host.stdin host.files) host.stdout).failure?
      = some failure := by
  cases h with
  | unread hfetch =>
    rw [hfetch]
    rfl
  | @cut bytes hfetch hroom =>
    have hlint := Source.lint_eq (Utf8.decode bytes) host.stdout
    rw [Sink.commit_of_not_fits hroom] at hlint
    rw [hfetch, (Command.lint_of_error hlint).2.2]
  | @unflushed bytes fault hfetch hroom hflush =>
    have hlint := Source.lint_eq (Utf8.decode bytes) host.stdout
    rw [Sink.commit_of_fits hroom, hflush] at hlint
    rw [hfetch, (Command.lint_of_error hlint).2.2]

/-- The outcome of a run names a failure if and only if there is a reason for
    it. -/
theorem failure?_eq_some_iff :
    (Command.lint input (input.fetch host.stdin host.files) host.stdout).failure? = some failure
      ↔ Fails input host failure := by
  refine ⟨fun h => ?_, Fails.failure?_eq⟩
  cases hfetch : input.fetch host.stdin host.files with
  | error fault =>
    rw [hfetch] at h
    obtain rfl := Option.some.inj h
    exact .unread hfetch
  | ok bytes =>
    rw [hfetch] at h
    have hlint := Source.lint_eq (Utf8.decode bytes) host.stdout
    by_cases hroom : host.stdout.Fits
        (Report.bytes (Source.ofText (Utf8.decode bytes)).findings).length
    · rw [Sink.commit_of_fits hroom] at hlint
      cases hflush : host.stdout.flushFault? with
      | none =>
        rw [hflush] at hlint
        rw [(Command.lint_of_ok hlint).2.2] at h
        cases h
      | some fault =>
        rw [hflush] at hlint
        rw [(Command.lint_of_error hlint).2.2] at h
        obtain rfl := Option.some.inj h
        exact .unflushed hfetch hroom hflush
    · rw [Sink.commit_of_not_fits hroom] at hlint
      rw [(Command.lint_of_error hlint).2.2] at h
      obtain rfl := Option.some.inj h
      exact .cut hfetch hroom

/-! ### Runs at All Settings -/

namespace Logging

/-- The log of a run is the log of its outcome. -/
theorem log_run (setting? : Option String) (arguments : List String) (host : Host) :
    (run setting? arguments host).log
      = (Command.run arguments host).log (.ofSetting setting?) := by
  have hlog : Message.event? ∘ Message.log = some := rfl
  rw [run_eq, Seen.log, Outcome.messages, List.filterMap_append, List.filterMap_map, hlog,
    List.filterMap_some]
  cases (Command.run arguments host).failure? <;> exact List.append_nil _

/-- **Logging does not interfere with a run.** Two runs that differ in the
    setting alone end with the same exit code, the same output, and the same
    answer to wrong arguments. Once the arguments have named an input, the
    setting selects events, and what follows them is the reason why the run
    fails, at every setting, if it fails. -/
theorem run_transparent (arguments : List String) (host : Host) :
    let seen (setting? : Option String) := run setting? arguments host
    let outcome := Command.run arguments host
    (∀ setting? other? : Option String,
        (seen setting?).code = (seen other?).code
          ∧ (seen setting?).stdout = (seen other?).stdout
          ∧ (seen setting?).usage? = (seen other?).usage?)
      ∧ (∀ setting? : Option String,
          (seen setting?).code = outcome.code
            ∧ (seen setting?).stdout = outcome.stdout
            ∧ (seen setting?).text = outcome.stderr (.ofSetting setting?))
      ∧ ∀ argument, Arguments.parse arguments = .ok argument →
        let input := Input.ofArgument argument
        (∀ trace? debug? : Option String,
            Level.Selects trace? .trace → Level.Selects debug? .debug →
            (seen trace?).log = input.events (input.fetch host.stdin host.files)
              ∧ (seen debug?).log = (seen trace?).log.filter (fun event => event.level ≠ .trace)
              ∧ (seen trace?).log.head? = some (.checking input.display)
              ∧ (seen debug?).log.head? = some (.checking input.display))
          ∧ (∀ (setting? : Option String) (level : Level),
              Level.Selects setting? level → level ≠ .debug → level ≠ .trace →
              (seen setting?).log = [])
          ∧ ∃ failure? : Option Failure,
            (∀ failure, failure? = some failure ↔ Fails input host failure)
              ∧ ∀ setting? : Option String,
                (seen setting?).stderr
                  = (seen setting?).log.map .log ++ failure?.toList.map .error := by
  intro seen outcome
  have hseen : ∀ setting?, seen setting? = ⟨outcome.code, outcome.stdout,
      Arguments.usage? arguments, outcome.messages (.ofSetting setting?)⟩ :=
    fun setting? => run_eq setting? arguments host
  have hlog : ∀ setting? level, Level.Selects setting? level →
      (seen setting?).log = outcome.log level := by
    intro setting? level hselects
    rw [← Level.ofSetting_of_selects hselects]
    exact log_run setting? arguments host
  refine ⟨?_, ?_, ?_⟩
  · intro setting? other?
    rw [hseen setting?, hseen other?]
    exact ⟨rfl, rfl, rfl⟩
  · intro setting?
    rw [hseen setting?]
    exact ⟨rfl, rfl, outcome.join_messages _⟩
  · intro argument hparse input
    have houtcome : outcome
        = Command.lint input (input.fetch host.stdin host.files) host.stdout :=
      Command.run_of_argument hparse
    have hevents : outcome.events = input.events (input.fetch host.stdin host.files) := by
      rw [houtcome, Command.lint_eq]
    refine ⟨?_, ?_, outcome.failure?, ?_, ?_⟩
    · intro trace? debug? htrace hdebug
      rw [hlog trace? _ htrace, hlog debug? _ hdebug, Outcome.log_trace, Outcome.log_debug,
        hevents]
      -- The event that comes first is not of the level that is held back.
      exact ⟨rfl, rfl, rfl, rfl⟩
    · intro setting? level hselects hdebug htrace
      rw [hlog setting? level hselects]
      exact outcome.log_of_silent hdebug htrace
    · intro failure
      rw [houtcome]
      exact failure?_eq_some_iff
    · intro setting?
      show (run setting? arguments host).stderr = (run setting? arguments host).log.map _ ++ _
      rw [log_run, run_eq]
      rfl

/-- A literal is closed and another one is dropped before the report finds no
    room. -/
theorem run_transparent_full :
    let bytes := Utf8.encode "\"$x\" + s\"y"
    let seen (setting? : Option String) := run setting? ["-"] ⟨.ok bytes, ⟨[], []⟩, .full⟩
    (seen (some "Trace")).code = (seen none).code
      ∧ (seen (some "Trace")).stdout = (seen none).stdout
      ∧ (seen (some "dEBUG")).log
        = (seen (some "Trace")).log.filter (fun event => event.level ≠ .trace)
      ∧ (seen (some "Info")).log = []
      ∧ (seen (some "Trace")).stderr
        = [.log (.checking "<stdin>"), .log (.closed 1 .single .bare),
          .log (.discarded 1 .single), .log (.finished 1 1 1),
          .error (.unwritable .deviceFull)] := by
  intro bytes seen
  have hinfo : Level.Selects (some "Info") .info := .named (by decide +kernel)
  have hdebug : Level.Selects (some "dEBUG") .debug := .named (by decide +kernel)
  have htrace : Level.Selects (some "Trace") .trace := .named (by decide +kernel)
  have hroom : ¬ Sink.full.Fits
      (Report.bytes (Source.ofText (Utf8.decode bytes)).findings).length := by
    intro hfits
    exact absurd (hfits 0 rfl) (by decide +kernel)
  obtain ⟨hsame, -, hinput⟩ := run_transparent ["-"] ⟨.ok bytes, ⟨[], []⟩, .full⟩
  obtain ⟨hcode, hstdout, -⟩ := hsame (some "Trace") none
  obtain ⟨hlogs, hsilent, failure?, hfailure, hstderr⟩ := hinput "-" (by decide +kernel)
  obtain ⟨hall, hfiltered, -, -⟩ := hlogs _ _ htrace hdebug
  have hfetch : (Input.ofArgument "-").fetch (.ok bytes) ⟨[], []⟩ = .ok bytes := by
    rw [show Input.ofArgument "-" = .stdin from if_pos rfl]
    rfl
  have hfull : failure? = some (.unwritable .deviceFull) := (hfailure _).2 (.cut hfetch hroom)
  have hstderrTrace := hstderr (some "Trace")
  refine ⟨hcode, hstdout, hfiltered, hsilent _ _ hinfo (by decide) (by decide), ?_⟩
  show (run (some "Trace") ["-"] ⟨.ok bytes, ⟨[], []⟩, .full⟩).stderr = _
  rw [hstderrTrace, hall, hfull]
  decide +kernel

end Logging

end LiteralLint
