import LiteralLint.Literal

/-! # Log Events

  What a run reports about its own progress, apart from its findings. An
  event is a fact; its level, its origin, its message, and its fields are
  functions of that fact, and so is the log line it is written as.

  Events are recorded always. A level setting only selects which of them are
  written.
-/

namespace LiteralLint

/-! ### Levels -/

/-- The weight of an event, and the setting that admits events down to a
    weight. -/
inductive Level
  | off | error | warn | info | debug | trace
  deriving DecidableEq, Repr

namespace Level

/-- The position in the order from silent to most verbose. -/
def rank : Level → Nat
  | .off => 0
  | .error => 1
  | .warn => 2
  | .info => 3
  | .debug => 4
  | .trace => 5

/-- Whether a setting lets events of a level through. -/
def admits (setting level : Level) : Bool :=
  level.rank ≤ setting.rank

/-- The level that a name in any letter case stands for. -/
def ofName? (name : String) : Option Level :=
  match name.toLower with
  | "off" => some .off
  | "error" => some .error
  | "warn" => some .warn
  | "info" => some .info
  | "debug" => some .debug
  | "trace" => some .trace
  | _ => none

/-- The level that an optional setting selects: warnings and worse where it
    is absent or not a level name. -/
def ofSetting (setting? : Option String) : Level :=
  (setting?.bind ofName?).getD .warn

/-- The name a log line starts with. -/
def name : Level → String
  | .off => "OFF"
  | .error => "ERROR"
  | .warn => "WARN"
  | .info => "INFO"
  | .debug => "DEBUG"
  | .trace => "TRACE"

end Level

/-! ### Fields -/

/-- The value of an event's field. -/
inductive Field
  | number (n : Nat)
  | flag (value : Bool)
  | text (value : String)
  deriving DecidableEq, Repr

/-- A field's value as a log line shows it. -/
def Field.render : Field → String
  | .number n => toString n
  | .flag true => "true"
  | .flag false => "false"
  | .text value => value

/-! ### Events -/

/-- A fact about the progress of a run. -/
inductive Event
  /-- An input is about to be read. -/
  | checking (input : String)
  /-- A literal that opened on `line` was closed. -/
  | closed (line : Nat) (delimiter : Delimiter) (mark : Mark)
  /-- A literal that opened on `line` was never closed and is dropped. -/
  | discarded (line : Nat) (delimiter : Delimiter)
  /-- A check is complete. -/
  | finished (lines literals findings : Nat)
  deriving DecidableEq, Repr

namespace Event

/-- The level of an event. Closed literals are the only ones of the most
    verbose level. -/
def level : Event → Level
  | .closed .. => .trace
  | .checking .. | .discarded .. | .finished .. => .debug

/-- The part of the program that an event is reported for. -/
def target : Event → String
  | .checking .. => "strlint"
  | .closed .. | .discarded .. => "strlint_scanner::scanner"
  | .finished .. => "strlint_checker"

/-- What an event says, apart from its fields. -/
def message : Event → String
  | .checking .. => "checking"
  | .closed .. => "literal closed"
  | .discarded .. => "discarding unterminated literal"
  | .finished .. => "check finished"

/-- The name of the state in which a literal of a delimiter is left open. -/
def openName : Delimiter → String
  | .single => "OpenSingle"
  | .triple => "OpenTriple"

/-- The fields of an event, in the order they are written. -/
def fields : Event → List (String × Field)
  | .checking input => [("input", .text input)]
  | .closed line delimiter mark =>
    [("line", .number line), ("triple", .flag (delimiter = .triple)), ("prefix", .text mark.text)]
  | .discarded line delimiter =>
    [("line", .number line), ("mode", .text (openName delimiter))]
  | .finished lines literals findings =>
    [("lines", .number lines), ("literals", .number literals), ("diagnostics", .number findings)]

/-- The log line of an event, with its line feed. -/
def render (event : Event) : String :=
  event.level.name ++ " " ++ event.target ++ ": " ++ event.message
    ++ String.join (event.fields.map fun (key, value) => " " ++ key ++ "=" ++ value.render)
    ++ "\n"

end Event

end LiteralLint
