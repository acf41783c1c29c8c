import CloudClient.Config.Environment

/-!
What is logged, and how. Names are read between blanks and in any case.
-/

namespace CloudClient

inductive LogLevel where
  | trace
  | debug
  | info
  | warn
  | error
  deriving DecidableEq, Repr

inductive LogFormat where
  | pretty
  | json
  | compact
  deriving DecidableEq, Repr

/-- A name without blanks around it and in lower case. No letter outside ASCII has its lower case
among the letters of the names below. -/
def LogLevel.normalize (s : String) : String :=
  String.ofList ((Text.trim s).toList.map Char.toLower)

namespace LogLevel

def name : LogLevel → String
  | .trace => "trace"
  | .debug => "debug"
  | .info => "info"
  | .warn => "warn"
  | .error => "error"

/-- From the most to the least that is logged. -/
def rank : LogLevel → Nat
  | .trace => 0
  | .debug => 1
  | .info => 2
  | .warn => 3
  | .error => 4

instance : LT LogLevel := ⟨fun a b => a.rank < b.rank⟩

instance (a b : LogLevel) : Decidable (a < b) := inferInstanceAs (Decidable (a.rank < b.rank))

def names : List (String × LogLevel) :=
  [("trace", .trace), ("debug", .debug), ("info", .info), ("warn", .warn), ("warning", .warn),
    ("error", .error)]

def parse (s : String) : Except ConfigFault LogLevel :=
  match names.lookup (normalize s) with
  | some level => .ok level
  | none => .error (.unknownLogLevel s)

end LogLevel

namespace LogFormat

def name : LogFormat → String
  | .pretty => "pretty"
  | .json => "json"
  | .compact => "compact"

def names : List (String × LogFormat) :=
  [("pretty", .pretty), ("json", .json), ("compact", .compact)]

def parse (s : String) : Except ConfigFault LogFormat :=
  match names.lookup (LogLevel.normalize s) with
  | some format => .ok format
  | none => .error (.unknownLogFormat s)

end LogFormat

structure LogConfig where
  level : LogLevel := .info
  format : LogFormat := .pretty
  includeTarget : Bool := true
  deriving DecidableEq, Repr

inductive LogSetting where
  | level (l : LogLevel)
  | format (f : LogFormat)
  | includeTarget (b : Bool)
  deriving DecidableEq, Repr

namespace LogConfig

def set (c : LogConfig) : LogSetting → LogConfig
  | .level l => { c with level := l }
  | .format f => { c with format := f }
  | .includeTarget b => { c with includeTarget := b }

def ofEnvironment (env : Environment) : Except ConfigFault LogConfig := do
  let mut config : LogConfig := {}
  if let some level := env "DATACRUNCH_LOG_LEVEL" then
    config := config.set (.level (← LogLevel.parse level))
  if let some format := env "DATACRUNCH_LOG_FORMAT" then
    config := config.set (.format (← LogFormat.parse format))
  return config

end LogConfig

end CloudClient
