import CloudClient.Config

/-!
Configurations from the variables of an environment.
-/

namespace CloudClient

/-- The value of a variable, where it has one. -/
abbrev Environment := String → Option String

namespace Environment

def ofList (entries : List (String × String)) : Environment :=
  fun name => entries.lookup name

def required (env : Environment) (name : String) : Except ConfigFault String :=
  match env name with
  | some value => .ok value
  | none => .error (.unsetVariable name)

/-- The number below `bound` that a variable holds between blanks, where it is set. -/
def number? (env : Environment) (bound : Nat) (name : String) : Except ConfigFault (Option Nat) :=
  match env name with
  | none => .ok none
  | some value =>
    match Text.unsigned? bound (Text.trim value) with
    | some n => .ok (some n)
    | none => .error (.badVariable name value)

end Environment

namespace Config

/-- The settings that an environment makes. -/
def settingsOf (env : Environment) : Except ConfigFault (List Setting) := do
  let clientId ← env.required "DATACRUNCH_CLIENT_ID"
  let clientSecret ← env.required "DATACRUNCH_CLIENT_SECRET"
  let timeout ← env.number? (2 ^ 64) "DATACRUNCH_TIMEOUT"
  let maxRetries ← env.number? (2 ^ 32) "DATACRUNCH_MAX_RETRIES"
  return [.clientId clientId, .clientSecret clientSecret]
    ++ ((env "DATACRUNCH_BASE_URL").map Setting.baseUrl).toList
    ++ (timeout.map fun n => Setting.timeout (.ofSeconds (.ofNat n))).toList
    ++ (maxRetries.map fun n => Setting.maxRetries (.ofNat n)).toList

def ofEnvironment (env : Environment) : Except ConfigFault Config := do
  (Draft.ofSettings (← settingsOf env)).toConfig

end Config

end CloudClient
