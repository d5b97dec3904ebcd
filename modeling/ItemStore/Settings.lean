import ItemStore.Text.Whitespace
import ItemStore.Value.Shape

/-! Settings.

Settings come from the environment. Of the variables for a setting the first that is not empty
counts; its text is trimmed, and a blank one leaves the setting unset. A client is opened with the
region and the endpoint only if they are set. -/
namespace ItemStore

/-- The variables of an environment. -/
abbrev Environment := List (String × String)

/-- Settings are kept as they are given; null stands for one that is not set. -/
structure Settings where
  region : Value
  endpoint : Value
  logLevel : Value
  service : Value
  /-- Seconds to wait for a connection. -/
  connectTimeout : Value
  /-- Seconds to wait for a reply. -/
  readTimeout : Value
  maxAttempts : Value

namespace Settings

/-- A whole number of seconds as a float. -/
def seconds (n : Nat) : Value := .float (Double.ofDecimal (Decimal.ofInt n))

/-- The service unless it is set. -/
def defaultService : String := "dynamo-adapter"

/-- Times out after one second and three seconds, and tries three times. -/
def standard : Settings where
  region := .null
  endpoint := .null
  logLevel := .text "INFO"
  service := .text defaultService
  connectTimeout := seconds 1
  readTimeout := seconds 3
  maxAttempts := .int 3

/-- The text of the first variable that is not empty. -/
def lookup (env : Environment) (names : List String) : String :=
  (names.findSome? fun name => (env.lookup name).filter (· != "")).getD ""

/-- A text that is not empty. -/
def nonEmpty? (s : String) : Option String := if s == "" then none else some s

/-- The trimmed text of a setting, unless it is blank. -/
def setting? (env : Environment) (names : List String) : Option String :=
  nonEmpty? (Text.trim (lookup env names))

/-- A text, or null. -/
def textOrNull (s : Option String) : Value := (s.map Value.text).getD .null

/-- The level of the log, which is either of two. -/
def logLevelOf (env : Environment) : String :=
  if (Text.trim (lookup env ["LOGGER_LEVEL"])).toUpper == "DEBUG" then "DEBUG" else "INFO"

def fromEnvironment (env : Environment) : Settings :=
  { standard with
    region := textOrNull (setting? env ["AWS_REGION", "AWS_DEFAULT_REGION"])
    endpoint := textOrNull (setting? env ["DYNAMODB_ENDPOINT"])
    logLevel := .text (logLevelOf env)
    service := .text ((setting? env ["POWERTOOLS_SERVICE_NAME"]).getD defaultService) }

/-- Changes a setting by its name. -/
def change (s : Settings) : Value × Value → Except Fault Settings
  | (.text "region", v) => .ok { s with region := v }
  | (.text "endpoint_url", v) => .ok { s with endpoint := v }
  | (.text "log_level", v) => .ok { s with logLevel := v }
  | (.text "service", v) => .ok { s with service := v }
  | (.text "connect_timeout", v) => .ok { s with connectTimeout := v }
  | (.text "read_timeout", v) => .ok { s with readTimeout := v }
  | (.text "max_attempts", v) => .ok { s with maxAttempts := v }
  | _ => .error .wrongType

/-- Standard settings with some of them changed. -/
def ofValue : Value → Except Fault Settings
  | .map fs => fs.foldlM change standard
  | _ => .error .wrongType

end Settings

/-- How a client is opened. -/
structure ClientOptions where
  service : String
  options : Fields
  connectTimeout : Value
  readTimeout : Value
  retries : Fields

/-- A parameter, unless it is null. -/
def parameter (name : String) : Value → Fields
  | .null => []
  | v => [(.text name, v)]

/-- How a client of the service is opened; the limit of retries must not be negative. -/
def Settings.clientOptions (s : Settings) : Except Fault ClientOptions := do
  if ← s.maxAttempts.isNegative then throw .retryLimit
  return {
    service := "dynamodb"
    options := parameter "region_name" s.region ++ parameter "endpoint_url" s.endpoint
    connectTimeout := s.connectTimeout
    readTimeout := s.readTimeout
    retries := [(.text "max_attempts", s.maxAttempts), (.text "mode", .text "adaptive")]
  }

end ItemStore
