import CloudClient.Error
import CloudClient.Http.Target
import CloudClient.Retry.Policy

/-!
Configurations and how they are put together: settings are collected in a draft, where the last
value of each setting counts, and a draft that has all that is needed makes a configuration.
-/

namespace CloudClient

structure Credentials where
  clientId : String
  clientSecret : String
  deriving DecidableEq, Repr

def Credentials.describe (c : Credentials) : String :=
  Text.describe "Credentials" [
    ("client_id", Text.quote c.clientId),
    ("client_secret", Text.quote Text.redacted)]

/-- How the body of a token request is written. -/
inductive TokenFormat where
  | json
  | form
  deriving DecidableEq, Repr

namespace TokenFormat

def name : TokenFormat → String
  | .json => "Json"
  | .form => "Form"

def contentType : TokenFormat → String
  | .json => "application/json"
  | .form => "application/x-www-form-urlencoded"

end TokenFormat

structure Config where
  credentials : Credentials
  baseUrl : String
  timeout : Duration
  retry : RetryPolicy
  /-- A token is not used any more when it has less than this left to live. -/
  tokenMargin : Duration
  tokenFormat : TokenFormat
  userAgent : String
  deriving DecidableEq, Repr

namespace Config

def defaultBaseUrl : String := "https://api.datacrunch.io/v1"

def defaultUserAgent : String := "datacrunch-client-rust/0.1.0"

def tokenPath : String := "/oauth2/token"

/-- The URL of a path, which may begin with slashes. -/
def endpoint (c : Config) (path : String) : String :=
  Http.join c.baseUrl path

def tokenUrl (c : Config) : String :=
  c.endpoint tokenPath

def describe (c : Config) : String :=
  Text.describe "ClientConfig" [
    ("credentials", c.credentials.describe),
    ("base_url", Text.quote c.baseUrl),
    ("timeout", c.timeout.render),
    ("retry", c.retry.describe),
    ("token_safety_margin", c.tokenMargin.render),
    ("token_request_format", c.tokenFormat.name)]

end Config

inductive Setting where
  | clientId (s : String)
  | clientSecret (s : String)
  | baseUrl (s : String)
  | timeout (d : Duration)
  | retry (p : RetryPolicy)
  | maxRetries (n : UInt32)
  | tokenMargin (d : Duration)
  | tokenFormat (f : TokenFormat)
  | userAgent (s : String)
  deriving DecidableEq, Repr

/-- The settings made so far. -/
structure Draft where
  clientId : Option String := none
  clientSecret : Option String := none
  baseUrl : Option String := none
  timeout : Option Duration := none
  retry : Option RetryPolicy := none
  maxRetries : Option UInt32 := none
  tokenMargin : Option Duration := none
  tokenFormat : Option TokenFormat := none
  userAgent : Option String := none
  deriving DecidableEq, Repr

namespace Draft

def set (d : Draft) : Setting → Draft
  | .clientId s => { d with clientId := some s }
  | .clientSecret s => { d with clientSecret := some s }
  | .baseUrl s => { d with baseUrl := some s }
  | .timeout t => { d with timeout := some t }
  | .retry p => { d with retry := some p }
  | .maxRetries n => { d with maxRetries := some n }
  | .tokenMargin t => { d with tokenMargin := some t }
  | .tokenFormat f => { d with tokenFormat := some f }
  | .userAgent s => { d with userAgent := some s }

def ofSettings (settings : List Setting) : Draft :=
  settings.foldl set {}

/-- A text without the slashes at its end. -/
def withoutTrailingSlashes (s : String) : String :=
  String.ofList (s.toList.reverse.dropWhile (· == '/')).reverse

def hasScheme (url : String) : Bool :=
  "http://".toList.isPrefixOf url.toList || "https://".toList.isPrefixOf url.toList

/-- The policy, with the number of repetitions that is set apart from it. -/
def retryPolicy (d : Draft) : RetryPolicy :=
  let policy := d.retry.getD .standard
  match d.maxRetries with
  | some n => { policy with maxRetries := n }
  | none => policy

/-- Client id and secret have no defaults and must not be empty. -/
def toConfig (d : Draft) : Except ConfigFault Config := do
  let some clientId := d.clientId | throw .noClientId
  let some clientSecret := d.clientSecret | throw .noClientSecret
  if clientId.isEmpty then throw .emptyClientId
  if clientSecret.isEmpty then throw .emptyClientSecret
  let baseUrl := withoutTrailingSlashes (d.baseUrl.getD Config.defaultBaseUrl)
  if !hasScheme baseUrl then throw .badBaseUrl
  return {
    credentials := ⟨clientId, clientSecret⟩
    baseUrl
    timeout := d.timeout.getD (.ofSeconds 30)
    retry := d.retryPolicy
    tokenMargin := d.tokenMargin.getD (.ofSeconds 60)
    tokenFormat := d.tokenFormat.getD .json
    userAgent := d.userAgent.getD Config.defaultUserAgent }

end Draft

end CloudClient
