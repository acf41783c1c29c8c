import CloudClient.Json.Codec
import CloudClient.Json.Record
import CloudClient.Time.Duration

/-!
What can go wrong with a call: the causes, their texts, and how callers tell them apart.
-/

namespace CloudClient

open Json (Codec Field Shape)

/-! ### Responses that report an error -/

/-- A response other than a success. -/
structure ApiError where
  status : UInt16
  message : String
  raw : Option Bytes := none
  deriving DecidableEq, Repr

/-- The body that the service sends with an error. -/
structure ErrorBody where
  message : Option String
  error : Option String
  status : Option UInt16
  code : Option String
  deriving DecidableEq, Repr

def ErrorBody.shape : Shape ErrorBody ErrorBody :=
  Shape.of ErrorBody ErrorBody.mk
    |>.and (·.message) (.nullable "message" Json.string)
    |>.and (·.error) (.nullable "error" Json.string)
    |>.and (·.status) (.nullable "status" Json.uint16)
    |>.and (·.code) (.nullable "code" Json.string)

def ErrorBody.codec : Codec ErrorBody := ErrorBody.shape.record "struct ApiErrorResponse"

namespace ApiError

def decimal (n : UInt16) : String :=
  String.ofList (Nat.toDigits 10 n.toNat)

/-- The message that a body states in a field for it. -/
def statedMessage? (body : Bytes) : Option String :=
  match ErrorBody.codec.read body with
  | .ok b => b.message.or b.error
  | .error _ => none

/-- The text of a body, unless it is blank. -/
def text? (body : Bytes) : Option String :=
  let text := Text.trim (Utf8.decodeLossy body)
  if text.isEmpty then none else some text

/-- The message is what the body states, else the text of the body, else the status. -/
def ofResponse (status : UInt16) (body : Bytes) : ApiError where
  status := status
  message := ((statedMessage? body).or (text? body)).getD ("HTTP " ++ decimal status ++ " error")
  raw := if body.isEmpty then none else some body

def display (e : ApiError) : String :=
  "HTTP " ++ decimal e.status ++ ": " ++ e.message

end ApiError

/-! ### Causes -/

/-- Why a text is not a URL. -/
inductive UrlFault where
  | emptyHost
  | invalidDomainName
  | invalidPort
  | invalidIpv4Address
  | invalidIpv6Address
  | invalidDomainCharacter
  | relativeWithoutBase
  | relativeToOpaqueBase
  | hostOfOpaqueUrl
  | tooLong
  deriving DecidableEq, Repr

def UrlFault.message : UrlFault → String
  | .emptyHost => "empty host"
  | .invalidDomainName => "invalid international domain name"
  | .invalidPort => "invalid port number"
  | .invalidIpv4Address => "invalid IPv4 address"
  | .invalidIpv6Address => "invalid IPv6 address"
  | .invalidDomainCharacter => "invalid domain character"
  | .relativeWithoutBase => "relative URL without a base"
  | .relativeToOpaqueBase => "relative URL with a cannot-be-a-base base"
  | .hostOfOpaqueUrl => "a cannot-be-a-base URL doesn’t have a host to set"
  | .tooLong => "URLs more than 4 GB are not supported"

inductive ConfigFault where
  | noClientId
  | noClientSecret
  | emptyClientId
  | emptyClientSecret
  | badBaseUrl
  | unsetVariable (name : String)
  | badVariable (name value : String)
  | unknownLogLevel (text : String)
  | unknownLogFormat (text : String)
  | badUserAgent
  | badUrl (fault : UrlFault)
  | other (message : String)
  deriving DecidableEq, Repr

def ConfigFault.message : ConfigFault → String
  | .noClientId => "Client ID is required"
  | .noClientSecret => "Client secret is required"
  | .emptyClientId => "Client ID cannot be empty"
  | .emptyClientSecret => "Client secret cannot be empty"
  | .badBaseUrl => "Base URL must start with http:// or https://"
  | .unsetVariable name => name ++ " environment variable not set"
  | .badVariable name value => name ++ " has an invalid value: " ++ Text.quote value
  | .unknownLogLevel text => "Unknown log level: " ++ text
  | .unknownLogFormat text => "Unknown log format: " ++ text
  | .badUserAgent => "Failed to create HTTP client: builder error: failed to parse header value"
  | .badUrl fault => "Invalid URL: " ++ fault.message
  | .other message => message

inductive AuthFault where
  | exchangeRejected (e : ApiError)
  | malformedToken (p : Json.Problem)
  | emptyToken
  | rejectedAfterRefresh (e : ApiError)
  | other (message : String)
  deriving DecidableEq, Repr

def AuthFault.message : AuthFault → String
  | .exchangeRejected e => "Token exchange failed: " ++ e.message
  | .malformedToken p => "Malformed token response: " ++ p.message
  | .emptyToken => "Malformed token response: empty access_token"
  | .rejectedAfterRefresh e => "Token rejected after refresh: " ++ e.message
  | .other message => message

inductive NetworkKind where
  | timeout
  | connection
  | body
  | other
  deriving DecidableEq, Repr

def NetworkKind.name : NetworkKind → String
  | .timeout => "timeout"
  | .connection => "connection"
  | .body => "body"
  | .other => "other"

/-- Why no response came back. -/
structure NetworkFailure where
  kind : NetworkKind
  message : String
  deriving DecidableEq, Repr

inductive EncodeFault where
  | keyNotString
  | other (message : String)
  deriving DecidableEq, Repr

def EncodeFault.message : EncodeFault → String
  | .keyNotString => Json.Fault.message .keyNotString
  | .other message => message

/-- A key as it stands in an object; arrays, objects and `null` cannot be keys. -/
def Json.keyOf : Json → Except EncodeFault String
  | .str s => .ok s
  | .bool b => .ok (Json.bool b).render
  | .number n => .ok (Json.number n).render
  | _ => .error .keyNotString

/-- An object from keys and values. -/
def Json.ofEntries (entries : List (Json × Json)) : Except EncodeFault Json := do
  return .obj (← entries.mapM fun (key, value) => do return (← keyOf key, value))

/-! ### Errors -/

inductive Error where
  | configuration (fault : ConfigFault)
  | auth (fault : AuthFault) (status : Option UInt16)
  | network (failure : NetworkFailure)
  | notFound (e : ApiError)
  | rateLimit (e : ApiError) (retryAfter : Option Duration)
  | api (e : ApiError)
  | cancelled
  | serialization (fault : EncodeFault)
  | deserialization (problem : Json.Problem) (body : Bytes)
  deriving DecidableEq, Repr

namespace Error

def message : Error → String
  | .configuration fault => "Configuration error: " ++ fault.message
  | .auth fault _ => "Authentication failed: " ++ fault.message
  | .network failure => "Network error (" ++ failure.kind.name ++ "): " ++ failure.message
  | .notFound e => "Not found: " ++ e.display
  | .rateLimit e _ => "Rate limit exceeded: " ++ e.display
  | .api e => "API error: " ++ e.display
  | .cancelled => "Operation cancelled"
  | .serialization fault => "Serialization error: " ++ fault.message
  | .deserialization problem _ => "Deserialization error: " ++ problem.message

def apiError? : Error → Option ApiError
  | .notFound e | .rateLimit e _ | .api e => some e
  | _ => none

def status? : Error → Option UInt16
  | .auth _ status => status
  | e => e.apiError?.map (·.status)

def isNotFound : Error → Bool
  | .notFound _ => true
  | _ => false

/-- Whether the same call may succeed a little later. -/
def isTransient : Error → Bool
  | .network _ => true
  | .rateLimit .. => true
  | .api e => 500 ≤ e.status
  | _ => false

/-- Whether a gateway or the service says that it is out of service for now. -/
def isUnavailable (e : Error) : Bool :=
  e.status?.any fun status => 502 ≤ status && status ≤ 504

def wait? : Error → Option Duration
  | .rateLimit _ hint => hint
  | _ => none

/-- A resource that is not found counts as absent. -/
def found? {α : Type} : Except Error α → Except Error (Option α)
  | .ok a => .ok (some a)
  | .error (.notFound _) => .ok none
  | .error e => .error e

end Error

end CloudClient
