import CloudClient.Config
import CloudClient.Http.Message
import CloudClient.Token.Response

/-!
Requests for tokens, on the strength of the credentials or of a refresh token, and what their
answers mean.
-/

namespace CloudClient

inductive Grant where
  | clientCredentials
  | refreshToken (token : String)
  deriving DecidableEq, Repr

namespace Grant

def name : Grant → String
  | .clientCredentials => "client_credentials"
  | .refreshToken _ => "refresh_token"

def params (c : Credentials) (g : Grant) : List (String × String) :=
  ("grant_type", g.name) ::
    match g with
    | .clientCredentials => [("client_id", c.clientId), ("client_secret", c.clientSecret)]
    | .refreshToken token => [("refresh_token", token)]

def jsonBody (params : List (String × String)) : Bytes :=
  (Json.obj (params.map fun (key, value) => (key, Json.str value))).sorted.encode

def formBody (params : List (String × String)) : Bytes :=
  Utf8.encode ("&".intercalate (params.map fun (key, value) =>
    Percent.segment key ++ "=" ++ Percent.segment value))

def body (format : TokenFormat) (c : Credentials) (g : Grant) : Bytes :=
  match format with
  | .json => jsonBody (g.params c)
  | .form => formBody (g.params c)

def request (c : Config) (g : Grant) : Http.Request :=
  { method := .post
    url := c.tokenUrl
    headers := [("Content-Type", c.tokenFormat.contentType), ("Accept", "application/json")]
    body := some (g.body c.tokenFormat c.credentials)
    timeout := some c.timeout }

end Grant

/-- The token in a response to a grant, which has to be a success. -/
def TokenResponse.ofHttp (r : Http.Response) : Except AuthFault TokenResponse :=
  if r.isSuccess then
    match TokenResponse.codec.read r.body with
    | .error p => .error (.malformedToken p)
    | .ok t => if t.accessToken.isEmpty then .error .emptyToken else .ok t
  else .error (.exchangeRejected (.ofResponse r.status r.body))

end CloudClient
