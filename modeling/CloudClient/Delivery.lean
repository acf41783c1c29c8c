import CloudClient.Content
import CloudClient.Time.HttpDate
import CloudClient.Token.Cache

/-!
One call: a request that is sent with a token, once more with a new token when the server rejects
the first, and again under the retry policy when it fails for a reason that may pass.
-/

namespace CloudClient.Delivery

open Http (Method Request Response)

/-- The request of a call, without a token yet. -/
def request (c : Config) (method : Method) (path : String) (body : Option Bytes) : Request :=
  { method
    url := c.endpoint path
    headers := [("Accept", "application/json"), ("User-Agent", c.userAgent)] ++
      (if body.isSome then [("Content-Type", "application/json")] else [])
    body
    timeout := some c.timeout }

def authorized (r : Request) (accessToken : String) : Request :=
  r.header "Authorization" (Token.authorization accessToken)

/-- The wait that a server asks for: a number of seconds, or the time up to a date. -/
def requestedWait (value : String) : Program (Option Duration) :=
  let value := Text.trim value
  match Text.unsigned? (2 ^ 64) value with
  | some n => return some (.ofSeconds (.ofNat n))
  | none =>
    match HttpDate.parse value with
    | none => return none
    | some date => return some ((date.since (← Program.timeOfDay)).toDuration?.getD .zero)

/-- What a response means that does not reject the token. -/
def meaning (r : Response) : Program (Except Failure Response) :=
  let error := ApiError.ofResponse r.status r.body
  if r.isSuccess then return .ok r
  else if r.status = 404 then return .error (.error (.notFound error))
  else if r.status = 429 then
    match r.header? "retry-after" with
    | none => return .error (.error (.rateLimit error none))
    | some value => return .error (.error (.rateLimit error (← requestedWait value)))
  else return .error (.error (.api error))

/-- Where one request leads. -/
inductive Outcome where
  | settled (result : Except Failure Response)
  | noToken (f : Failure)
  | rejected (accessToken : String) (e : ApiError)

def once (c : Config) (r : Request) : Program Outcome := do
  match ← TokenCache.get c with
  | .error f => return .noToken f
  | .ok token =>
    match ← Program.request (authorized r token.accessToken) with
    | .error f => return .settled (.error f)
    | .ok response =>
      if response.status = 401 then
        return .rejected token.accessToken (.ofResponse response.status response.body)
      else return .settled (← meaning response)

/-- What the attempts of one call know of each other. -/
structure Progress where
  reauthenticated : Bool := false
  withoutToken : Bool := false
  deriving DecidableEq, Repr

def Outcome.conclude (x : Progress) : Outcome → Except Failure Response × Progress
  | .settled result => (result, x)
  | .noToken f => (.error f, { x with withoutToken := true })
  | .rejected _ e => (.error (.error (.auth (.rejectedAfterRefresh e) (some 401))), x)

/-- An attempt. The first rejection in a call makes room for a new token, and the request is sent
once more. -/
def attempt (c : Config) (r : Request) (x : Progress) :
    Program (Except Failure Response × Progress) := do
  match ← once c r with
  | .rejected accessToken e =>
    if x.reauthenticated then return (Outcome.rejected accessToken e).conclude x
    else do
      TokenCache.discard accessToken
      return (← once c r).conclude { x with reauthenticated := true }
  | outcome => return outcome.conclude x

/-- Errors that may pass are reason to try again, unless they come from asking for a token. -/
def mayPass (x : Progress) (e : Error) : Bool :=
  e.isTransient && !x.withoutToken

def run (c : Config) (r : Request) : Program (Except Failure Response) := do
  let (result, _) ← Program.repeating c.retry mayPass (attempt c r) {}
  return result

/-- A call whose response is read. -/
def call {α : Type} (c : Config) (method : Method) (path : String) (body : Option Bytes)
    (content : Content α) : Program (Except Failure α) := do
  match ← run c (request c method path body) with
  | .error f => return .error f
  | .ok response => return (content.read response.body).mapError .error

end CloudClient.Delivery
