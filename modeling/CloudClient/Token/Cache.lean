import CloudClient.Retry.Repeat
import CloudClient.Token.Grant

/-!
The token cache that all calls of a client share. Who finds no usable token in it holds it until a
new one has come, so that others wait for that one instead of asking for their own.
-/

namespace CloudClient

def Program.request (r : Http.Request) : Program (Except Failure Http.Response) := do
  match ← Program.send r with
  | .ok response => return .ok response
  | .error failure => return .error (.error (.network failure))

namespace TokenCache

open Program (acquire release timeOfDay)

/-- Asks the token endpoint for a token. Only failures of the network are repeated. -/
def fetch (c : Config) (g : Grant) : Program (Except Failure Token) := do
  match ← Program.retrying c.retry Error.isTransient (Program.request (g.request c)) with
  | .error f => return .error f
  | .ok response =>
    match TokenResponse.ofHttp response with
    | .error fault => return .error (.error (.auth fault (some response.status)))
    | .ok t => return .ok (Token.ofResponse t (← timeOfDay))

/-- A new token. A refresh token is tried first; when that fails for whatever reason, the
credentials are. -/
def renew (c : Config) (refreshToken : Option String) : Program (Except Failure Token) :=
  match refreshToken with
  | none => fetch c .clientCredentials
  | some token => do
    match ← fetch c (.refreshToken token) with
    | .error (.error _) => fetch c .clientCredentials
    | result => return result

/-- The cached token, when it is there and lives long enough. -/
def usable? (c : Config) (cached : Option Token) : Program (Option Token) :=
  match cached with
  | none => return none
  | some t => do
    let now ← timeOfDay
    return if t.outlives now c.tokenMargin then some t else none

/-- A token that lives long enough: that in the cache, or else a new one, which is then cached. -/
def get (c : Config) : Program (Except Failure Token) := do
  let cached ← acquire
  match ← usable? c cached with
  | some t => do
    release cached
    return .ok t
  | none => do
    match ← renew c (cached.bind (·.refreshToken)) with
    | .ok t => do
      release (some t)
      return .ok t
    | .error f => do
      release cached
      return .error f

def peek : Program (Option Token) := do
  let cached ← acquire
  release cached
  return cached

def clear : Program Unit := do
  let _ ← acquire
  release none

/-- Empties the cache if it holds the given token. One that has taken its place stays. -/
def discard (accessToken : String) : Program Unit := do
  let cached ← acquire
  release (if cached.any (·.accessToken = accessToken) then none else cached)

end TokenCache

end CloudClient
