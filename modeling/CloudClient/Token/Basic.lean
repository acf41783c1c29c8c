import CloudClient.Text.Described
import CloudClient.Time.Timestamp
import CloudClient.Token.Response

/-!
Access tokens and how long they live.
-/

namespace CloudClient

structure Token where
  accessToken : String
  refreshToken : Option String
  tokenType : String
  expiresAt : Timestamp
  scope : String
  deriving DecidableEq, Repr

namespace Token

/-- The life of a token, in seconds, when the answer does not state it. -/
def defaultLifetime : UInt64 := 3600

/-- The end of a life that begins now; one past the end of time ends there. -/
def expiry (lifetime : UInt64) (now : Timestamp) : Timestamp :=
  ((TimeDelta.ofSeconds? lifetime.toNat).bind now.add?).getD .max

def ofResponse (r : TokenResponse) (now : Timestamp) : Token where
  accessToken := r.accessToken
  refreshToken := r.refreshToken
  tokenType := r.tokenType
  expiresAt := expiry (r.expiresIn.getD defaultLifetime) now
  scope := r.scope.getD ""

/-- Whether the token lives longer than for another `margin`. A margin that is no time delta counts
as zero, and a token that would end before the beginning of time is not valid. -/
def outlives (t : Token) (now : Timestamp) (margin : Duration) : Bool :=
  match t.expiresAt.sub? ((TimeDelta.ofDuration? margin).getD .zero) with
  | some deadline => now < deadline
  | none => false

/-- The time left to live, negative after the end. -/
def timeLeft (t : Token) (now : Timestamp) : TimeDelta :=
  t.expiresAt.since now

def authorization (accessToken : String) : String :=
  "Bearer " ++ accessToken

def neverExpires (t : Token) : Bool :=
  t.expiresAt = .max

def describe (t : Token) : String :=
  Text.describe "Token" [
    ("access_token", Text.quote Text.redacted),
    ("refresh_token", Text.describeOption (t.refreshToken.map fun _ => Text.quote Text.redacted)),
    ("token_type", Text.quote t.tokenType),
    ("expires_at", t.expiresAt.render),
    ("scope", Text.quote t.scope)]

end Token

end CloudClient
