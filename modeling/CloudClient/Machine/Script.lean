import CloudClient.Config
import CloudClient.Machine.Server
import CloudClient.Machine.Timer

/-!
Scripted servers: replies made up beforehand, in one queue for the token endpoint and one for all
others.
-/

namespace CloudClient

namespace Reply

def ofText (status : UInt16) (body : String) : Reply :=
  .ok { status, headers := [("content-type", "text/plain")], body := Utf8.encode body }

def ofJson (status : UInt16) (body : Json) : Reply :=
  .ok { status, headers := [("content-type", "application/json")], body := body.sorted.encode }

def failure (kind : NetworkKind) : Reply :=
  .error ⟨kind, "mock network failure"⟩

/-- What is answered when the script has no reply left. -/
def missing : Reply :=
  .error ⟨.connection, "No mock response available"⟩

def errorBody (status : UInt16) (message : String) : Json :=
  .obj [("message", .str message), ("status", .ofUInt16 status)]

def ofError (status : UInt16) (message : String) : Reply :=
  ofJson status (errorBody status message)

/-- A reply that asks to wait for some seconds. -/
def tooMany (seconds : UInt64) : Reply :=
  .ok {
    status := 429
    headers := [("content-type", "application/json"), ("retry-after", toString seconds.toNat)]
    body := (errorBody 429 "Too many requests").sorted.encode }

def token (accessToken : String) (expiresIn : UInt64) : Reply :=
  ofJson 200 (.obj [
    ("access_token", .str accessToken),
    ("refresh_token", .str ("refresh-" ++ accessToken)),
    ("token_type", .str "Bearer"),
    ("expires_in", .ofUInt64 expiresIn),
    ("scope", .str "cloud-api-v1")])

end Reply

structure Script where
  tokenReplies : List Reply := []
  replies : List Reply := []
  /-- The reply to token requests when their queue is empty. -/
  defaultToken : Option Reply := none
  /-- How long every reply takes. -/
  delay : Option Duration := none

namespace Script

/-- Whether a request goes to the token endpoint. -/
def isTokenUrl (url : String) : Bool :=
  Config.tokenPath.toList.isSuffixOf url.toList

def alwaysToken (accessToken : String) : Script :=
  { defaultToken := some (.token accessToken 3600) }

/-- A script with more written to it: replies are queued behind those that are there, and what else
is set stands in for what was. -/
def followedBy (s more : Script) : Script :=
  { tokenReplies := s.tokenReplies ++ more.tokenReplies
    replies := s.replies ++ more.replies
    defaultToken := more.defaultToken.or s.defaultToken
    delay := more.delay.or s.delay }

/-- The next reply to a request, which leaves its queue. -/
def reply (s : Script) (url : String) : Reply × Script :=
  if isTokenUrl url then
    match s.tokenReplies with
    | r :: rest => (r, { s with tokenReplies := rest })
    | [] => (s.defaultToken.getD .missing, s)
  else
    match s.replies with
    | r :: rest => (r, { s with replies := rest })
    | [] => (.missing, s)

/-- The server waits on a timer before it replies. -/
def server (t : Timer) : Server Script where
  due s _ now := s.delay.elim now (t.stop now)
  reply s r := s.reply r.url

end Script

end CloudClient
