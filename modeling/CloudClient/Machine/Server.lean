import CloudClient.Error
import CloudClient.Http.Message

/-!
Servers, as state machines: a request that is sent takes some time, and when that is over the server
replies.
-/

namespace CloudClient

/-- What comes back for a request. -/
abbrev Reply := Except NetworkFailure Http.Response

structure Server (σ : Type) where
  /-- When the reply to a request is due that is sent at a time. -/
  due : σ → Http.Request → Nat → Nat
  reply : σ → Http.Request → Reply × σ

end CloudClient
