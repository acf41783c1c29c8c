import CloudClient.Json.Record

/-!
The answer of the token endpoint.
-/

namespace CloudClient

open Json (Codec Field Shape)

structure TokenResponse where
  accessToken : String
  refreshToken : Option String
  tokenType : String
  expiresIn : Option UInt64
  scope : Option String
  deriving DecidableEq, Repr

def TokenResponse.shape : Shape TokenResponse TokenResponse :=
  Shape.of TokenResponse TokenResponse.mk
    |>.and (·.accessToken) (.required "access_token" Json.string)
    |>.and (·.refreshToken) (.nullable "refresh_token" Json.string)
    |>.and (·.tokenType) (.defaulted "token_type" Json.string "Bearer")
    |>.and (·.expiresIn) (.nullable "expires_in" Json.uint64)
    |>.and (·.scope) (.nullable "scope" Json.string)

def TokenResponse.codec : Codec TokenResponse := TokenResponse.shape.record "struct TokenResponse"

end CloudClient
