import CloudClient.Text.Utf8
import CloudClient.Time.Duration

/-!
HTTP requests and responses, as far as a client sees them.
-/

namespace CloudClient.Http

inductive Method where
  | get
  | post
  | put
  | patch
  | delete
  deriving DecidableEq, Repr

namespace Method

def name : Method → String
  | .get => "GET"
  | .post => "POST"
  | .put => "PUT"
  | .patch => "PATCH"
  | .delete => "DELETE"

/-- Whether a request may be repeated without a further change on the server. -/
def isIdempotent : Method → Bool
  | .get | .put | .delete => true
  | .post | .patch => false

end Method

/-- Headers by name, each name once. Names that differ in case are different. -/
abbrev Headers := List (String × String)

/-- Sets a header, in the place it has if there is one of that name. -/
def Headers.set (name value : String) : Headers → Headers
  | [] => [(name, value)]
  | (n, v) :: rest =>
    if n = name then (name, value) :: rest else (n, v) :: Headers.set name value rest

structure Request where
  method : Method
  url : String
  headers : Headers := []
  body : Option Bytes := none
  timeout : Option Duration := none
  deriving DecidableEq, Repr

namespace Request

def header (r : Request) (name value : String) : Request :=
  { r with headers := r.headers.set name value }

def withBody (r : Request) (body : Bytes) : Request :=
  { r with body := some body }

/-- The token that the request is sent with. -/
def bearer? (r : Request) : Option String := do
  let value ← r.headers.lookup "Authorization"
  if "Bearer ".toList.isPrefixOf value.toList then some (String.ofList (value.toList.drop 7))
  else none

end Request

/-- A response; the names of its headers are in lower case. -/
structure Response where
  status : UInt16
  headers : Headers := []
  body : Bytes := []
  deriving DecidableEq, Repr

namespace Response

def isSuccess (r : Response) : Bool :=
  200 ≤ r.status && r.status < 300

/-- A header by its name in any case. -/
def header? (r : Response) (name : String) : Option String :=
  r.headers.lookup (String.ofList (name.toList.map Char.toLower))

end Response

end CloudClient.Http
