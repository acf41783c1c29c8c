import CloudClient.Http.Target
import CloudClient.Delivery

/-!
What can be asked of the service: a method, where it goes, what is sent along and what comes back.
-/

namespace CloudClient

open Http (Method Target)

structure Operation (α : Type) where
  method : Method
  target : Target
  body : Option Json := none
  content : Content α

namespace Operation

variable {α : Type}

def path (o : Operation α) : String := o.target.render

def url (c : Config) (o : Operation α) : String := c.endpoint o.path

def run (c : Config) (o : Operation α) : Program (Except Failure α) :=
  Delivery.call c o.method o.path (o.body.map Json.encode) o.content

/-! ### Kinds of operations -/

def get (target : Target) (c : Json.Codec α) : Operation α :=
  { method := .get, target, content := .json c }

def post (target : Target) (body : Json) (c : Json.Codec α) : Operation α :=
  { method := .post, target, body := some body, content := .json c }

def patch (target : Target) (body : Json) (c : Json.Codec α) : Operation α :=
  { method := .patch, target, body := some body, content := .json c }

/-- Makes something, and gives its identifier. -/
def create (target : Target) (body : Json) : Operation String :=
  { method := .post, target, body := some body, content := .text }

/-- Sends something, and looks for no answer. -/
def tell (method : Method) (target : Target) (body : Option Json := none) : Operation Unit :=
  { method, target, body, content := .none }

def delete (target : Target) : Operation Unit :=
  tell .delete target

end Operation

end CloudClient
