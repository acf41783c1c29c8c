import CloudClient.Error
import CloudClient.Json.Codec

/-!
What the body of a successful response holds, for those who asked.
-/

namespace CloudClient

structure Content (α : Type) where
  read : Bytes → Except Error α
  toJson : α → Json

namespace Content

variable {α β : Type}

def json (c : Json.Codec α) : Content α where
  read body := (c.read body).mapError fun p => .deserialization p body
  toJson := c.encode

/-- A text between blanks; one that is a JSON string stands for the text that it denotes. -/
def textOf (body : Bytes) : String :=
  let text := Text.trim (Utf8.decodeLossy body)
  match Json.string.read (Utf8.encode text) with
  | .ok s => s
  | .error _ => text

def text : Content String where
  read body := .ok (textOf body)
  toJson := .str

/-- Nothing that anyone looks at. -/
def none : Content Unit where
  read _ := .ok ()
  toJson _ := .null

def select (c : Content α) (f : α → β) (toJson : β → Json) : Content β where
  read body := (c.read body).map f
  toJson := toJson

end Content

end CloudClient
