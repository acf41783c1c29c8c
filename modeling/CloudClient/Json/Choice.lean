import CloudClient.Json.Codec

/-!
Enumerations, written as the name of the choice. Reading also takes an object whose only key is the
name and whose value is `null`.
-/

namespace CloudClient.Json

/-- The names of the choices in the order in which a problem lists them. Any other name is read as
`other`, if there is such a choice. -/
structure Choice (α : Type) where
  names : List (String × α)
  other : Option α
  name : α → String

namespace Choice

variable {α : Type}

def ofName (c : Choice α) (s : String) : Except Problem α :=
  match c.names.lookup s with
  | some a => .ok a
  | none =>
    match c.other with
    | some a => .ok a
    | none => .error (.unknownVariant s (c.names.map Prod.fst))

def ofLiteral (c : Choice α) (l : Literal) : Except Problem α := do
  let s ← l.text.mapError .notJson
  c.ofName s

def unit (n : Node) : Except Problem Unit :=
  match n with
  | .null => .ok ()
  | n => .error (n.mismatch "unit")

/-- What has to follow the only member of the object. -/
def closing : ObjectEnd → Except Problem Unit
  | .closed => .ok ()
  | .endOfText => .error (.notJson .endInObject)
  | _ => .error (.notJson .expectedValue)

/-- What is wrong with an object without members; an empty one is no value of the type. -/
def memberless (tail : ObjectEnd) : Fault :=
  tail.fault?.getD .expectedValue

def decodeObject (c : Choice α) (tail : ObjectEnd) : List (Literal × Node) → Except Problem α
  | [] => .error (.notJson (memberless tail))
  | (key, value) :: rest => do
    let a ← c.ofLiteral key
    unit value
    match rest with
    | [] => closing tail
    | _ => throw (.notJson .expectedValue)
    return a

/-- The fault of a value that is neither a string nor an object; it is not looked into. -/
def otherFault : Node → Fault
  | .broken .endOfText => .endInValue
  | .broken (.colon atEnd) => Break.fault (.colon atEnd)
  | _ => .expectedValue

def codec (c : Choice α) : Codec α where
  decode levels n := match n, levels with
    | .text l, _ => c.ofLiteral l
    | .object .., 0 => .error (.notJson .recursionLimit)
    | .object members tail, _ + 1 => c.decodeObject tail members
    | n, _ => .error (.notJson (otherFault n))
  encode a := .str (c.name a)

end Choice

end CloudClient.Json
