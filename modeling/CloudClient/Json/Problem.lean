import CloudClient.Json.Node
import CloudClient.Numeric.Shortest
import CloudClient.Text.Quoted

/-!
Why a text does not decode as a value of a given type: it departs from JSON, or it holds something
other than what the type asks for.
-/

namespace CloudClient.Json

/-- What a text holds where something else is expected. -/
inductive Found where
  | null
  | bool (b : Bool)
  | int (i : Int)
  | float (x : Binary64)
  | text (s : String)
  | sequence
  | map
  deriving DecidableEq, Repr

def Found.describe : Found → String
  | .null => "null"
  | .bool b => "boolean `" ++ (if b then "true" else "false") ++ "`"
  | .int i =>
    let digits := Nat.toDigits 10 i.natAbs
    "integer `" ++ String.ofList (if i < 0 then '-' :: digits else digits) ++ "`"
  | .float x => "floating point `" ++ Binary64.wire.render x ++ "`"
  | .text s => "string " ++ Text.quote s
  | .sequence => "sequence"
  | .map => "map"

inductive Problem where
  | notJson (f : Fault)
  | invalidType (found : Found) (expected : String)
  | invalidValue (i : Int) (expected : String)
  | invalidLength (length : Nat) (expected : String)
  | missingField (name : String)
  | duplicateField (name : String)
  | unknownVariant (name : String) (known : List String)
  | noVariant (enum : String)
  | numeral (f : Binary64.NumeralFault)
  deriving DecidableEq, Repr

def ticked (s : String) : String := "`" ++ s ++ "`"

def oneOf : List String → String
  | [a] => ticked a
  | [a, b] => ticked a ++ " or " ++ ticked b
  | names => "one of " ++ ", ".intercalate (names.map ticked)

def Problem.message : Problem → String
  | .notJson f => f.message
  | .invalidType found expected => "invalid type: " ++ found.describe ++ ", expected " ++ expected
  | .invalidValue i expected =>
    "invalid value: " ++ (Found.int i).describe ++ ", expected " ++ expected
  | .invalidLength length expected =>
    "invalid length " ++ toString length ++ ", expected " ++ expected
  | .missingField name => "missing field " ++ ticked name
  | .duplicateField name => "duplicate field " ++ ticked name
  | .unknownVariant name known => "unknown variant " ++ ticked name ++ ", expected " ++ oneOf known
  | .noVariant enum => "data did not match any variant of untagged enum " ++ enum
  | .numeral f => f.message

/-- The problem with a value where `expected` was asked for and something else is found. -/
def Node.mismatch (expected : String) : Node → Problem
  | .null => .invalidType .null expected
  | .bool b => .invalidType (.bool b) expected
  | .number n =>
    match n.value with
    | .ok (.int i) => .invalidType (.int i.val) expected
    | .ok (.float x) => .invalidType (.float x) expected
    | .error f => .notJson f
  | .text l =>
    match l.text with
    | .ok s => .invalidType (.text s) expected
    | .error f => .notJson f
  | .array .. => .invalidType .sequence expected
  | .object .. => .invalidType .map expected
  | .broken b => .notJson b.fault

end CloudClient.Json
