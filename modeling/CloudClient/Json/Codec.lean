import CloudClient.Json.Problem
import CloudClient.Json.Reader
import CloudClient.Json.Printer
import CloudClient.Text.Blank

/-!
A codec reads a type from JSON trees and writes it as JSON. Reading goes from left to right and
stops at the first problem. `levels` is the number of arrays and objects that may still be opened.
-/

namespace CloudClient.Json

structure Codec (α : Type) where
  decode : (levels : Nat) → Node → Except Problem α
  encode : α → Json

/-- Any value, without repeated keys. -/
def anything : Codec Json where
  decode levels n := (n.value levels).mapError .notJson |>.map sorted
  encode j := j

def string : Codec String where
  decode _ n := match n with
    | .text l => l.text.mapError .notJson
    | n => .error (n.mismatch "a string")
  encode := .str

def boolean : Codec Bool where
  decode _ n := match n with
    | .bool b => .ok b
    | n => .error (n.mismatch "a boolean")
  encode := .bool

/-- A whole number below `bound`. -/
def decodeBelow (bound : Nat) (expected : String) (n : Node) : Except Problem Nat :=
  match n with
  | .number m =>
    match m.value with
    | .ok (.int i) =>
      if 0 ≤ i.val ∧ i.val < bound then .ok i.val.toNat else .error (.invalidValue i.val expected)
    | _ => .error (n.mismatch expected)
  | n => .error (n.mismatch expected)

def uint16 : Codec UInt16 where
  decode _ n := (decodeBelow (2 ^ 16) "u16" n).map UInt16.ofNat
  encode := ofUInt16

def uint32 : Codec UInt32 where
  decode _ n := (decodeBelow (2 ^ 32) "u32" n).map UInt32.ofNat
  encode := ofUInt32

def uint64 : Codec UInt64 where
  decode _ n := (decodeBelow (2 ^ 64) "u64" n).map UInt64.ofNat
  encode := ofUInt64

def Number.toBinary64 : Number → Binary64
  | .int i => .ofInt i.val
  | .float x => x

def float : Codec Binary64 where
  decode _ n := match n with
    | .number m => m.value.mapError .notJson |>.map Number.toBinary64
    | n => .error (n.mismatch "f64")
  encode := ofBinary64

/-- An amount of money, as a number or as a text that is one between blanks. -/
def price : Codec Binary64 where
  decode levels n := do
    match ← (n.value levels).mapError .notJson with
    | .number m => return m.toBinary64
    | .str s => (Binary64.parse (Text.trim s)).mapError .numeral
    | _ => throw (.noVariant "NumberOrString")
  encode := ofBinary64

def decodeList {α : Type} (decode : Node → Except Problem α) (tail : ArrayEnd) :
    List Node → Except Problem (List α)
  | [] => do
    (failIf tail.fault?).mapError .notJson
    return []
  | n :: rest => do
    let a ← decode n
    let as ← decodeList decode tail rest
    return a :: as

def list {α : Type} (c : Codec α) : Codec (List α) where
  decode levels n := match n, levels with
    | .array .., 0 => .error (.notJson .recursionLimit)
    | .array items tail, levels + 1 => decodeList (c.decode levels) tail items
    | n, _ => .error (n.mismatch "a sequence")
  encode as := .arr (as.map c.encode)

/-- `null` or a value. -/
def optional {α : Type} (c : Codec α) : Codec (Option α) where
  decode levels n := match n with
    | .null => .ok none
    | .broken (.word .null atEnd) => .error (.notJson (Break.fault (.word .null atEnd)))
    | n => (c.decode levels n).map some
  encode
    | some a => c.encode a
    | none => .null

/-- Reads a whole text. -/
def Codec.read {α : Type} (c : Codec α) (bytes : Bytes) : Except Problem α := do
  let (root, more) := Json.read bytes
  let a ← c.decode levelLimit root
  if more then throw (.notJson .trailingCharacters)
  return a

def Codec.write {α : Type} (c : Codec α) (a : α) : Bytes :=
  (c.encode a).encode

end CloudClient.Json
