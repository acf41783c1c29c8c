import CloudClient.Json.Fault
import CloudClient.Json.Value
import CloudClient.Numeric.Decimal
import CloudClient.Text.Utf8

/-!
A JSON text as far as it can be read. Where it breaks off or goes wrong, the tree ends with a record
of what was found there, so a reader that walks it from left to right meets the first problem of the
text at its place. `value` reads a tree in full, and `skip` passes over it, which leaves the
contents of strings and the size of numbers unchecked and does not count how deep arrays and objects
are nested.
-/

namespace CloudClient.Json

/-! ### String literals -/

/-- A part of a string literal: a byte, as itself or by a short escape, or a UTF-16 unit by a `\u`
escape. -/
inductive Piece where
  | byte (b : UInt8)
  | unit (u : Nat)
  deriving DecidableEq, Repr

/-- Why a string literal has no closing quote. -/
inductive Cut where
  | endOfText
  | control
  | escape
  | hex
  deriving DecidableEq, Repr

def Cut.fault : Cut → Fault
  | .endOfText => .endInString
  | .control => .controlCharacter
  | .escape => .invalidEscape
  | .hex => .invalidEscape

structure Literal where
  pieces : List Piece
  cut : Option Cut
  deriving DecidableEq, Repr

def isLeading (u : Nat) : Bool := 0xD800 ≤ u && u ≤ 0xDBFF

def isTrailing (u : Nat) : Bool := 0xDC00 ≤ u && u ≤ 0xDFFF

/-- What is wrong with a literal that ends right after a leading surrogate. -/
def afterLeading : Option Cut → Fault
  | some .endOfText => .endInString
  | some .hex => .invalidEscape
  | _ => .endOfHexEscape

/-- The bytes of a literal; surrogates have to come in pairs. -/
def Literal.bytes : List Piece → Option Cut → Except Fault Bytes
  | [], none => .ok []
  | [], some cut => .error cut.fault
  | .byte b :: rest, cut => do
    let bytes ← Literal.bytes rest cut
    return b :: bytes
  | .unit u :: rest, cut =>
    if isTrailing u then .error .loneSurrogate
    else if isLeading u then
      match rest with
      | [] => .error (afterLeading cut)
      | .byte _ :: _ => .error .endOfHexEscape
      | .unit v :: rest =>
        if isTrailing v then do
          let bytes ← Literal.bytes rest cut
          let c := Char.ofNat ((u - 0xD800) * 1024 + (v - 0xDC00) + 0x10000)
          return String.utf8EncodeChar c ++ bytes
        else .error .loneSurrogate
    else do
      let bytes ← Literal.bytes rest cut
      return String.utf8EncodeChar (Char.ofNat u) ++ bytes

def Literal.text (l : Literal) : Except Fault String := do
  let bytes ← Literal.bytes l.pieces l.cut
  match Utf8.decode? bytes with
  | some s => return s
  | none => throw .invalidCodePoint

/-- Passing over a literal only asks for its end. -/
def Literal.skip (l : Literal) : Option Fault :=
  l.cut.map Cut.fault

/-! ### Numbers -/

/-- A number as written. The digits of a fraction are there when it has a point, and those of an
exponent, which may be negative, when it has a letter `e`. -/
structure Numeral where
  negative : Bool
  whole : List Nat
  fraction : List Nat
  exponent : Option (Bool × List Nat)
  deriving DecidableEq, Repr

/-- Digits that still fit 64 bits are taken up into the significand. The first one that does not fit
ends it, and the digits from there on are counted. -/
def takeUp : (significand : Nat) → List Nat → Nat × Nat
  | significand, [] => (significand, 0)
  | significand, d :: rest =>
    if significand * 10 + d < 2 ^ 64 then takeUp (significand * 10 + d) rest
    else (significand, rest.length + 1)

/-- `significand * 10 ^ exponent`, computed from the rounded significand by one multiplication or by
divisions, so the result can be a unit in the last place away from the nearest number. -/
def scaled (x : Binary64) (exponent : Int) : (divisions : Nat) → Except Fault Binary64
  | 0 => .ok x
  | divisions + 1 =>
    if exponent.natAbs ≤ 308 then
      if 0 ≤ exponent then
        let y := x * .ofDecimal false 1 exponent
        if y.isFinite then .ok y else .error .numberOutOfRange
      else .ok (x / .ofDecimal false 1 exponent.natAbs)
    else if x.isZero then .ok x
    else if 0 ≤ exponent then .error .numberOutOfRange
    else scaled (x / .ofDecimal false 1 308) (exponent + 308) divisions

/-- The exponent as written, when it has 31 bits at most. -/
def Numeral.exponent? (n : Numeral) : Option Int :=
  match n.exponent with
  | none => some 0
  | some (negative, digits) =>
    let e := Text.ofDigits 10 digits
    if e < 2 ^ 31 then some (if negative then -e else e) else none

def Numeral.float (n : Numeral) (significand : Nat) (exponent : Int) : Except Fault Binary64 :=
  let signed (x : Binary64) := if n.negative then -x else x
  match n.exponent? with
  | some e => (scaled (.ofNat significand) (exponent + e) 4).map signed
  | none =>
    if significand = 0 ∨ n.exponent.any (·.1) then .ok (signed .zero) else .error .numberOutOfRange

/-- An integer when the number is written as one and fits; `-0` is a float. -/
def Numeral.value (n : Numeral) : Except Fault Number :=
  let (significand, dropped) := takeUp 0 n.whole
  if n.fraction.isEmpty && n.exponent.isNone && dropped = 0 then
    let i : Int := if n.negative then -significand else significand
    match Integer.ofInt? i with
    | some i => .ok (if n.negative && significand == 0 then .float (-.zero) else .int i)
    | none => .ok (.float (.ofInt i))
  else do
    let (significand, ignored) := takeUp significand n.fraction
    let x ← n.float significand (dropped - (n.fraction.length - ignored : Nat))
    return .float x

/-! ### Trees -/

inductive Word where
  | null
  | true
  | false
  deriving DecidableEq, Repr

/-- What stands where a value was to begin or could not be finished. -/
inductive Break where
  | endOfText
  | stray
  | word (w : Word) (atEnd : Bool)
  | number (atEnd : Bool)
  | colon (atEnd : Bool)
  deriving DecidableEq, Repr

def Break.fault : Break → Fault
  | .endOfText => .endInValue
  | .stray => .expectedValue
  | .word _ atEnd => if atEnd then .endInValue else .expectedIdent
  | .number atEnd => if atEnd then .endInValue else .invalidNumber
  | .colon atEnd => if atEnd then .endInObject else .expectedColon

def Break.skip : Break → Fault
  | .number _ => .invalidNumber
  | b => b.fault

/-- What stands after the last item of an array. -/
inductive ArrayEnd where
  | closed
  | endOfText
  | stray
  | commaClosed
  | commaEnd
  deriving DecidableEq, Repr

def ArrayEnd.fault? : ArrayEnd → Option Fault
  | .closed => none
  | .endOfText => some .endInList
  | .stray => some .expectedListCommaOrEnd
  | .commaClosed => some .trailingComma
  | .commaEnd => some .endInValue

def ArrayEnd.skip : ArrayEnd → Option Fault
  | .commaClosed => some .expectedValue
  | e => e.fault?

/-- What stands after the last member of an object. `notKey` is anything but a string where a key
was to begin, be it the first. -/
inductive ObjectEnd where
  | closed
  | endOfText
  | stray
  | commaClosed
  | commaEnd
  | notKey
  | badKey (key : Literal)
  deriving DecidableEq, Repr

/-- The first problem of a literal, or a missing end if there is none before it. -/
def Literal.fault (l : Literal) : Fault :=
  match l.text with
  | .ok _ => .endInString
  | .error f => f

def ObjectEnd.fault? : ObjectEnd → Option Fault
  | .closed => none
  | .endOfText => some .endInObject
  | .stray => some .expectedObjectCommaOrEnd
  | .commaClosed => some .trailingComma
  | .commaEnd => some .endInValue
  | .notKey => some .keyNotString
  | .badKey key => some key.fault

def ObjectEnd.skip : ObjectEnd → Option Fault
  | .commaClosed => some .keyNotString
  | .commaEnd => some .endInObject
  | .badKey key => key.skip
  | e => e.fault?

/-- A value as far as it was read. -/
inductive Node where
  | null
  | bool (b : Bool)
  | number (n : Numeral)
  | text (l : Literal)
  | array (items : List Node) (tail : ArrayEnd)
  | object (members : List (Literal × Node)) (tail : ObjectEnd)
  | broken (b : Break)
  deriving Repr, Inhabited

/-- Whether nothing can be read after the value. -/
def Node.isCut : Node → Bool
  | .text l => l.cut.isSome
  | .array _ tail => tail != .closed
  | .object _ tail => tail != .closed
  | .broken _ => true
  | _ => false

def failIf (f? : Option Fault) : Except Fault Unit :=
  match f? with
  | some f => .error f
  | none => .ok ()

mutual

/-- The value of a tree in which at most `levels` arrays and objects may be open at once. -/
def Node.value : (levels : Nat) → Node → Except Fault Json
  | _, .null => .ok .null
  | _, .bool b => .ok (.bool b)
  | _, .number n => n.value.map .number
  | _, .text l => l.text.map .str
  | levels, .array items tail =>
    match levels with
    | 0 => .error .recursionLimit
    | levels + 1 => do
      let items ← Node.values levels items
      failIf tail.fault?
      return .arr items
  | levels, .object members tail =>
    match levels with
    | 0 => .error .recursionLimit
    | levels + 1 => do
      let members ← Node.memberValues levels members
      failIf tail.fault?
      return .obj members
  | _, .broken b => .error b.fault

def Node.values : (levels : Nat) → List Node → Except Fault (List Json)
  | _, [] => .ok []
  | levels, n :: rest => do
    let j ← Node.value levels n
    let js ← Node.values levels rest
    return j :: js

def Node.memberValues : (levels : Nat) → List (Literal × Node) → Except Fault (List (String × Json))
  | _, [] => .ok []
  | levels, (key, n) :: rest => do
    let k ← key.text
    let j ← Node.value levels n
    let ms ← Node.memberValues levels rest
    return (k, j) :: ms

end

mutual

/-- The first problem met in passing over a tree. -/
def Node.skip : Node → Option Fault
  | .text l => l.skip
  | .array items tail => Node.skipItems items tail
  | .object members tail => Node.skipMembers members tail
  | .broken b => some b.skip
  | _ => none

def Node.skipItems : List Node → ArrayEnd → Option Fault
  | [], tail => tail.skip
  | n :: rest, tail => (Node.skip n).or (Node.skipItems rest tail)

def Node.skipMembers : List (Literal × Node) → ObjectEnd → Option Fault
  | [], tail => tail.skip
  | (key, n) :: rest, tail => (key.skip.or (Node.skip n)).or (Node.skipMembers rest tail)

end

end CloudClient.Json
