import CloudClient.Text.Utf8

/-!
Bytes written as `%` and two hexadecimal digits: in path segments, where all but the unreserved
characters are written so, and in forms, where a space is a plus sign and `~` is not kept.
-/

namespace CloudClient.Percent

def isAlphanumeric (b : UInt8) : Bool :=
  (0x30 ≤ b && b ≤ 0x39) || (0x41 ≤ b && b ≤ 0x5A) || (0x61 ≤ b && b ≤ 0x7A)

/-- Letters, digits and `-`, `_`, `.`, `~`. -/
def isUnreserved (b : UInt8) : Bool :=
  isAlphanumeric b || b == 0x2D || b == 0x5F || b == 0x2E || b == 0x7E

/-- Letters, digits and `*`, `-`, `.`, `_`. -/
def isFormSafe (b : UInt8) : Bool :=
  isAlphanumeric b || b == 0x2A || b == 0x2D || b == 0x2E || b == 0x5F

def hexDigit (n : Nat) : Char :=
  if n < 10 then Char.ofNat (0x30 + n) else Char.ofNat (0x41 + n - 10)

def escape (b : UInt8) : List Char :=
  ['%', hexDigit (b.toNat / 16), hexDigit (b.toNat % 16)]

def segmentByte (b : UInt8) : List Char :=
  if isUnreserved b then [Char.ofNat b.toNat] else escape b

def formByte (b : UInt8) : List Char :=
  if isFormSafe b then [Char.ofNat b.toNat] else if b = 0x20 then ['+'] else escape b

def segmentChars (s : String) : List Char :=
  (Utf8.encode s).flatMap segmentByte

def formChars (s : String) : List Char :=
  (Utf8.encode s).flatMap formByte

/-- A text as one segment of a path, or as one part of a form that keeps the same characters. -/
def segment (s : String) : String :=
  String.ofList (segmentChars s)

def form (s : String) : String :=
  String.ofList (formChars s)

/-! ### Reading -/

def hexValue? (c : Char) : Option Nat :=
  let n := c.toNat
  if 0x30 ≤ n ∧ n ≤ 0x39 then some (n - 0x30)
  else if 0x41 ≤ n ∧ n ≤ 0x46 then some (n - 0x41 + 10)
  else if 0x61 ≤ n ∧ n ≤ 0x66 then some (n - 0x61 + 10)
  else none

/-- The bytes of a text. A `%` without two hexadecimal digits stands for itself, and a plus sign for
a space where `plus` is set. -/
def decodeChars (plus : Bool) : List Char → Bytes
  | [] => []
  | '%' :: h :: l :: rest =>
    match hexValue? h, hexValue? l with
    | some h, some l => UInt8.ofNat (h * 16 + l) :: decodeChars plus rest
    | _, _ => 0x25 :: decodeChars plus (h :: l :: rest)
  | c :: rest =>
    (if plus && c == '+' then [0x20] else String.utf8EncodeChar c) ++ decodeChars plus rest

def decodeSegment? (cs : List Char) : Option String :=
  Utf8.decode? (decodeChars false cs)

def decodeForm? (cs : List Char) : Option String :=
  Utf8.decode? (decodeChars true cs)

end CloudClient.Percent
