/-!
UTF-8 text. `encode` writes a text as bytes. Reading goes byte by byte: what has been read of a
character is kept as a `Partial`, and a byte that cannot continue it ends it. `decode?` wants
characters only, and `decodeLossy` puts U+FFFD in place of every longest run of bytes that starts a
character and ends none.
-/

namespace CloudClient

abbrev Bytes := List UInt8

namespace Utf8

def encode (s : String) : Bytes :=
  s.toList.flatMap String.utf8EncodeChar

/-- A character begun: its bits so far, the bytes owed after the next one, and the range of the
next. -/
structure Partial where
  bits : Nat
  owed : Nat
  low : UInt8
  high : UInt8
  deriving DecidableEq, Repr

inductive Start where
  | single (c : Char)
  | lead (p : Partial)
  | refused
  deriving DecidableEq, Repr

/-- What a byte begins. The narrower ranges after E0, ED, F0 and F4 leave out overlong forms,
surrogates and code points above U+10FFFF. -/
def start (b : UInt8) : Start :=
  let n := b.toNat
  if n < 0x80 then .single (Char.ofNat n)
  else if n < 0xC2 then .refused
  else if n < 0xE0 then .lead ⟨n - 0xC0, 0, 0x80, 0xBF⟩
  else if n = 0xE0 then .lead ⟨0, 1, 0xA0, 0xBF⟩
  else if n = 0xED then .lead ⟨0xD, 1, 0x80, 0x9F⟩
  else if n < 0xF0 then .lead ⟨n - 0xE0, 1, 0x80, 0xBF⟩
  else if n = 0xF0 then .lead ⟨0, 2, 0x90, 0xBF⟩
  else if n < 0xF4 then .lead ⟨n - 0xF0, 2, 0x80, 0xBF⟩
  else if n = 0xF4 then .lead ⟨4, 2, 0x80, 0x8F⟩
  else .refused

def Partial.accepts (p : Partial) (b : UInt8) : Bool :=
  p.low ≤ b && b ≤ p.high

/-- The character after one more byte, or what is begun by then. -/
def Partial.next (p : Partial) (b : UInt8) : Start :=
  let bits := p.bits * 64 + b.toNat % 64
  match p.owed with
  | 0 => .single (Char.ofNat bits)
  | owed + 1 => .lead ⟨bits, owed, 0x80, 0xBF⟩

/-- The characters of a byte sequence; `none` stands for a run of bytes that is not one. -/
def scan : Option Partial → Bytes → List (Option Char)
  | none, [] => []
  | some _, [] => [none]
  | none, b :: rest =>
    match start b with
    | .single c => some c :: scan none rest
    | .lead p => scan (some p) rest
    | .refused => none :: scan none rest
  | some p, b :: rest =>
    if p.accepts b then
      match p.next b with
      | .single c => some c :: scan none rest
      | .lead q => scan (some q) rest
      | .refused => none :: scan none rest
    else
      none :: match start b with
        | .single c => some c :: scan none rest
        | .lead q => scan (some q) rest
        | .refused => none :: scan none rest

def decode? (bytes : Bytes) : Option String :=
  ((scan none bytes).mapM id).map String.ofList

def decodeLossy (bytes : Bytes) : String :=
  String.ofList ((scan none bytes).map (·.getD (Char.ofNat 0xFFFD)))

end Utf8

end CloudClient
