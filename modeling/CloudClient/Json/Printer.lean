import CloudClient.Json.Value
import CloudClient.Numeric.Shortest
import CloudClient.Text.Utf8

/-!
JSON text without blanks. A number that is not finite has no JSON form and is written `null`.
-/

namespace CloudClient.Json

/-- A code unit in four hexadecimal digits. -/
def hex4 (n : Nat) : List Char :=
  let digits := Nat.toDigits 16 n
  List.replicate (4 - digits.length) '0' ++ digits

def escapeChar (c : Char) : List Char :=
  match c with
  | '"' => ['\\', '"']
  | '\\' => ['\\', '\\']
  | '\n' => ['\\', 'n']
  | '\r' => ['\\', 'r']
  | '\t' => ['\\', 't']
  | c =>
    if c.toNat = 8 then ['\\', 'b']
    else if c.toNat = 12 then ['\\', 'f']
    else if c.toNat < 0x20 then '\\' :: 'u' :: hex4 c.toNat
    else [c]

def quoted (s : String) : List Char :=
  '"' :: s.toList.flatMap escapeChar ++ ['"']

def integerChars (i : Int) : List Char :=
  (if i < 0 then ['-'] else []) ++ Nat.toDigits 10 i.natAbs

def Number.chars : Number → List Char
  | .int i => integerChars i.val
  | .float x => (Binary64.wire.render x).toList

mutual

def chars : Json → List Char
  | .null => ['n', 'u', 'l', 'l']
  | .bool true => ['t', 'r', 'u', 'e']
  | .bool false => ['f', 'a', 'l', 's', 'e']
  | .number n => n.chars
  | .str s => quoted s
  | .arr [] => ['[', ']']
  | .arr (j :: rest) => '[' :: chars j ++ itemsChars rest
  | .obj [] => ['\x7b', '\x7d']
  | .obj ((k, j) :: rest) => '\x7b' :: quoted k ++ ':' :: chars j ++ membersChars rest

/-- The items after the first one, and the bracket. -/
def itemsChars : List Json → List Char
  | [] => [']']
  | j :: rest => ',' :: chars j ++ itemsChars rest

/-- The members after the first one, and the brace. -/
def membersChars : List (String × Json) → List Char
  | [] => ['\x7d']
  | (k, j) :: rest => ',' :: quoted k ++ ':' :: chars j ++ membersChars rest

end

def render (j : Json) : String :=
  String.ofList (chars j)

def encode (j : Json) : Bytes :=
  Utf8.encode (render j)

end CloudClient.Json
