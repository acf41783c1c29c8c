import CloudClient.Text.Hidden

/-!
A text between double quotes, with everything that would not show as itself written as an escape.
-/

namespace CloudClient.Text

def hexDigits (n : Nat) : List Char :=
  Nat.toDigits 16 n

def quoteChar (c : Char) : List Char :=
  match c with
  | '"' => ['\\', '"']
  | '\\' => ['\\', '\\']
  | '\n' => ['\\', 'n']
  | '\r' => ['\\', 'r']
  | '\t' => ['\\', 't']
  | c =>
    if c.toNat = 0 then ['\\', '0']
    else if isHidden c then ['\\', 'u', '\x7b'] ++ hexDigits c.toNat ++ ['\x7d']
    else [c]

def quote (s : String) : String :=
  String.ofList ('"' :: s.toList.flatMap quoteChar ++ ['"'])

end CloudClient.Text
