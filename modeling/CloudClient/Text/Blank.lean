/-!
White space in the sense of the Unicode property `White_Space`, and texts without it at their ends.
-/

namespace CloudClient.Text

def isBlank (c : Char) : Bool :=
  let n := c.toNat
  (9 ≤ n && n ≤ 13) || n == 0x20 || n == 0x85 || n == 0xA0 || n == 0x1680 ||
    (0x2000 ≤ n && n ≤ 0x200A) || n == 0x2028 || n == 0x2029 || n == 0x202F ||
    n == 0x205F || n == 0x3000

def trimStartList (cs : List Char) : List Char :=
  cs.dropWhile isBlank

def trimEndList (cs : List Char) : List Char :=
  (cs.reverse.dropWhile isBlank).reverse

def trimList (cs : List Char) : List Char :=
  trimEndList (trimStartList cs)

def trim (s : String) : String :=
  String.ofList (trimList s.toList)

end CloudClient.Text
