import CloudClient.Text.Blank

/-!
Whole numbers written in ASCII digits.
-/

namespace CloudClient.Text

def digitValue? (c : Char) : Option Nat :=
  if '0' ≤ c ∧ c ≤ '9' then some (c.toNat - '0'.toNat) else none

/-- The number that a list of digits denotes in the given base. -/
def ofDigits (base : Nat) (digits : List Nat) : Nat :=
  digits.foldl (fun n d => n * base + d) 0

/-- One digit or more and nothing else, of any length. -/
def digits? (cs : List Char) : Option Nat :=
  if cs.isEmpty then none else (cs.mapM digitValue?).map (ofDigits 10)

/-- A number below `bound`, with or without a plus sign in front. -/
def unsigned? (bound : Nat) (s : String) : Option Nat :=
  let number := match s.toList with
    | '+' :: rest => digits? rest
    | cs => digits? cs
  number.filter (· < bound)

end CloudClient.Text
