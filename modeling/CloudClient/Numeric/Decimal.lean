import CloudClient.Numeric.Binary64
import CloudClient.Text.Unsigned

/-!
Decimal numerals and the numbers nearest to them.
-/

namespace CloudClient

namespace Binary64

/-- The number nearest to `± significand * 10 ^ exponent`. Past 400 decimal places either way the
answer is known without the power. -/
def ofDecimal (negative : Bool) (significand : Nat) (exponent : Int) : Binary64 :=
  let magnitude := (Nat.toDigits 10 significand).length + exponent
  if significand = 0 ∨ magnitude < -400 then round negative 0 1
  else if 400 < magnitude then .infinite negative
  else if 0 ≤ exponent then round negative (significand * 10 ^ exponent.toNat) 1
  else round negative significand (10 ^ (-exponent).toNat)

/-- Why a text is not a number. -/
inductive NumeralFault where
  | empty
  | invalid
  deriving DecidableEq, Repr

def NumeralFault.message : NumeralFault → String
  | .empty => "cannot parse float from empty string"
  | .invalid => "invalid float literal"

def takeDigits (cs : List Char) : List Nat × List Char :=
  ((cs.takeWhile (Text.digitValue? · |>.isSome)).filterMap Text.digitValue?,
    cs.dropWhile (Text.digitValue? · |>.isSome))

/-- An exponent with its sign, where one is written; `none` where the rest is no exponent. -/
def exponentOf? : List Char → Option Int
  | [] => some 0
  | c :: cs =>
    if c = 'e' ∨ c = 'E' then
      match cs with
      | '-' :: ds => (Text.digits? ds).map fun n => -(n : Int)
      | '+' :: ds => (Text.digits? ds).map Int.ofNat
      | ds => (Text.digits? ds).map Int.ofNat
    else none

/-- An unsigned numeral: digits on at least one side of an optional point, then an optional
exponent. -/
def magnitude? (negative : Bool) (cs : List Char) : Option Binary64 :=
  let (whole, rest) := takeDigits cs
  let (fraction, rest) := match rest with
    | '.' :: rest => takeDigits rest
    | rest => ([], rest)
  if whole.isEmpty && fraction.isEmpty then none
  else (exponentOf? rest).map fun exponent =>
    ofDecimal negative (Text.ofDigits 10 (whole ++ fraction)) (exponent - fraction.length)

/-- Reads a numeral with an optional sign, or `inf`, `infinity` or `nan` in any case. -/
def parse (s : String) : Except NumeralFault Binary64 :=
  if s.isEmpty then .error .empty
  else
    let (negative, cs) := match s.toList with
      | '-' :: cs => (true, cs)
      | '+' :: cs => (false, cs)
      | cs => (false, cs)
    let word := String.ofList (cs.map Char.toLower)
    if word = "inf" ∨ word = "infinity" then .ok (.infinite negative)
    else if word = "nan" then .ok .nan
    else match magnitude? negative cs with
      | some x => .ok x
      | none => .error .invalid

end Binary64

end CloudClient
