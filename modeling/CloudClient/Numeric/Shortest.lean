import CloudClient.Numeric.Binary64

/-!
The fewest decimal digits that read back as a given number, and their layout as text.
-/

namespace CloudClient.Binary64

/-- The number of zeros between the point and the first digit of `num / den`, where that is below
one. -/
def leadingZeros (num den : Nat) : (bound : Nat) → Nat
  | 0 => 0
  | bound + 1 => if den ≤ num * 10 then 0 else leadingZeros (num * 10) den bound + 1

/-- The `k` with `10 ^ (k - 1) ≤ num / den < 10 ^ k`, for a positive quotient. -/
def decimalPlaces (num den : Nat) : Int :=
  if den ≤ num then (Nat.toDigits 10 (num / den)).length
  else -(leadingZeros num den 400 : Int)

/-- The real numbers that round to `significand * 2 ^ exponent`, in quarters of `2 ^ -1074`. Below a
power of two the next number is half as far away as above it. -/
structure Basin where
  center : Nat
  low : Nat
  high : Nat
  closed : Bool
  deriving DecidableEq, Repr

def basin (significand exponent : Nat) : Basin where
  center := 4 * significand * 2 ^ exponent
  low := 4 * significand * 2 ^ exponent -
    (if significand = 2 ^ 52 ∧ 0 < exponent then 1 else 2) * 2 ^ exponent
  high := 4 * significand * 2 ^ exponent + 2 * 2 ^ exponent
  closed := significand % 2 = 0

/-- One quarter of `2 ^ -1074`, inverted. -/
def quarters : Nat := 2 ^ 1076

/-- Whether `digits * 10 ^ scale` lies in the basin. -/
def Basin.contains (b : Basin) (digits : Nat) (scale : Int) : Bool :=
  let x := if 0 ≤ scale then digits * 10 ^ scale.toNat * quarters else digits * quarters
  let unit := if 0 ≤ scale then 1 else 10 ^ (-scale).toNat
  if b.closed then b.low * unit ≤ x && x ≤ b.high * unit
  else b.low * unit < x && x < b.high * unit

/-- The largest multiple of `10 ^ scale` at or below the center, as a multiple. -/
def Basin.floor (b : Basin) (scale : Int) : Nat :=
  if 0 ≤ scale then b.center / (10 ^ scale.toNat * quarters)
  else b.center * 10 ^ (-scale).toNat / quarters

/-- Which of two decimals is taken that are equally near. -/
inductive Tie where
  | toEven
  | up
  deriving DecidableEq, Repr

def Tie.takesLower (t : Tie) (digits : Nat) : Bool :=
  match t with
  | .toEven => digits % 2 = 0
  | .up => false

/-- Whether `digits * 10 ^ scale` is taken for the center, rather than the next multiple. -/
def Basin.takesLower (b : Basin) (tie : Tie) (digits : Nat) (scale : Int) : Bool :=
  let twice := if 0 ≤ scale then 2 * b.center else 2 * b.center * 10 ^ (-scale).toNat
  let middle :=
    if 0 ≤ scale then (2 * digits + 1) * 10 ^ scale.toNat * quarters
    else (2 * digits + 1) * quarters
  twice < middle || (twice == middle && tie.takesLower digits)

/-- The point of the grid of `10 ^ scale` that reads back, the nearer one of two. -/
def Basin.pick (b : Basin) (tie : Tie) (scale : Int) : Option Nat :=
  let below := b.floor scale
  match b.contains below scale, b.contains (below + 1) scale with
  | true, true => some (if b.takesLower tie below scale then below else below + 1)
  | true, false => some below
  | false, true => some (below + 1)
  | false, false => none

/-- Coarser grids first; 17 digits always read back. -/
def Basin.search (b : Basin) (tie : Tie) (places : Int) : (tries : Nat) → Nat × Int
  | 0 => (b.floor (places - 17), places - 17)
  | tries + 1 =>
    let scale := places - (17 - tries : Nat)
    match b.pick tie scale with
    | some digits => (digits, scale)
    | none => b.search tie places tries

/-- Digits without zeros at their end, and the power of ten they are multiplied by. -/
def stripZeros (digits : Nat) (scale : Int) : (bound : Nat) → Nat × Int
  | 0 => (digits, scale)
  | bound + 1 =>
    if digits % 10 = 0 ∧ digits ≠ 0 then stripZeros (digits / 10) (scale + 1) bound
    else (digits, scale)

/-- `significand * 2 ^ exponent` as digits and a power of ten. -/
def shortest (tie : Tie) (significand exponent : Nat) : Nat × Int :=
  if significand = 0 then (0, 0)
  else
    let b := basin significand exponent
    let (digits, scale) := b.search tie (decimalPlaces b.center quarters) 17
    stripZeros digits scale 20

/-- How a number is laid out: which digits it gets when there is a choice, the decimal exponents of
its first digit that are written without a power of ten, the sign of a positive power, and the words
for what is not finite. -/
structure Layout where
  tie : Tie
  least : Int
  most : Int
  plus : String
  nan : String
  infinity : (negative : Bool) → String

/-- Positional from `0.00001` up to below `1e+16`. -/
def wire : Layout := ⟨.toEven, -5, 15, "+", "null", fun _ => "null"⟩

/-- Positional from `0.0001` up to below `1e16`. -/
def display : Layout := ⟨.up, -4, 15, "", "NaN", fun negative => if negative then "-inf" else "inf"⟩

def zeros (n : Nat) : List Char := List.replicate n '0'

/-- Digits with a point that stands `scale` places left of their end, and at least one digit on each
side. -/
def positional (digits : List Char) (scale : Int) : List Char :=
  if 0 ≤ scale then digits ++ zeros scale.toNat ++ ['.', '0']
  else
    let places := (-scale).toNat
    if places < digits.length then
      digits.take (digits.length - places) ++ '.' :: digits.drop (digits.length - places)
    else '0' :: '.' :: zeros (places - digits.length) ++ digits

def Layout.magnitude (l : Layout) (significand exponent : Nat) : List Char :=
  let (digits, scale) := shortest l.tie significand exponent
  let text := Nat.toDigits 10 digits
  let first := scale + text.length - 1
  if l.least ≤ first ∧ first ≤ l.most then positional text scale
  else
    let point := match text with
      | [d] => [d]
      | d :: ds => d :: '.' :: ds
      | [] => []
    point ++ 'e' :: (if first < 0 then ['-'] else l.plus.toList) ++ Nat.toDigits 10 first.natAbs

def Layout.render (l : Layout) : Binary64 → String
  | .nan => l.nan
  | .infinite negative => l.infinity negative
  | .finite negative m e _ => String.ofList ((if negative then ['-'] else []) ++ l.magnitude m e)

end CloudClient.Binary64
