/-!
Binary floating point with 53 bits of significand, as exact data: a finite number is
`± significand * 2 ^ (exponent - 1074)`. Every operation computes the exact result as a quotient of
natural numbers and rounds it once, to the nearest number and to the even one of two.
-/

-- Powers of numbers are those of the core library in every module, whatever else it imports.
attribute [instance (high), default_instance (high + 1)] instPowNat

namespace CloudClient

/-- The significand fills its 53 bits, unless the exponent is the least one. -/
def Binary64.Canonical (significand exponent : Nat) : Prop :=
  significand < 2 ^ 53 ∧ exponent ≤ 2045 ∧ (exponent = 0 ∨ 2 ^ 52 ≤ significand)

instance (m e : Nat) : Decidable (Binary64.Canonical m e) :=
  inferInstanceAs (Decidable (_ ∧ _ ∧ _))

inductive Binary64 where
  | nan
  | infinite (negative : Bool)
  | finite (negative : Bool) (significand exponent : Nat)
      (canonical : Binary64.Canonical significand exponent)
  deriving DecidableEq, Repr

namespace Binary64

def zero : Binary64 := .finite false 0 0 (by decide)

instance : Inhabited Binary64 := ⟨zero⟩

/-- The number with these parts, or the infinity of its sign where they are not canonical. -/
def ofParts (negative : Bool) (significand exponent : Nat) : Binary64 :=
  if h : Canonical significand exponent then .finite negative significand exponent h
  else .infinite negative

/-- The quotient to the nearest natural number, ties to even. -/
def divNearest (num den : Nat) : Nat :=
  let q := num / den
  let r := num % den
  if 2 * r < den ∨ (2 * r = den ∧ q % 2 = 0) then q else q + 1

/-- The number nearest to `± num / den`. -/
def round (negative : Bool) (num den : Nat) : Binary64 :=
  let scaled := num * 2 ^ 1074
  let exponent := (scaled / den).log2 - 52
  let significand := divNearest scaled (den * 2 ^ exponent)
  if significand = 2 ^ 53 then ofParts negative (2 ^ 52) (exponent + 1)
  else ofParts negative significand exponent

def ofNat (n : Nat) : Binary64 :=
  round false n 1

def ofInt (i : Int) : Binary64 :=
  round (i < 0) i.natAbs 1

def neg : Binary64 → Binary64
  | .nan => .nan
  | .infinite s => .infinite !s
  | .finite s m e h => .finite (!s) m e h

def isFinite : Binary64 → Bool
  | .finite .. => true
  | _ => false

def isZero : Binary64 → Bool
  | .finite _ 0 _ _ => true
  | _ => false

/-- A finite number in units of `2 ^ -1074`. -/
def units (negative : Bool) (significand exponent : Nat) : Int :=
  if negative then -(significand * 2 ^ exponent : Nat) else (significand * 2 ^ exponent : Nat)

def mul : Binary64 → Binary64 → Binary64
  | .nan, _ => .nan
  | _, .nan => .nan
  | .infinite s, .infinite t => .infinite (s != t)
  | .infinite s, .finite t m _ _ => if m = 0 then .nan else .infinite (s != t)
  | .finite s m _ _, .infinite t => if m = 0 then .nan else .infinite (s != t)
  | .finite s m e _, .finite t n f _ => round (s != t) (m * n * 2 ^ (e + f)) (2 ^ 2148)

def div : Binary64 → Binary64 → Binary64
  | .nan, _ => .nan
  | _, .nan => .nan
  | .infinite _, .infinite _ => .nan
  | .infinite s, .finite t _ _ _ => .infinite (s != t)
  | .finite s _ _ _, .infinite t => .finite (s != t) 0 0 (by decide)
  | .finite s m e _, .finite t n f _ =>
    if n = 0 then if m = 0 then .nan else .infinite (s != t)
    else round (s != t) (m * 2 ^ e) (n * 2 ^ f)

/-- A sum of zero is negative only when both terms are. -/
def add : Binary64 → Binary64 → Binary64
  | .nan, _ => .nan
  | _, .nan => .nan
  | .infinite s, .infinite t => if s = t then .infinite s else .nan
  | .infinite s, .finite .. => .infinite s
  | .finite .., .infinite t => .infinite t
  | .finite s m e _, .finite t n f _ =>
    let sum := units s m e + units t n f
    if sum = 0 then .finite (s && t) 0 0 (by decide) else round (sum < 0) sum.natAbs (2 ^ 1074)

instance : Neg Binary64 := ⟨neg⟩
instance : Mul Binary64 := ⟨mul⟩
instance : Div Binary64 := ⟨div⟩
instance : Add Binary64 := ⟨add⟩
instance : Sub Binary64 := ⟨fun x y => x + -y⟩

/-- Nothing is less than a number that is not one, and the two zeros are equal. -/
def lt : Binary64 → Binary64 → Bool
  | .nan, _ => false
  | _, .nan => false
  | .infinite s, .infinite t => s && !t
  | .infinite s, .finite .. => s
  | .finite .., .infinite t => !t
  | .finite s m e _, .finite t n f _ => units s m e < units t n f

/-- The lesser of two; one that is not a number gives way to the other. -/
def min (x y : Binary64) : Binary64 :=
  match x, y with
  | .nan, y => y
  | x, .nan => x
  | x, y => if y.lt x then y else x

/-- The greater of two; one that is not a number gives way to the other. -/
def max (x y : Binary64) : Binary64 :=
  match x, y with
  | .nan, y => y
  | x, .nan => x
  | x, y => if x.lt y then y else x

/-- `x` moved into the range from `low` to `high`; what is not a number stays. -/
def clamp (x low high : Binary64) : Binary64 :=
  if x.lt low then low else if high.lt x then high else x

/-- `acc * x ^ n` by repeated squaring, with a rounding in every step; `bits` is at least the length
of `n`. -/
def powLoop (acc x : Binary64) (n : Nat) : (bits : Nat) → Binary64
  | 0 => acc
  | bits + 1 =>
    let acc := if n % 2 = 1 then acc * x else acc
    if n / 2 = 0 then acc else powLoop acc (x * x) (n / 2) bits

def pow (x : Binary64) (n : Nat) : Binary64 :=
  powLoop (ofNat 1) x n (n.log2 + 1)

end Binary64

end CloudClient
