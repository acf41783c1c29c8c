import CloudClient.Numeric.Shortest

/-!
Lengths of time in whole nanoseconds, up to `2 ^ 64` seconds exclusive. An operation whose exact
result lies outside gives `none`.
-/

namespace CloudClient

structure Duration where
  nanos : Nat
  inRange : nanos < 2 ^ 64 * 10 ^ 9
  deriving DecidableEq, Repr

namespace Duration

def nanosPerSecond : Nat := 10 ^ 9

def nanosPerMilli : Nat := 10 ^ 6

def ofNanos? (n : Nat) : Option Duration :=
  if h : n < 2 ^ 64 * 10 ^ 9 then some ⟨n, h⟩ else none

def zero : Duration := ⟨0, by decide⟩

instance : Inhabited Duration := ⟨zero⟩

def ofSeconds? (seconds : Nat) (nanos : Nat := 0) : Option Duration :=
  ofNanos? (seconds * nanosPerSecond + nanos)

/-- A number of seconds below `2 ^ 64`. -/
def ofSeconds (seconds : UInt64) : Duration :=
  ⟨seconds.toNat * 10 ^ 9, Nat.mul_lt_mul_of_pos_right seconds.toNat_lt (by decide)⟩

def ofMillis (millis : UInt32) : Duration :=
  ⟨millis.toNat * 10 ^ 6, by have := millis.toNat_lt; omega⟩

def seconds (d : Duration) : Nat := d.nanos / nanosPerSecond

def subsecond (d : Duration) : Nat := d.nanos % nanosPerSecond

instance : LE Duration := ⟨fun a b => a.nanos ≤ b.nanos⟩

instance (a b : Duration) : Decidable (a ≤ b) := inferInstanceAs (Decidable (a.nanos ≤ b.nanos))

instance : Max Duration := ⟨fun a b => if a ≤ b then b else a⟩

instance : Min Duration := ⟨fun a b => if a ≤ b then a else b⟩

def add? (a b : Duration) : Option Duration :=
  ofNanos? (a.nanos + b.nanos)

/-- The length in seconds; whole seconds and the rest are rounded apart and then added. -/
def toSeconds (d : Duration) : Binary64 :=
  .ofNat d.seconds + .ofNat d.subsecond / .ofNat nanosPerSecond

/-- A number of seconds to the nearest nanosecond, ties to even; `none` for one below zero or too
large. -/
def ofBinary64? : Binary64 → Option Duration
  | .finite negative m e _ =>
    if negative && m != 0 then none
    else ofNanos? (Binary64.divNearest (m * 2 ^ e * nanosPerSecond) (2 ^ 1074))
  | _ => none

/-- The digits of a fraction `part / 10 ^ width` after the point, without zeros at the end. -/
def fractionDigits (part width : Nat) : List Char :=
  let digits := Nat.toDigits 10 part
  let padded := List.replicate (width - digits.length) '0' ++ digits
  (padded.reverse.dropWhile (· == '0')).reverse

/-- `whole` and a fraction of `10 ^ width` in a unit. -/
def renderIn (whole part width : Nat) (unit : String) : String :=
  let fraction := fractionDigits part width
  toString whole ++ (if fraction.isEmpty then "" else "." ++ String.ofList fraction) ++ unit

/-- The length in the largest of the units s, ms, µs and ns that gives it a whole part. -/
def render (d : Duration) : String :=
  if nanosPerSecond ≤ d.nanos then renderIn d.seconds d.subsecond 9 "s"
  else if 10 ^ 6 ≤ d.nanos then renderIn (d.nanos / 10 ^ 6) (d.nanos % 10 ^ 6) 6 "ms"
  else if 10 ^ 3 ≤ d.nanos then renderIn (d.nanos / 10 ^ 3) (d.nanos % 10 ^ 3) 3 "µs"
  else renderIn d.nanos 0 0 "ns"

end Duration

end CloudClient
