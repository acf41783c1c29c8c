import CloudClient.Time.Duration

/-!
Instants of universal time, as nanoseconds from the start of 1970, and the calendar dates they fall
on. The range is that of the years -262143 to 262142, and arithmetic that leaves it gives `none`.
-/

namespace CloudClient

structure Timestamp where
  nanos : Int
  inRange : -8334601228800 * 10 ^ 9 ≤ nanos ∧ nanos < 8210266876800 * 10 ^ 9
  deriving DecidableEq, Repr

namespace Timestamp

def ofNanos? (n : Int) : Option Timestamp :=
  if h : -8334601228800 * 10 ^ 9 ≤ n ∧ n < 8210266876800 * 10 ^ 9 then some ⟨n, h⟩ else none

def ofSeconds? (seconds : Int) (nanos : Nat := 0) : Option Timestamp :=
  ofNanos? (seconds * 10 ^ 9 + nanos)

def max : Timestamp := ⟨8210266876800 * 10 ^ 9 - 1, by decide⟩

def epoch : Timestamp := ⟨0, by decide⟩

instance : Inhabited Timestamp := ⟨epoch⟩

def seconds (t : Timestamp) : Int := t.nanos.fdiv (10 ^ 9)

def subsecond (t : Timestamp) : Nat := (t.nanos.fmod (10 ^ 9)).toNat

def secondOfDay (t : Timestamp) : Int := t.seconds % 86400

end Timestamp

/-- A signed length of time with a magnitude of at most `2 ^ 63 - 1` milliseconds. -/
structure TimeDelta where
  nanos : Int
  inRange : -(2 ^ 63 - 1) * 10 ^ 6 ≤ nanos ∧ nanos ≤ (2 ^ 63 - 1) * 10 ^ 6
  deriving DecidableEq, Repr

namespace TimeDelta

def ofNanos? (n : Int) : Option TimeDelta :=
  if h : -(2 ^ 63 - 1) * 10 ^ 6 ≤ n ∧ n ≤ (2 ^ 63 - 1) * 10 ^ 6 then some ⟨n, h⟩ else none

def zero : TimeDelta := ⟨0, by decide⟩

def ofSeconds? (seconds : Int) : Option TimeDelta :=
  ofNanos? (seconds * 10 ^ 9)

def ofDuration? (d : Duration) : Option TimeDelta :=
  ofNanos? d.nanos

/-- The length when it is not negative. -/
def toDuration? (d : TimeDelta) : Option Duration :=
  if 0 ≤ d.nanos then Duration.ofNanos? d.nanos.toNat else none

/-- Whole seconds and the nanoseconds beside them, both truncated toward zero. -/
def parts (d : TimeDelta) : Int × Int :=
  (d.nanos.tdiv (10 ^ 9), d.nanos.tmod (10 ^ 9))

end TimeDelta

namespace Timestamp

def add? (t : Timestamp) (d : TimeDelta) : Option Timestamp :=
  ofNanos? (t.nanos + d.nanos)

def sub? (t : Timestamp) (d : TimeDelta) : Option Timestamp :=
  ofNanos? (t.nanos - d.nanos)

/-- The time from `s` to `t`; any two instants are near enough to each other for it to be in range.
-/
def since (t s : Timestamp) : TimeDelta :=
  ⟨t.nanos - s.nanos, by have := t.inRange; have := s.inRange; omega⟩

instance : LT Timestamp := ⟨fun a b => a.nanos < b.nanos⟩

instance (a b : Timestamp) : Decidable (a < b) := inferInstanceAs (Decidable (a.nanos < b.nanos))

end Timestamp

/-! ### The calendar -/

/-- A day of the Gregorian calendar, extended to all years. -/
structure CivilDate where
  year : Int
  month : Nat
  day : Nat
  deriving DecidableEq, Repr

namespace CivilDate

/-- Days from the start of 1970. Years are counted from March, so that the leap day ends one. -/
def toDays (d : CivilDate) : Int :=
  let y := if d.month ≤ 2 then d.year - 1 else d.year
  let era := y.fdiv 400
  let yearOfEra := y - era * 400
  let month := (d.month + 9) % 12
  let dayOfYear : Int := (153 * month + 2) / 5 + d.day - 1
  era * 146097 + yearOfEra * 365 + yearOfEra / 4 - yearOfEra / 100 + dayOfYear - 719468

def ofDays (days : Int) : CivilDate :=
  let z := days + 719468
  let era := z.fdiv 146097
  let dayOfEra := z - era * 146097
  let yearOfEra := (dayOfEra - dayOfEra / 1460 + dayOfEra / 36524 - dayOfEra / 146096) / 365
  let dayOfYear := dayOfEra - (365 * yearOfEra + yearOfEra / 4 - yearOfEra / 100)
  let month := ((5 * dayOfYear + 2) / 153).toNat
  let day := (dayOfYear - (153 * month + 2) / 5 + 1).toNat
  let month := if month < 10 then month + 3 else month - 9
  ⟨yearOfEra + era * 400 + (if month ≤ 2 then 1 else 0), month, day⟩

def isLeap (year : Int) : Bool :=
  year % 4 == 0 && (year % 100 != 0 || year % 400 == 0)

def monthLength (year : Int) (month : Nat) : Nat :=
  if month = 2 then if isLeap year then 29 else 28
  else if month = 4 ∨ month = 6 ∨ month = 9 ∨ month = 11 then 30
  else 31

/-- Whether the calendar has the day. -/
def isValid (d : CivilDate) : Bool :=
  1 ≤ d.month && d.month ≤ 12 && 1 ≤ d.day && d.day ≤ monthLength d.year d.month

/-- The day of the week, with Monday as 0. -/
def weekday (d : CivilDate) : Nat :=
  ((d.toDays + 3) % 7).toNat

end CivilDate

namespace Timestamp

/-- A number in at least `width` digits. -/
def padded (width n : Nat) : String :=
  let digits := Nat.toDigits 10 n
  String.ofList (List.replicate (width - digits.length) '0' ++ digits)

/-- Four digits for the years from 0 to 9999, and a sign in front of all others. -/
def renderYear (year : Int) : String :=
  if 0 ≤ year ∧ year ≤ 9999 then padded 4 year.toNat
  else (if year < 0 then "-" else "+") ++ padded 4 year.natAbs

/-- A fraction of a second in three, six or nine digits, the fewest that lose nothing. -/
def renderSubsecond (nanos : Nat) : String :=
  if nanos = 0 then ""
  else if nanos % 10 ^ 6 = 0 then "." ++ padded 3 (nanos / 10 ^ 6)
  else if nanos % 10 ^ 3 = 0 then "." ++ padded 6 (nanos / 10 ^ 3)
  else "." ++ padded 9 nanos

def render (t : Timestamp) : String :=
  let days := t.seconds.fdiv 86400
  let clock := (t.seconds - days * 86400).toNat
  let date := CivilDate.ofDays days
  renderYear date.year ++ "-" ++ padded 2 date.month ++ "-" ++ padded 2 date.day ++ "T" ++
    padded 2 (clock / 3600) ++ ":" ++ padded 2 (clock / 60 % 60) ++ ":" ++ padded 2 (clock % 60) ++
    renderSubsecond t.subsecond ++ "Z"

end Timestamp

end CloudClient
