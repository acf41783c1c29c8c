import CloudClient.Text.Unsigned
import CloudClient.Time.Timestamp

/-!
Dates as mail and HTTP headers write them: an optional day of the week that has to fit, day, month
name, year, time of day and zone, then comments in parentheses. Names are read in any case.
-/

namespace CloudClient

/-- A second of universal time, or the leap second after it, which may be past the range of
instants. -/
structure HttpDate where
  time : Timestamp
  isLeap : Bool
  deriving DecidableEq, Repr

namespace HttpDate

/-- A reader takes what it can use from the front of a text and gives the rest. -/
abbrev Reader (α : Type) := List Char → Option (α × List Char)

def blanks (cs : List Char) : List Char :=
  Text.trimStartList cs

/-- One blank or more. -/
def space : Reader Unit := fun cs =>
  match cs with
  | c :: rest => if Text.isBlank c then some ((), blanks rest) else none
  | [] => none

def char (expected : Char) : Reader Unit := fun cs =>
  match cs with
  | c :: rest => if c = expected then some ((), rest) else none
  | [] => none

/-- From `least` to `most` digits; further ones are left. -/
def number (least most : Nat) : Reader Nat := fun cs =>
  let digits := (cs.take most).takeWhile (Text.digitValue? · |>.isSome)
  if digits.length < least then none
  else some (Text.ofDigits 10 (digits.filterMap Text.digitValue?), cs.drop digits.length)

def lower (cs : List Char) : String :=
  String.ofList (cs.map Char.toLower)

/-- The place of a three-letter name in a list of them. -/
def name (names : List String) : Reader Nat := fun cs =>
  let word := lower (cs.take 3)
  match names.findIdx? (· = word) with
  | some i => some (i, cs.drop 3)
  | none => none

def weekdays : List String := ["mon", "tue", "wed", "thu", "fri", "sat", "sun"]

def months : List String :=
  ["jan", "feb", "mar", "apr", "may", "jun", "jul", "aug", "sep", "oct", "nov", "dec"]

/-- A year of two digits lies from 1950 to 2049, one of three digits counts from 1900. -/
def fullYear (digits year : Nat) : Nat :=
  if digits = 2 then if year ≤ 49 then year + 2000 else year + 1900
  else if digits = 3 then year + 1900
  else year

/-- The offset of a zone name in hours; single letters other than `j` are of no known offset and
count as 0. -/
def zoneHours? (zone : String) : Option Int :=
  match zone with
  | "gmt" | "ut" | "z" => some 0
  | "edt" => some (-4)
  | "est" | "cdt" => some (-5)
  | "cst" | "mdt" => some (-6)
  | "mst" | "pdt" => some (-7)
  | "pst" => some (-8)
  | _ => if zone.length = 1 ∧ zone ≠ "j" then some 0 else none

/-- A zone name, or a sign and four digits for hours and minutes. The result is in minutes. -/
def zone : Reader Int := fun cs =>
  let letters := cs.takeWhile Char.isAlpha
  if letters.isEmpty then
    match cs with
    | sign :: h₁ :: h₂ :: m₁ :: m₂ :: rest => do
      let negative ← if sign = '+' then some false else if sign = '-' then some true else none
      let hours ← Text.digits? [h₁, h₂]
      let minutes ← Text.digits? [m₁, m₂]
      if 60 ≤ minutes then none
      else
        let offset : Int := hours * 60 + minutes
        some (if negative then -offset else offset, rest)
    | _ => none
  else (zoneHours? (lower letters)).map fun hours => (hours * 60, cs.dropWhile Char.isAlpha)

/-- The rest of a comment that is `depth` parentheses deep; a backslash takes away the meaning of
the character after it. -/
def commentRest : (depth : Nat) → (escaped : Bool) → List Char → Option (List Char)
  | _, _, [] => none
  | depth, true, _ :: rest => commentRest depth false rest
  | depth, false, c :: rest =>
    if c = '\\' then commentRest depth true rest
    else if c = '(' then commentRest (depth + 1) false rest
    else if c = ')' then if depth ≤ 1 then some rest else commentRest (depth - 1) false rest
    else commentRest depth false rest

/-- What is left after all comments; `bound` is at least their number. -/
def comments (cs : List Char) : (bound : Nat) → List Char
  | 0 => cs
  | bound + 1 =>
    match blanks cs with
    | '(' :: rest =>
      match commentRest 1 false rest with
      | some rest => comments rest bound
      | none => cs
    | _ => cs

def weekday : Reader (Option Nat) := fun cs =>
  match name weekdays cs with
  | some (day, rest) => do
    let ((), rest) ← char ',' rest
    some (some day, rest)
  | none => some (none, cs)

/-- The parts of a date as written. -/
structure Parts where
  weekday : Option Nat
  date : CivilDate
  hour : Nat
  minute : Nat
  second : Nat
  offset : Int

def seconds : Reader Nat := fun cs =>
  match char ':' (blanks cs) with
  | some ((), rest) => number 2 2 rest
  | none => some (0, cs)

def parts : Reader Parts := fun cs => do
  let (weekday, cs) ← weekday (blanks cs)
  let (day, cs) ← number 1 2 (blanks cs)
  let ((), cs) ← space cs
  let (month, cs) ← name months cs
  let ((), cs) ← space cs
  let (year, rest) ← number 2 cs.length cs
  let year := fullYear (cs.length - rest.length) year
  let ((), cs) ← space rest
  let (hour, cs) ← number 2 2 cs
  let ((), cs) ← char ':' (blanks cs)
  let (minute, cs) ← number 2 2 (blanks cs)
  let (second, cs) ← seconds cs
  let ((), cs) ← space cs
  let (offset, cs) ← zone cs
  some (⟨weekday, ⟨year, month + 1, day⟩, hour, minute, second, offset⟩, comments cs cs.length)

/-- The date that the parts name, if the calendar has the day and it falls on the weekday given. A
second 60 is the leap second after the second 59. -/
def Parts.date? (p : Parts) : Option HttpDate :=
  if p.date.isValid && p.hour < 24 && p.minute < 60 && p.second ≤ 60 && p.offset.natAbs < 24 * 60 &&
      p.weekday.all (· == p.date.weekday) && p.date.year ≤ 262142 then
    let minutes : Int := p.date.toDays * 1440 + p.hour * 60 + p.minute - p.offset
    (Timestamp.ofSeconds? (minutes * 60 + min p.second 59)).map fun t => ⟨t, p.second = 60⟩
  else none

def parse (s : String) : Option HttpDate := do
  let (p, rest) ← parts s.toList
  if rest.isEmpty then p.date? else none

/-- The time from an instant to a date. Its leap second counts unless the instant is later in the
day. -/
def since (d : HttpDate) (t : Timestamp) : TimeDelta :=
  ⟨d.time.nanos - t.nanos +
      (if d.isLeap && t.secondOfDay ≤ d.time.secondOfDay then 10 ^ 9 else 0), by
    have := d.time.inRange
    have := t.inRange
    split <;> omega⟩

end HttpDate

end CloudClient
