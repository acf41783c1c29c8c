import CloudClient.Machine.World

/-!
One program with a world to itself. Whenever it waits the clock moves on to the end of the wait, or
to the limit if that comes first, and there the program is cancelled. A wait that ends just at the
limit is still over in time.
-/

namespace CloudClient.World

variable {σ α : Type}

/-- Whether a wait is cut off by a limit, and when. -/
def cutoff? (w : World σ) (wake : Nat) (limit : Option Nat) : Option Nat :=
  if wake ≤ w.now then none else limit.filter (· < wake)

/-- Runs a program that has begun; `none` when it is cancelled, or waits for a cache that is never
given back. -/
def solo (limit : Option Nat) : Program α → World σ → Option α × World σ
  | .done a, w => (some a, w)
  | .ask e k, w =>
    let (w, wake) := w.start 0 e
    match w.cutoff? wake limit with
    | some t => (none, { w with now := t }.abandon 0)
    | none =>
      let w := { w with now := max w.now wake }
      match w.finish? 0 wake e with
      | some (x, w) => solo limit (k x) w
      | none => (none, w)

/-- Runs a program to its end, or until this moment; `none` when it is given up there. -/
def runUntil (w : World σ) (limit : Option Nat) (p : Program α) : Option α × World σ :=
  if limit.any (· ≤ w.now) then (none, w) else w.solo limit p

/-- Runs a program to its end, or until the time is over that it is given. -/
def runOne (w : World σ) (time : Option Duration) (p : Program α) : Option α × World σ :=
  w.runUntil (time.map w.after) p

end CloudClient.World
