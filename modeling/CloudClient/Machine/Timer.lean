import CloudClient.Time.Duration

/-!
Timers. They go off at whole milliseconds of a clock that shows `2 ^ 63` seconds. Where the end of a
wait is not a time that a timer can be set for, it is set for 30 years of 365 days from now.
-/

namespace CloudClient

namespace Timer

/-- The end of the clock: all times that it shows are before this one. -/
def horizon : Nat := 2 ^ 63 * Duration.nanosPerSecond

def far : Duration := .ofSeconds (30 * 365 * 86400)

/-- The first whole millisecond from a time on. -/
def tick (t : Nat) : Nat :=
  (t + (Duration.nanosPerMilli - 1)) / Duration.nanosPerMilli * Duration.nanosPerMilli

end Timer

structure Timer where
  /-- Whether it can be set for the end of a wait that begins at a time. -/
  reaches : Nat → Duration → Bool
  inRange : ∀ now d, reaches now d = true → now + d.nanos < Timer.horizon

namespace Timer

/-- A timer that can be set for every time of the clock. -/
def standard : Timer where
  reaches now d := now + d.nanos < horizon
  inRange _ _ := of_decide_eq_true

instance : Inhabited Timer := ⟨standard⟩

/-- The end of a wait that begins at a time. -/
def stop (t : Timer) (now : Nat) (d : Duration) : Nat :=
  tick (now + (if t.reaches now d then d else min d far).nanos)

end Timer

end CloudClient
