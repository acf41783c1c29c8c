import CloudClient.Retry.Policy

/-!
The repetitions of one call under a policy: how many there were, and the delay before the last one.
Delays never decrease, and none is granted that would take the call past its time.
-/

namespace CloudClient

structure Schedule where
  retries : Nat := 0
  previous : Duration := .zero
  deriving DecidableEq, Repr

/-- What a schedule says when another repetition is asked for. -/
inductive Verdict where
  | stop
  | wait (delay : Duration)
  /-- The delay, or the time at which it would end, is too long to be a duration. -/
  | overflow
  deriving DecidableEq, Repr

namespace Schedule

/-- Asks for a repetition after a delay, `elapsed` nanoseconds into the call. A delay of `none` is
one too long to be a duration. -/
def next (p : RetryPolicy) (s : Schedule) (elapsed : Nat) (proposed : Option Duration) :
    Verdict × Schedule :=
  if p.maxRetries.toNat ≤ s.retries then (.stop, s)
  else
    match proposed with
    | none => (.overflow, s)
    | some proposed =>
      let delay := max proposed s.previous
      match Duration.ofNanos? (elapsed + delay.nanos) with
      | none => (.overflow, s)
      | some total =>
        if total ≤ p.maxElapsed then (.wait delay, ⟨s.retries + 1, delay⟩) else (.stop, s)

end Schedule

end CloudClient
