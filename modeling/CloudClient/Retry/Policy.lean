import CloudClient.Numeric.Decimal
import CloudClient.Text.Described
import CloudClient.Time.Duration

/-!
How often a failed attempt is repeated, and how long to wait before each repetition.
-/

namespace CloudClient

structure RetryPolicy where
  /-- Repetitions after the first attempt. -/
  maxRetries : UInt32
  initialBackoff : Duration
  maxBackoff : Duration
  multiplier : Binary64
  /-- The part of a delay, from 0 to 1, by which chance may move it either way. -/
  jitter : Binary64
  /-- The time that one call may take, repetitions included. -/
  maxElapsed : Duration
  deriving DecidableEq, Repr

namespace RetryPolicy

def standard : RetryPolicy where
  maxRetries := 3
  initialBackoff := .ofMillis 500
  maxBackoff := .ofSeconds 10
  multiplier := .ofNat 2
  jitter := .ofDecimal false 1 (-1)
  maxElapsed := .ofSeconds 30

instance : Inhabited RetryPolicy := ⟨standard⟩

/-- A policy without repetitions. -/
def disabled : RetryPolicy := { standard with maxRetries := 0 }

/-- The delay in seconds before repetition `retry` (from 0), without chance: it grows by the
multiplier up to the maximum. -/
def baseDelay (p : RetryPolicy) (retry : Nat) : Binary64 :=
  let grown := p.initialBackoff.toSeconds * p.multiplier.pow (Nat.min retry (2 ^ 31 - 1))
  grown.min p.maxBackoff.toSeconds

/-- A delay moved by chance; `sample` is from 0 to 1, and a half leaves the delay as it is. -/
def jittered (p : RetryPolicy) (base sample : Binary64) : Binary64 :=
  let range := base * p.jitter.clamp (.ofNat 0) (.ofNat 1)
  (base + (sample * .ofNat 2 - .ofNat 1) * range).max .zero

/-- The delay before repetition `retry`; `none` when it is too long to be a duration. -/
def delay? (p : RetryPolicy) (retry : Nat) (sample : Binary64) : Option Duration :=
  Duration.ofBinary64? (p.jittered (p.baseDelay retry) sample)

def describe (p : RetryPolicy) : String :=
  Text.describe "RetryConfig" [
    ("max_retries", toString p.maxRetries.toNat),
    ("initial_backoff", p.initialBackoff.render),
    ("max_backoff", p.maxBackoff.render),
    ("backoff_multiplier", Binary64.display.render p.multiplier),
    ("jitter", Binary64.display.render p.jitter),
    ("max_elapsed", p.maxElapsed.render)]

end RetryPolicy

end CloudClient
