import CloudClient.Machine.Server
import CloudClient.Machine.Timer
import CloudClient.Program

/-!
The world that programs run in: a clock that moves only while all of them wait, the token cache with
the line of those who wait for it, and a server. An effect starts and, after some waiting or at
once, finishes.
-/

namespace CloudClient

/-- A request and the time at which it was sent. -/
structure Sent where
  time : Nat
  request : Http.Request
  deriving DecidableEq, Repr

structure World (σ : Type) where
  /-- Nanoseconds. -/
  now : Nat := 0
  cache : Option Token := none
  /-- The tasks that have asked for the cache, in order; the first one has it. -/
  line : List Nat := []
  sent : List Sent := []
  server : Server σ
  /-- The state of the server. -/
  state : σ
  timer : Timer := .standard
  /-- The time of day at each time of the clock. -/
  timeOfDay : Nat → Timestamp
  /-- The samples that chance brings, in order. -/
  chance : Nat → Binary64
  /-- The number of samples that have been drawn. -/
  drawn : Nat := 0

namespace World

variable {σ : Type}

/-- The end of a wait. -/
def after (w : World σ) (d : Duration) : Nat :=
  w.timer.stop w.now d

/-- Starts an effect of a task, and tells when it may finish. No reply is waited for past the end of
the clock. -/
def start (w : World σ) (task : Nat) : Effect → World σ × Nat
  | .send r =>
    ({ w with sent := w.sent ++ [⟨w.now, r⟩] },
      min (w.server.due w.state r w.now) Timer.horizon)
  | .sleep d => (w, w.after d)
  | .acquire => ({ w with line := w.line ++ [task] }, w.now)
  | _ => (w, w.now)

/-- Finishes an effect that has started, unless it has to wait. -/
def finish? (w : World σ) (task wake : Nat) : (e : Effect) → Option (e.Answer × World σ)
  | .send r =>
    if wake ≤ w.now then
      let (reply, state) := w.server.reply w.state r
      some (reply, { w with state })
    else none
  | .sleep _ => if wake ≤ w.now then some ((), w) else none
  | .acquire => if w.line.head? = some task then some (w.cache, w) else none
  | .release cache => some ((), { w with cache, line := w.line.erase task })
  | .clock => some (w.now, w)
  | .timeOfDay => some (w.timeOfDay w.now, w)
  | .sample => some (w.chance w.drawn, { w with drawn := w.drawn + 1 })

/-- A task leaves without finishing; what it held is free. -/
def abandon (w : World σ) (task : Nat) : World σ :=
  { w with line := w.line.erase task }

end World

end CloudClient
