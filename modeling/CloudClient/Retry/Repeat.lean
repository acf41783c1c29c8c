import CloudClient.Program
import CloudClient.Retry.Schedule

/-!
Attempts that are repeated under a policy. Attempts pass a state on to each other.
-/

namespace CloudClient

namespace Schedule

/-- The delay that the server asks for, or else that of the policy, moved by chance. -/
def propose (p : RetryPolicy) (s : Schedule) : (hint : Option Duration) → Program (Option Duration)
  | some d => return some d
  | none => return p.delay? s.retries (← Program.sample)

/-- Asks for a repetition after an error that came with a hint or without. -/
def ask (p : RetryPolicy) (s : Schedule) (started : Nat) (hint : Option Duration) :
    Program (Verdict × Schedule) := do
  let proposed ← s.propose p hint
  return s.next p ((← Program.clock) - started) proposed

end Schedule

namespace Program

variable {σ α : Type}

/-- Repeats an attempt after each error that `again` accepts, until the schedule says stop. `left`
is the number of repetitions that the policy still allows. -/
def repeatFrom (p : RetryPolicy) (again : σ → Error → Bool)
    (attempt : σ → Program (Except Failure α × σ)) (started : Nat) :
    (left : Nat) → Schedule → σ → Program (Except Failure α × σ)
  | 0, _, x => attempt x
  | left + 1, s, x => do
    let (result, x) ← attempt x
    match result with
    | .error (.error e) =>
      if again x e then
        match ← s.ask p started e.wait? with
        | (.stop, _) => return (result, x)
        | (.overflow, _) => return (.error .overflow, x)
        | (.wait delay, s) => do
          sleep delay
          repeatFrom p again attempt started left s x
      else return (result, x)
    | _ => return (result, x)

/-- The result of the last attempt, and the state it left. -/
def repeating (p : RetryPolicy) (again : σ → Error → Bool)
    (attempt : σ → Program (Except Failure α × σ)) (x : σ) : Program (Except Failure α × σ) := do
  repeatFrom p again attempt (← clock) p.maxRetries.toNat {} x

/-- Repeats an attempt that keeps no state. -/
def retrying (p : RetryPolicy) (again : Error → Bool) (attempt : Program (Except Failure α)) :
    Program (Except Failure α) := do
  let (result, ()) ← repeating p (fun () => again) (fun () => do return (← attempt, ())) ()
  return result

end Program

end CloudClient
