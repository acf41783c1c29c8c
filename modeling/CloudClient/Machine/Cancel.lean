import CloudClient.Delivery
import CloudClient.Machine.Solo

/-!
Calls that are cancelled. Who gives a call up gets an error that says so, unless the call was over
before.
-/

namespace CloudClient.Delivery

variable {σ α : Type}

/-- What is told of a call that may be given up. -/
def orCancelled (result : Option (Except Failure α)) : Except Failure α :=
  result.getD (.error (.error .cancelled))

/-- A call with the world to itself that is cancelled at this moment. -/
def runUntil (c : Config) (r : Http.Request) (moment : Option Nat) (w : World σ) :
    Except Failure Http.Response × World σ :=
  let (result, w) := w.runUntil moment (run c r)
  (orCancelled result, w)

end CloudClient.Delivery
