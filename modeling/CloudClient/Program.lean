import CloudClient.Http.Message
import CloudClient.Error
import CloudClient.Token.Basic

/-!
Programs that wait: trees of effects, with a branch for every answer that an effect may have. All
callers share one token cache, which only one of them holds at a time.
-/

namespace CloudClient

inductive Effect where
  /-- Sends a request and waits for what comes back. -/
  | send (r : Http.Request)
  | sleep (d : Duration)
  /-- Waits for the token cache and takes it. -/
  | acquire
  /-- Gives the token cache back with this in it. -/
  | release (cache : Option Token)
  /-- Reads a clock in nanoseconds that only moves forward. -/
  | clock
  | timeOfDay
  /-- Draws a number from 0 to 1. -/
  | sample
  deriving DecidableEq, Repr

abbrev Effect.Answer : Effect → Type
  | .send _ => Except NetworkFailure Http.Response
  | .sleep _ => Unit
  | .acquire => Option Token
  | .release _ => Unit
  | .clock => Nat
  | .timeOfDay => Timestamp
  | .sample => Binary64

inductive Program (α : Type) where
  | done (a : α)
  | ask (e : Effect) (k : e.Answer → Program α)

namespace Program

variable {α β γ : Type}

def bind : Program α → (α → Program β) → Program β
  | .done a, f => f a
  | .ask e k, f => .ask e fun x => bind (k x) f

instance : Monad Program where
  pure := done
  bind := bind

@[simp] theorem pure_eq (a : α) : (pure a : Program α) = .done a := rfl

@[simp] theorem done_bind (a : α) (f : α → Program β) : (Program.done a >>= f) = f a := rfl

@[simp] theorem ask_bind (e : Effect) (k : e.Answer → Program α) (f : α → Program β) :
    (Program.ask e k >>= f) = .ask e fun x => k x >>= f := rfl

theorem bind_done (p : Program α) : (p >>= Program.done) = p := by
  induction p with
  | done a => rfl
  | ask e k ih => exact congrArg (Program.ask e) (funext ih)

theorem bind_assoc (p : Program α) (f : α → Program β) (g : β → Program γ) :
    (p >>= f >>= g) = p >>= fun a => f a >>= g := by
  induction p with
  | done a => rfl
  | ask e k ih => exact congrArg (Program.ask e) (funext ih)

def perform (e : Effect) : Program e.Answer :=
  .ask e .done

def send (r : Http.Request) : Program (Except NetworkFailure Http.Response) := perform (.send r)

def sleep (d : Duration) : Program Unit := perform (.sleep d)

def acquire : Program (Option Token) := perform .acquire

def release (cache : Option Token) : Program Unit := perform (.release cache)

def clock : Program Nat := perform .clock

def timeOfDay : Program Timestamp := perform .timeOfDay

def sample : Program Binary64 := perform .sample

end Program

/-- Why a call gives no result: an error, or a length of time that no duration can hold. -/
inductive Failure where
  | error (e : Error)
  | overflow
  deriving DecidableEq, Repr

end CloudClient
