import CloudClient.Machine.World

/-!
Tasks are programs under way. A task whose first effect has started waits for it to finish; when it
is asked to go on, it runs up to the next effect that has to wait. A task may have a limit, a time
from which on it does nothing more once limits are in force.
-/

namespace CloudClient

structure Task (α : Type) where
  /-- What is left to do; it ends in `none` for a task that reached its limit. The first effect has
  started. -/
  rest : Program (Option α)
  wake : Nat := 0
  limit : Option Nat := none

namespace Task

variable {σ α : Type}

def isOver (t : Task α) : Bool :=
  match t.rest with
  | .done _ => true
  | .ask .. => false

def result? (t : Task α) : Option α :=
  match t.rest with
  | .done a => a
  | .ask .. => none

/-- Runs a program up to the first effect that has to wait. -/
def advance (id : Nat) (limit : Option Nat) : Program (Option α) → World σ → Task α × World σ
  | .done a, w => ({ rest := .done a, limit }, w)
  | .ask e k, w =>
    let (w, wake) := w.start id e
    match w.finish? id wake e with
    | some (x, w) => advance id limit (k x) w
    | none => ({ rest := .ask e k, wake, limit }, w)

def reached (limit : Option Nat) (time : Nat) : Bool :=
  limit.any (· ≤ time)

def launch (id : Nat) (limit : Option Nat) (p : Program α) (w : World σ) : Task α × World σ :=
  if reached limit w.now then ({ rest := .done none, limit }, w)
  else advance id limit (p >>= fun a => .done (some a)) w

/-- Lets a task go on, unless it is over or has to wait. Limits are in force up to a time. -/
def poll? (id inForce : Nat) (t : Task α) (w : World σ) : Option (Task α × World σ) :=
  match t.rest with
  | .done _ => none
  | .ask e k =>
    if reached t.limit inForce then some ({ t with rest := .done none }, w.abandon id)
    else (w.finish? id t.wake e).map fun (x, w) => advance id t.limit (k x) w

/-- The later times at which the task may go on. -/
def alarms (t : Task α) (w : World σ) : List Nat :=
  if t.isOver then [] else (t.wake :: t.limit.toList).filter (w.now < ·)

/-! ### Tasks come to an end -/

/-- What may be left of a program after some of its effects, or when it is given up. -/
inductive Rest : Program (Option α) → Program (Option α) → Prop where
  | stopped (a : Option α) (e : Effect) (k : e.Answer → Program (Option α)) :
      Rest (.done a) (.ask e k)
  | next (e : Effect) (k : e.Answer → Program (Option α)) (x : e.Answer) : Rest (k x) (.ask e k)
  | later (e : Effect) (k : e.Answer → Program (Option α)) (x : e.Answer) {q : Program (Option α)} :
      Rest q (k x) → Rest q (.ask e k)

theorem acc_done (a : Option α) : Acc Rest (.done a : Program (Option α)) :=
  ⟨_, fun _ h => nomatch h⟩

theorem acc_rest (p : Program (Option α)) : Acc Rest p := by
  induction p with
  | done a => exact acc_done a
  | ask e k ih =>
    constructor
    intro q h
    cases h with
    | stopped a => exact acc_done a
    | next _ _ x => exact ih x
    | later _ _ x h => exact (ih x).inv h

theorem advance_rest (id : Nat) (limit : Option Nat) (p : Program (Option α)) (w : World σ) :
    (advance id limit p w).1.rest = p ∨ Rest (advance id limit p w).1.rest p := by
  induction p generalizing w with
  | done a => exact .inl rfl
  | ask e k ih =>
    simp only [advance]
    split
    · rename_i x w' _
      rcases ih x w' with h | h
      · exact .inr (by rw [h]; exact .next e k x)
      · exact .inr (.later e k x h)
    · exact .inl rfl

theorem poll?_rest {id inForce : Nat} {t t' : Task α} {w w' : World σ}
    (h : t.poll? id inForce w = some (t', w')) :
    Rest t'.rest t.rest := by
  unfold poll? at h
  split at h
  · contradiction
  · rename_i e k hr
    rw [hr]
    split at h
    · cases h
      exact .stopped none e k
    · obtain ⟨⟨x, v⟩, _, hx⟩ := Option.map_eq_some_iff.1 h
      obtain rfl : (advance id t.limit (k x) v).1 = t' := congrArg Prod.fst hx
      rcases advance_rest id t.limit (k x) v with he | hl
      · rw [he]
        exact .next e k x
      · exact .later e k x hl

end Task

end CloudClient
