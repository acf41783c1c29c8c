import CloudClient.Retry.Repeat

/-!
Programs that differ in nothing but in what they send. They take the same answers in the same way,
wait as long and come to the same result; only in place of a request another one may be sent that is
related to it. Programs that are put together in the same way from parts that are alike are alike.
-/

namespace CloudClient

open Http (Request)

/-- Programs with the same effects and results, but for requests, which are related. -/
inductive Program.Alike (R : Request → Request → Prop) {α : Type} :
    Program α → Program α → Prop where
  | done (a : α) : Alike R (.done a) (.done a)
  | ask (e : Effect) {k k' : e.Answer → Program α} :
      (∀ x, Alike R (k x) (k' x)) → Alike R (.ask e k) (.ask e k')
  | send {r r' : Request} {k k' : Effect.Answer (.send r) → Program α} :
      R r r' → (∀ x, Alike R (k x) (k' x)) → Alike R (.ask (.send r) k) (.ask (.send r') k')

namespace Program.Alike

variable {R : Request → Request → Prop} {σ α β : Type}

theorem refl (p : Program α) : Alike R p p := by
  induction p with
  | done a => exact .done a
  | ask e k ih => exact .ask e ih

theorem bind {p p' : Program α} {f f' : α → Program β} (h : Alike R p p')
    (hf : ∀ a, Alike R (f a) (f' a)) : Alike R (p >>= f) (p' >>= f') := by
  induction h with
  | done a => exact hf a
  | ask e _ ih => exact .ask e ih
  | send hr _ ih => exact .send hr ih

/-- The same is done with the results of programs that are alike. -/
theorem map {p p' : Program α} (h : Alike R p p') (f : α → Program β) :
    Alike R (p >>= f) (p' >>= f) :=
  h.bind fun a => refl (f a)

/-! ### Repeated attempts -/

variable {p : RetryPolicy} {again : σ → Error → Bool}
  {attempt attempt' : σ → Program (Except Failure α × σ)}

theorem repeatFrom (h : ∀ x, Alike R (attempt x) (attempt' x)) (started left : Nat) (q : Schedule)
    (x : σ) : Alike R (Program.repeatFrom p again attempt started left q x)
      (Program.repeatFrom p again attempt' started left q x) := by
  induction left generalizing q x with
  | zero => exact h x
  | succ left ih =>
    rw [Program.repeatFrom, Program.repeatFrom]
    refine (h x).bind ?_
    rintro ⟨(e | _) | a, y⟩
    · dsimp only
      split
      · -- what the schedule says rests on the error and the clock alone
        refine (refl (q.ask p started e.wait?)).bind ?_
        rintro ⟨verdict, q'⟩
        cases verdict with
        | stop => exact .done _
        | overflow => exact .done _
        | wait d => exact .ask (.sleep d) fun _ => ih q' y
      · exact .done _
    · exact .done _
    · exact .done _

theorem repeating (h : ∀ x, Alike R (attempt x) (attempt' x)) (x : σ) :
    Alike R (Program.repeating p again attempt x) (Program.repeating p again attempt' x) :=
  .ask .clock fun started => repeatFrom h started _ _ x

theorem retrying {again : Error → Bool} {attempt attempt' : Program (Except Failure α)}
    (h : Alike R attempt attempt') :
    Alike R (Program.retrying p again attempt) (Program.retrying p again attempt') :=
  (repeating (fun _ => h.map _) ()).map _

end Program.Alike

end CloudClient
