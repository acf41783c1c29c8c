import CloudClient.Proofs.Machine.Alone

/-!
Places in a history. A law may be about every event with all that comes after it, or before it; and
a program may be looked for at every place, by replaying it on the events from there on: each of its
effects has to be the one of the next event, and goes on with the answer in there. What a run has
done is replayed to the same result.
-/

namespace CloudClient

namespace Event

/-- What holds of every event in the second history together with all that comes after it, up to the
end of the first one. -/
def EachThen (P : Event → List Event → Prop) (rest : List Event) : List Event → Prop
  | [] => True
  | e :: h => P e (h ++ rest) ∧ EachThen P rest h

variable {P : Event → List Event → Prop} {rest : List Event}

theorem eachThen_append {h₁ h₂ : List Event} :
    EachThen P rest (h₁ ++ h₂) ↔ EachThen P (h₂ ++ rest) h₁ ∧ EachThen P rest h₂ := by
  induction h₁ with
  | nil => exact (iff_of_eq (true_and _)).symm
  | cons e h₁ ih => rw [List.cons_append, EachThen, EachThen, ih, List.append_assoc, and_assoc]

theorem eachThen_of_forall {h : List Event} (H : ∀ e ∈ h, ∀ later, P e later) :
    EachThen P rest h := by
  induction h with
  | nil => trivial
  | cons e h ih =>
    obtain ⟨he, hh⟩ := List.forall_mem_cons.1 H
    exact ⟨he _, ih hh⟩

theorem EachThen.of_split {past later : List Event} {e : Event}
    (H : EachThen P [] (past ++ e :: later)) : P e later := by
  have he := (eachThen_append.1 H).2.1
  rwa [List.append_nil] at he

/-- What holds of every event in the second history together with all that comes before it, from the
start of the first one on. -/
def EachAfter (P : List Event → Event → Prop) : (past : List Event) → List Event → Prop
  | _, [] => True
  | past, e :: h => P past e ∧ EachAfter P (past ++ [e]) h

theorem eachAfter_append {P : List Event → Event → Prop} {past h₁ h₂ : List Event} :
    EachAfter P past (h₁ ++ h₂) ↔ EachAfter P past h₁ ∧ EachAfter P (past ++ h₁) h₂ := by
  induction h₁ generalizing past with
  | nil =>
    rw [List.append_nil]
    exact (iff_of_eq (true_and _)).symm
  | cons e h₁ ih =>
    rw [List.cons_append, EachAfter, EachAfter, ih, List.append_assoc, and_assoc]
    rfl

theorem eachAfter_of_forall {P : List Event → Event → Prop} {past h : List Event}
    (H : ∀ e ∈ h, ∀ past, P past e) : EachAfter P past h := by
  induction h generalizing past with
  | nil => trivial
  | cons e h ih =>
    obtain ⟨he, hh⟩ := List.forall_mem_cons.1 H
    exact ⟨he _, ih hh⟩

theorem EachAfter.of_split {P : List Event → Event → Prop} {before later : List Event} {e : Event}
    (H : EachAfter P [] (before ++ e :: later)) : P before e :=
  (eachAfter_append.1 H).2.1

end Event

namespace Program

variable {α β : Type}

/-- What a program comes to on the first events of a history, and the events after those. -/
def replay? : Program α → List Event → Option (α × List Event)
  | .done a, h => some (a, h)
  | .ask _ _, [] => none
  | .ask e k, ⟨e', x, _, _⟩ :: h => if he : e' = e then replay? (k (he ▸ x)) h else none

@[simp] theorem replay?_done (a : α) (h : List Event) : (done a).replay? h = some (a, h) := by
  rw [replay?]

@[simp] theorem replay?_ask {e : Effect} (k : e.Answer → Program α) (x : e.Answer) (t u : Nat)
    (h : List Event) : (ask e k).replay? (⟨e, x, t, u⟩ :: h) = (k x).replay? h := by
  rw [replay?, dif_pos rfl]

theorem replay?_ask_of_ne {e : Effect} (k : e.Answer → Program α) {e' : Event}
    (he : e'.effect ≠ e) (h : List Event) : (ask e k).replay? (e' :: h) = none := by
  rw [replay?, dif_neg he]

theorem replay?_bind (p : Program α) (f : α → Program β) (h : List Event) :
    (p >>= f).replay? h = (p.replay? h).bind fun (a, later) => (f a).replay? later := by
  induction p generalizing h with
  | done a => rw [done_bind, replay?_done, Option.bind_some]
  | ask e k ih =>
    rw [ask_bind]
    cases h with
    | nil => rfl
    | cons e' h =>
      by_cases he : e'.effect = e
      · obtain ⟨effect, x, t, u⟩ := e'
        obtain rfl : effect = e := he
        rw [replay?_ask, replay?_ask, ih]
      · rw [replay?_ask_of_ne _ he, replay?_ask_of_ne _ he, Option.bind_none]

end Program

/-- A run is replayed to its end, whatever comes after it. -/
theorem World.Runs.replay?_append {σ α : Type} {w w' : World σ} {p : Program α} {h : List Event}
    {a : α} (H : w.Runs p h a w') (later : List Event) :
    p.replay? (h ++ later) = some (a, later) := by
  induction H with
  | done w a => rw [List.nil_append, Program.replay?_done]
  | ask _ _ ih => rw [List.cons_append, Program.replay?_ask, ih]

end CloudClient
