import CloudClient.Proofs.Retry.Rounds

/-!
The time that repetitions are slept for. No wait is granted that would end too late, so all that was
slept up to the end of a granted wait is within the time that the policy allows, whatever was waited
for in between.
-/

namespace CloudClient

namespace Event

/-- How long a wait takes, but for what the timer goes off too late. -/
def pause : Event → Nat
  | ⟨.sleep d, _, began, ended⟩ => min d.nanos (ended - began)
  | _ => 0

/-- The time slept in a history. -/
def asleep : List Event → Nat
  | [] => 0
  | e :: h => e.pause + asleep h

@[simp] theorem asleep_nil : asleep [] = 0 := rfl

@[simp] theorem asleep_cons (e : Event) (h : List Event) : asleep (e :: h) = e.pause + asleep h :=
  rfl

@[simp] theorem asleep_append (h₁ h₂ : List Event) : asleep (h₁ ++ h₂) = asleep h₁ + asleep h₂ := by
  induction h₁ with
  | nil => exact (Nat.zero_add _).symm
  | cons e h₁ ih => rw [List.cons_append, asleep_cons, asleep_cons, ih, Nat.add_assoc]

theorem pause_of_ne {e : Event} (he : ∀ d, e.effect ≠ .sleep d) : e.pause = 0 := by
  obtain ⟨effect, x, began, ended⟩ := e
  cases effect with
  | sleep d => exact absurd rfl (he d)
  | _ => rfl

theorem asleep_of_ne {h : List Event} (he : ∀ e ∈ h, ∀ d, e.effect ≠ .sleep d) : asleep h = 0 := by
  induction h with
  | nil => rfl
  | cons e h ih =>
    obtain ⟨hhead, htail⟩ := List.forall_mem_cons.1 he
    rw [asleep_cons, pause_of_ne hhead, ih htail]

theorem asleep_of_idle {h : List Event} (H : World.Idle h) : asleep h = 0 := by
  refine asleep_of_ne fun e he d hd => ?_
  rcases H e he with hidle | hidle | hidle <;> rw [hd] at hidle <;> cases hidle

end Event

namespace World

variable {σ α : Type} {w w' : World σ}

/-- A wait whose end is reached takes all its time. -/
theorem pause_of_reaches {v : World σ} {d : Duration} {x : Unit}
    (h : w.answer? (.sleep d) = some (x, v)) (hd : w.timer.reaches w.now d = true) :
    Event.pause ⟨.sleep d, x, w.now, v.now⟩ = d.nanos := by
  rw [answer?_sleep] at h
  cases h
  have hend : w.now + d.nanos ≤ w.after d := by
    rw [after, Timer.stop_of_reaches hd]
    exact Timer.le_tick _
  refine Nat.min_eq_left ?_
  dsimp only
  omega

theorem pause_answer? {v : World σ} {e : Effect} {x : e.Answer} (h : w.answer? e = some (x, v)) :
    w.now + Event.pause ⟨e, x, w.now, v.now⟩ ≤ v.now := by
  have hlater : w.now ≤ v.now := (later_answer? h).now
  cases e with
  | sleep d =>
    have htaken : Event.pause ⟨.sleep d, x, w.now, v.now⟩ ≤ v.now - w.now := Nat.min_le_right _ _
    omega
  | _ => exact hlater

theorem Runs.asleep_le {p : Program α} {h : List Event} {a : α} (H : w.Runs p h a w') :
    w.now + Event.asleep h ≤ w'.now := by
  induction H with
  | done w a => exact Nat.le_refl _
  | ask hx _ ih =>
    have hstep := pause_answer? hx
    rw [Event.asleep_cons]
    omega

/-- All that was slept is within the time of the policy, and has passed. -/
structure Budgeted (p : RetryPolicy) (started : Nat) (past : List Event) (v : World σ) : Prop where
  within : Event.asleep past ≤ p.maxElapsed.nanos
  passed : started + Event.asleep past ≤ v.now

theorem Budgeted.start (p : RetryPolicy) (w : World σ) :
    Budgeted p w.now [⟨.clock, w.now, w.now, w.now⟩] w :=
  ⟨Nat.zero_le _, Nat.le_refl _⟩

/-- What is slept in an attempt has passed when the wait after it is granted. -/
theorem Budgeted.again {p : RetryPolicy} {started : Nat} {past h h' : List Event}
    {v v' u t : World σ} {attempt : Program α} {a : α} {q q' : Schedule}
    {proposed : Option Duration} {d : Duration} (H : Budgeted p started past v)
    (ha : v.Runs attempt h a v') (hlook : v'.Looked h' u)
    (hnext : q.next p (v'.now - started) proposed = (.wait d, q'))
    (hsleep : u.answer? (.sleep d) = some ((), t)) :
    Budgeted p started (past ++ h ++ h' ++ [⟨.sleep d, (), v'.now, t.now⟩]) t := by
  have hpassed := H.passed
  have hattempt : v.now + Event.asleep h ≤ v'.now := ha.asleep_le
  have hpause := pause_answer? hsleep
  rw [hlook.now] at hpause
  have hgranted : v'.now - started + d.nanos ≤ p.maxElapsed.nanos :=
    (Schedule.wait_of_next hnext).2.2.1
  have hwhole : Event.pause ⟨.sleep d, (), v'.now, t.now⟩ ≤ d.nanos := Nat.min_le_left _ _
  have hslept : Event.asleep (past ++ h ++ h' ++ [⟨.sleep d, (), v'.now, t.now⟩]) =
      Event.asleep past + Event.asleep h + Event.pause ⟨.sleep d, (), v'.now, t.now⟩ := by
    simp [Event.asleep_of_idle hlook.idle, Nat.add_assoc]
  constructor
  · rw [hslept]
    omega
  · rw [hslept]
    omega

end World

end CloudClient
