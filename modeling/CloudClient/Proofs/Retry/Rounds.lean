import CloudClient.Proofs.Machine.Alone
import CloudClient.Retry.Repeat

/-!
Attempts that are repeated, round by round. What a schedule says is read off the numbers in it; what
holds before every round, whatever comes of the attempt in it, leads to what holds at the end.
-/

namespace CloudClient

theorem Duration.max_nanos (a b : Duration) : (max a b).nanos = max a.nanos b.nanos := by
  change (if a ≤ b then b else a).nanos = max a.nanos b.nanos
  split
  · exact (Nat.max_eq_right ‹a.nanos ≤ b.nanos›).symm
  · exact (Nat.max_eq_left (Nat.le_of_not_le ‹¬ a.nanos ≤ b.nanos›)).symm

namespace Event

/-- The sample that was drawn. -/
def sample? : Event → Option Binary64
  | ⟨.sample, x, _, _⟩ => some x
  | _ => none

/-- The sample that was drawn last, or zero where none was. -/
def lastSample (h : List Event) : Binary64 :=
  (h.filterMap sample?).getLast?.getD .zero

theorem lastSample_append {h₂ : List Event} (h₁ : List Event) (H : h₂.filterMap sample? = []) :
    lastSample (h₁ ++ h₂) = lastSample h₁ := by
  rw [lastSample, lastSample, List.filterMap_append, H, List.append_nil]

theorem lastSample_drawn (h : List Event) (x : Binary64) (y t u t' u' : Nat) :
    lastSample (h ++ [⟨.sample, x, t, u⟩, ⟨.clock, y, t', u'⟩]) = x := by
  have hdrawn : [⟨.sample, x, t, u⟩, ⟨.clock, y, t', u'⟩].filterMap sample? = [x] := rfl
  rw [lastSample, List.filterMap_append, hdrawn, List.getLast?_concat, Option.getD_some]

/-- What holds of zero and of all that was drawn. -/
theorem lastSample_of_forall {P : Binary64 → Prop} {h : List Event} (hzero : P .zero)
    (H : ∀ x ∈ h.filterMap sample?, P x) : P (lastSample h) := by
  rw [lastSample]
  cases hlast : (h.filterMap sample?).getLast? with
  | none => exact hzero
  | some x => exact H x (List.mem_of_getLast? hlast)

end Event

namespace Schedule

variable {p : RetryPolicy} {q q' : Schedule} {elapsed : Nat} {proposed : Option Duration}

/-- The schedule when these delays have been granted. -/
def after (delays : List Duration) : Schedule :=
  ⟨delays.length, delays.getLast?.getD .zero⟩

theorem after_append (delays : List Duration) (d : Duration) :
    after (delays ++ [d]) = ⟨(after delays).retries + 1, d⟩ := by
  simp [after]

/-- The time at which a repetition would start after a delay. -/
def resumes (q : Schedule) (elapsed : Nat) (d : Duration) : Nat :=
  elapsed + (max d q.previous).nanos

/-- The delay that the server asks for, or else that of the policy with the last sample that was
drawn. -/
def proposal (p : RetryPolicy) (q : Schedule) (h : List Event) : Option Duration → Option Duration
  | some d => some d
  | none => p.delay? q.retries (Event.lastSample h)

/-- No repetition is left, or it would come too late. -/
def Exhausted (p : RetryPolicy) (q : Schedule) (elapsed : Nat) (proposed : Option Duration) :
    Prop :=
  p.maxRetries.toNat ≤ q.retries ∨
    ∃ d, proposed = some d ∧ p.maxElapsed.nanos < q.resumes elapsed d ∧
      q.resumes elapsed d < 2 ^ 64 * 10 ^ 9

/-- The repetition would start at a time that no duration can hold, or the policy's delay before it
is one that no duration can hold. -/
def Overruns (p : RetryPolicy) (q : Schedule) (elapsed : Nat) (proposed : Option Duration) : Prop :=
  q.retries < p.maxRetries.toNat ∧ ∀ d, proposed = some d → 2 ^ 64 * 10 ^ 9 ≤ q.resumes elapsed d

theorem next_of_spent (h : p.maxRetries.toNat ≤ q.retries) :
    q.next p elapsed proposed = (.stop, q) :=
  if_pos h

theorem next_none (h : q.retries < p.maxRetries.toNat) : q.next p elapsed none = (.overflow, q) :=
  if_neg (Nat.not_le.2 h)

theorem next_some (h : q.retries < p.maxRetries.toNat) (d : Duration) :
    q.next p elapsed (some d) =
      if 2 ^ 64 * 10 ^ 9 ≤ q.resumes elapsed d then (.overflow, q)
      else if p.maxElapsed.nanos < q.resumes elapsed d then (.stop, q)
      else (.wait (max d q.previous), ⟨q.retries + 1, max d q.previous⟩) := by
  rw [next, if_neg (Nat.not_le.2 h)]
  dsimp only
  rw [← resumes, Duration.ofNanos?]
  by_cases ho : 2 ^ 64 * 10 ^ 9 ≤ q.resumes elapsed d
  · rw [dif_neg (Nat.not_lt.2 ho), if_pos ho]
  · rw [dif_pos (Nat.lt_of_not_le ho), if_neg ho]
    by_cases hm : p.maxElapsed.nanos < q.resumes elapsed d
    · rw [if_pos hm]
      exact if_neg (Nat.not_le.2 hm)
    · rw [if_neg hm]
      exact if_pos (Nat.le_of_not_lt hm)

theorem exhausted_of_next {s : Schedule} (h : q.next p elapsed proposed = (.stop, s)) :
    q.Exhausted p elapsed proposed := by
  by_cases hr : q.retries < p.maxRetries.toNat
  · cases proposed with
    | none =>
      rw [next_none hr] at h
      cases h
    | some d =>
      rw [next_some hr] at h
      split at h
      · cases h
      · rename_i ho
        split at h
        · exact .inr ⟨d, rfl, ‹_›, Nat.lt_of_not_le ho⟩
        · cases h
  · exact .inl (Nat.le_of_not_lt hr)

theorem overruns_of_next {s : Schedule} (h : q.next p elapsed proposed = (.overflow, s)) :
    q.Overruns p elapsed proposed := by
  by_cases hr : q.retries < p.maxRetries.toNat
  · refine ⟨hr, fun d hd => ?_⟩
    subst hd
    rw [next_some hr] at h
    split at h
    · assumption
    · split at h <;> cases h
  · rw [next_of_spent (Nat.le_of_not_lt hr)] at h
    cases h

/-- A delay that is granted: as long as the one before and as the one that was proposed. -/
structure Granted (p : RetryPolicy) (q : Schedule) (proposed : Option Duration) (d : Duration)
    (q' : Schedule) : Prop where
  left : q.retries < p.maxRetries.toNat
  schedule : q' = ⟨q.retries + 1, d⟩
  inTime : d.nanos ≤ p.maxElapsed.nanos
  proposed : ∀ d', proposed = some d' → d'.nanos ≤ d.nanos

theorem wait_of_next {d : Duration} (h : q.next p elapsed proposed = (.wait d, q')) :
    q.retries < p.maxRetries.toNat ∧ q' = ⟨q.retries + 1, d⟩ ∧
      elapsed + d.nanos ≤ p.maxElapsed.nanos ∧
      ∃ d', proposed = some d' ∧ d = max d' q.previous := by
  by_cases hr : q.retries < p.maxRetries.toNat
  · cases proposed with
    | none =>
      rw [next_none hr] at h
      cases h
    | some d' =>
      rw [next_some hr] at h
      split at h
      · cases h
      · split at h
        · cases h
        · rename_i hm
          cases h
          exact ⟨hr, rfl, Nat.le_of_not_lt hm, d', rfl, rfl⟩
  · rw [next_of_spent (Nat.le_of_not_lt hr)] at h
    cases h

theorem granted_of_next {d : Duration} (h : q.next p elapsed proposed = (.wait d, q')) :
    q.Granted p proposed d q' := by
  obtain ⟨hr, hq, htime, d', rfl, rfl⟩ := wait_of_next h
  refine ⟨hr, hq, by omega, fun d hd => ?_⟩
  cases hd
  rw [Duration.max_nanos]
  exact Nat.le_max_left _ _

end Schedule

namespace World

variable {σ : Type}

/-- What was drawn in a run is what chance brings. -/
theorem Runs.chance {α : Type} {w w' : World σ} {p : Program α} {h : List Event} {a : α}
    (H : w.Runs p h a w') {P : Binary64 → Prop} (hP : ∀ n, P (w.chance n)) :
    ∀ x ∈ h.filterMap Event.sample?, P x := by
  induction H with
  | done w a => exact List.forall_mem_nil _
  | @ask w v w' e k x h a hx H ih =>
    have hrest : ∀ x ∈ h.filterMap Event.sample?, P x := ih (by rwa [(later_answer? hx).chance])
    cases e with
    | sample =>
      rw [answer?_sample] at hx
      cases hx
      exact List.forall_mem_cons.2 ⟨hP _, hrest⟩
    | _ => exact hrest

/-- Nothing but looks at the clocks and at what chance brings. -/
def Idle (h : List Event) : Prop :=
  ∀ e ∈ h, e.effect = .clock ∨ e.effect = .timeOfDay ∨ e.effect = .sample

theorem idle_nil : Idle [] :=
  List.forall_mem_nil _

theorem Idle.append {h₁ h₂ : List Event} (H₁ : Idle h₁) (H₂ : Idle h₂) : Idle (h₁ ++ h₂) :=
  List.forall_mem_append.2 ⟨H₁, H₂⟩

/-- What holds of all looks at the clocks and at chance. -/
theorem Idle.forall_mem {P : Event → Prop} {h : List Event} (H : Idle h)
    (hclock : ∀ x t u, P ⟨.clock, x, t, u⟩) (htime : ∀ x t u, P ⟨.timeOfDay, x, t, u⟩)
    (hsample : ∀ x t u, P ⟨.sample, x, t, u⟩) : ∀ e ∈ h, P e := by
  intro e he
  obtain ⟨effect, x, began, ended⟩ := e
  obtain rfl | rfl | rfl := H _ he
  · exact hclock x began ended
  · exact htime x began ended
  · exact hsample x began ended

/-- What no look at the clocks or at chance contributes to is not there. -/
theorem Idle.filterMap_eq_nil {β : Type} {f : Event → Option β} {h : List Event} (H : Idle h)
    (hclock : ∀ x t u, f ⟨.clock, x, t, u⟩ = none)
    (htime : ∀ x t u, f ⟨.timeOfDay, x, t, u⟩ = none)
    (hsample : ∀ x t u, f ⟨.sample, x, t, u⟩ = none) : h.filterMap f = [] :=
  List.filterMap_eq_nil_iff.2 (H.forall_mem hclock htime hsample)

/-- What is looked for in a history is not found among looks. -/
theorem Idle.findSome?_append {β : Type} {f : Event → Option β} {h₁ : List Event} (H : Idle h₁)
    (hclock : ∀ x t u, f ⟨.clock, x, t, u⟩ = none)
    (htime : ∀ x t u, f ⟨.timeOfDay, x, t, u⟩ = none)
    (hsample : ∀ x t u, f ⟨.sample, x, t, u⟩ = none) (h₂ : List Event) :
    (h₁ ++ h₂).findSome? f = h₂.findSome? f := by
  have hnone : h₁.findSome? f = none :=
    List.findSome?_eq_none_iff.2 (H.forall_mem hclock htime hsample)
  rw [List.findSome?_append, hnone, Option.none_or]

/-- The second world is the first one after looks at the clocks and at chance. -/
inductive Looked (w : World σ) (h : List Event) : World σ → Prop where
  | intro (drawn : Nat) : Idle h → Looked w h { w with drawn }

theorem Looked.idle {w v : World σ} {h : List Event} (H : w.Looked h v) : Idle h := by
  cases H with
  | intro _ hidle => exact hidle

theorem Looked.later {w v : World σ} {h : List Event} (H : w.Looked h v) : w.Later v := by
  cases H with
  | intro _ _ => exact ⟨rfl, rfl, rfl, rfl, Nat.le_refl _⟩

theorem Looked.now {w v : World σ} {h : List Event} (H : w.Looked h v) : v.now = w.now := by
  cases H with
  | intro _ _ => rfl

theorem Looked.cache {w v : World σ} {h : List Event} (H : w.Looked h v) : v.cache = w.cache := by
  cases H with
  | intro _ _ => rfl

theorem Looked.line {w v : World σ} {h : List Event} (H : w.Looked h v) : v.line = w.line := by
  cases H with
  | intro _ _ => rfl

theorem looked_nil (w : World σ) : w.Looked [] w :=
  .intro w.drawn idle_nil

/-- What a repetition is asked for with is known from all that has happened so far. -/
theorem runs_ask {p : RetryPolicy} {q : Schedule} {started : Nat} {hint : Option Duration}
    {w w' : World σ} {h : List Event} {r : Verdict × Schedule}
    (H : w.Runs (q.ask p started hint) h r w') (past : List Event) :
    w.Looked h w' ∧ r = q.next p (w.now - started) (q.proposal p (past ++ h) hint) := by
  cases hint with
  | some d =>
    obtain ⟨x, v, h', hx, rfl, H'⟩ := runs_ask_iff.1 H
    rw [answer?_clock] at hx
    cases hx
    obtain ⟨rfl, rfl, rfl⟩ := runs_done_iff.1 H'
    exact ⟨.intro w'.drawn (by simp [Idle]), rfl⟩
  | none =>
    obtain ⟨x, v, h', hx, rfl, H'⟩ := runs_ask_iff.1 H
    rw [answer?_sample] at hx
    cases hx
    obtain ⟨x, v, h'', hx, rfl, H''⟩ := runs_ask_iff.1 H'
    rw [answer?_clock] at hx
    cases hx
    obtain ⟨rfl, rfl, rfl⟩ := runs_done_iff.1 H''
    refine ⟨.intro _ (by simp [Idle]), ?_⟩
    rw [Schedule.proposal, Event.lastSample_drawn]

variable {α β : Type}

/-- `I` holds before every round, of all that has happened so far, and `Q` at the end. -/
structure Rounds (p : RetryPolicy) (again : β → Error → Bool)
    (attempt : β → Program (Except Failure α × β)) (started : Nat)
    (I : List Event → World σ → Schedule → β → Prop)
    (Q : List Event → World σ → Except Failure α × β → Prop) : Prop where
  settled {past h : List Event} {v v' : World σ} {q : Schedule} {x y : β}
    {result : Except Failure α} :
    I past v q x → v.Runs (attempt x) h (result, y) v' →
    (∀ e, result = .error (.error e) → again y e = false) → Q (past ++ h) v' (result, y)
  stop {past h h' : List Event} {v v' u : World σ} {q s : Schedule} {x y : β} {e : Error} :
    I past v q x → v.Runs (attempt x) h (.error (.error e), y) v' → again y e = true →
    v'.Looked h' u →
    q.next p (v'.now - started) (q.proposal p (past ++ h ++ h') e.wait?) = (.stop, s) →
    Q (past ++ h ++ h') u (.error (.error e), y)
  overflow {past h h' : List Event} {v v' u : World σ} {q s : Schedule} {x y : β} {e : Error} :
    I past v q x → v.Runs (attempt x) h (.error (.error e), y) v' → again y e = true →
    v'.Looked h' u →
    q.next p (v'.now - started) (q.proposal p (past ++ h ++ h') e.wait?) = (.overflow, s) →
    Q (past ++ h ++ h') u (.error .overflow, y)
  wait {past h h' : List Event} {v v' u t : World σ} {q q' : Schedule} {x y : β} {e : Error}
    {d : Duration} :
    I past v q x → v.Runs (attempt x) h (.error (.error e), y) v' → again y e = true →
    v'.Looked h' u →
    q.next p (v'.now - started) (q.proposal p (past ++ h ++ h') e.wait?) = (.wait d, q') →
    u.answer? (.sleep d) = some ((), t) →
    I (past ++ h ++ h' ++ [⟨.sleep d, (), v'.now, t.now⟩]) t q' y

variable {p : RetryPolicy} {again : β → Error → Bool}
  {attempt : β → Program (Except Failure α × β)} {started : Nat}
  {I : List Event → World σ → Schedule → β → Prop}
  {Q : List Event → World σ → Except Failure α × β → Prop}

/-- Where it does not matter why a round is the last one. -/
theorem Rounds.of_ends {Q : List Event → World σ → Prop}
    (ends : ∀ {past h h' : List Event} {v v' u : World σ} {q : Schedule} {x y : β}
      {result : Except Failure α}, I past v q x → v.Runs (attempt x) h (result, y) v' →
      v'.Looked h' u → Q (past ++ h ++ h') u)
    (wait : ∀ {past h h' : List Event} {v v' u t : World σ} {q q' : Schedule} {x y : β} {e : Error}
      {d : Duration}, I past v q x → v.Runs (attempt x) h (.error (.error e), y) v' →
      again y e = true → v'.Looked h' u →
      q.next p (v'.now - started) (q.proposal p (past ++ h ++ h') e.wait?) = (.wait d, q') →
      u.answer? (.sleep d) = some ((), t) →
      I (past ++ h ++ h' ++ [⟨.sleep d, (), v'.now, t.now⟩]) t q' y) :
    Rounds p again attempt started I fun h v _ => Q h v := by
  refine ⟨fun hI H _ => ?_, fun hI H _ hlook _ => ends hI H hlook,
    fun hI H _ hlook _ => ends hI H hlook, wait⟩
  have hend := ends hI H (looked_nil _)
  rwa [List.append_nil] at hend

/-- The repetitions that are left and those that were made add up to what the policy allows. -/
theorem Rounds.repeatFrom (R : Rounds p again attempt started I Q) {left : Nat}
    {past h : List Event} {v w' : World σ} {q : Schedule} {x : β} {r : Except Failure α × β}
    (hI : I past v q x) (hq : q.retries + left = p.maxRetries.toNat)
    (H : v.Runs (Program.repeatFrom p again attempt started left q x) h r w') :
    Q (past ++ h) w' r := by
  induction left generalizing past h v q x with
  | zero =>
    obtain ⟨result, y⟩ := r
    by_cases hr : ∃ e, result = .error (.error e) ∧ again y e = true
    · -- the schedule is not asked in the last round, but it would say the same
      obtain ⟨e, rfl, he⟩ := hr
      have hQ := R.stop hI H he (looked_nil w')
        (Schedule.next_of_spent (Nat.le_of_eq hq.symm))
      rwa [List.append_nil] at hQ
    · refine R.settled hI H fun e he => ?_
      exact Bool.eq_false_iff.2 fun ha => hr ⟨e, he, ha⟩
  | succ left ih =>
    rw [Program.repeatFrom, runs_bind_iff] at H
    obtain ⟨⟨result, y⟩, v', h₁, h₂, rfl, H₁, H₂⟩ := H
    by_cases hr : ∃ e, result = .error (.error e) ∧ again y e = true
    · obtain ⟨e, rfl, he⟩ := hr
      dsimp only at H₂
      rw [if_pos he, runs_bind_iff] at H₂
      obtain ⟨⟨verdict, q'⟩, u, h₃, h₄, rfl, H₃, H₄⟩ := H₂
      obtain ⟨hlook, hnext⟩ := runs_ask H₃ (past ++ h₁)
      cases verdict with
      | stop =>
        obtain ⟨rfl, rfl, rfl⟩ := runs_done_iff.1 H₄
        rw [List.append_nil, ← List.append_assoc]
        exact R.stop hI H₁ he hlook hnext.symm
      | overflow =>
        obtain ⟨rfl, rfl, rfl⟩ := runs_done_iff.1 H₄
        rw [List.append_nil, ← List.append_assoc]
        exact R.overflow hI H₁ he hlook hnext.symm
      | wait d =>
        obtain ⟨_, t, h₅, hd, rfl, H₅⟩ := runs_ask_iff.1 H₄
        have hI' := R.wait hI H₁ he hlook hnext.symm hd
        rw [← hlook.now] at hI'
        obtain rfl := (Schedule.granted_of_next hnext.symm).schedule
        have hQ := ih hI' (by simp only; omega) H₅
        simpa only [List.append_assoc, List.cons_append, List.nil_append] using hQ
    · have hsettled : Q (past ++ h₁) v' (result, y) :=
        R.settled hI H₁ fun e he => Bool.eq_false_iff.2 fun ha => hr ⟨e, he, ha⟩
      -- whatever the result is, it stands
      have hdone : v'.Runs (.done (result, y)) h₂ r w' := by
        match result, H₂ with
        | .ok _, H₂ => exact H₂
        | .error .overflow, H₂ => exact H₂
        | .error (.error e), H₂ =>
          dsimp only at H₂
          rwa [if_neg fun ha => hr ⟨e, rfl, ha⟩] at H₂
      obtain ⟨rfl, rfl, rfl⟩ := runs_done_iff.1 hdone
      rwa [List.append_nil]

theorem Rounds.repeating {w w' : World σ} (R : Rounds p again attempt w.now I Q) {h : List Event}
    {x : β} {r : Except Failure α × β} (hI : I [⟨.clock, w.now, w.now, w.now⟩] w {} x)
    (H : w.Runs (Program.repeating p again attempt x) h r w') : Q h w' r := by
  obtain ⟨_, v, h', hx, rfl, H'⟩ := runs_ask_iff.1 H
  rw [answer?_clock] at hx
  cases hx
  exact R.repeatFrom hI (Nat.zero_add _) H'

/-- Attempts that keep no state are repeated like those that do. -/
theorem runs_retrying {again : Error → Bool} {attempt : Program (Except Failure α)} {w w' : World σ}
    {h : List Event} {r : Except Failure α} (H : w.Runs (Program.retrying p again attempt) h r w') :
    w.Runs (Program.repeating p (fun () => again) (fun () => do return (← attempt, ())) ()) h
      (r, ()) w' := by
  obtain ⟨⟨result, _⟩, v, h₁, h₂, rfl, H₁, H₂⟩ := runs_bind_iff.1 H
  obtain ⟨rfl, rfl, rfl⟩ := runs_done_iff.1 H₂
  rwa [List.append_nil]

end World

end CloudClient
