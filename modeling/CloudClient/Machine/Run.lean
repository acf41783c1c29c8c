import CloudClient.Machine.Task

/-!
Several tasks in one world. They take turns in order; when all have to wait, the clock moves on to
the first time at which one of them may go on. There every task has one more turn before the limits
that fall on that time are in force.
-/

namespace CloudClient

structure Machine (σ α : Type) where
  tasks : List (Task α)
  world : World σ
  /-- Limits are in force up to this time. -/
  inForce : Nat

namespace Machine

variable {σ α : Type}

/-- Starts programs in order, each with its limit. -/
def launch (first : Nat) : List (Option Nat × Program α) → World σ → Machine σ α
  | [], w => ⟨[], w, w.now⟩
  | (limit, p) :: rest, w =>
    let (t, w) := Task.launch first limit p w
    let m := launch (first + 1) rest w
    { m with tasks := t :: m.tasks }

/-- Lets every task go on once, in order; `none` when none can. -/
def roundFrom (first inForce : Nat) : List (Task α) → World σ → Option (List (Task α) × World σ)
  | [], _ => none
  | t :: rest, w =>
    match t.poll? first inForce w with
    | some (t, w) =>
      match roundFrom (first + 1) inForce rest w with
      | some (rest, w) => some (t :: rest, w)
      | none => some (t :: rest, w)
    | none => (roundFrom (first + 1) inForce rest w).map fun (rest, w) => (t :: rest, w)

/-- A turn for every task under the limits in force, or else under all limits up to now. -/
def round (m : Machine σ α) : Option (Machine σ α) :=
  ((roundFrom 0 m.inForce m.tasks m.world).or (roundFrom 0 m.world.now m.tasks m.world)).map
    fun (tasks, world) => ⟨tasks, world, m.world.now⟩

/-- The next time at which a task may go on. -/
def nextAlarm (m : Machine σ α) : Option Nat :=
  (m.tasks.flatMap (·.alarms m.world)).min?

/-- A round, at once or when the next alarm goes off. -/
def turn (m : Machine σ α) : Option (Machine σ α) :=
  match m.round with
  | some m => some m
  | none =>
    match m.nextAlarm with
    | some t => round { m with world := { m.world with now := t } }
    | none => none

/-! ### Runs come to an end -/

/-- The first list is the second one with some task further on. -/
inductive Further : List (Task α) → List (Task α) → Prop where
  | head {t t' : Task α} {ts ts' : List (Task α)} :
      Task.Rest t'.rest t.rest → ts'.length = ts.length → Further (t' :: ts') (t :: ts)
  | tail (t : Task α) {ts ts' : List (Task α)} : Further ts' ts → Further (t :: ts') (t :: ts)

theorem further_length {ts ts' : List (Task α)} (h : Further ts' ts) : ts'.length = ts.length := by
  induction h with
  | head _ h => simp [h]
  | tail _ _ ih => simp [ih]

theorem acc_cons {n : Nat} (ih : ∀ ts : List (Task α), ts.length = n → Acc Further ts)
    {p : Program (Option α)} (hp : Acc Task.Rest p) :
    ∀ (t : Task α) (ts : List (Task α)), t.rest = p → ts.length = n → Acc Further (t :: ts) := by
  induction hp with
  | intro p _ step =>
    intro t ts ht hl
    have hts := ih ts hl
    induction hts with
    | intro ts _ inner =>
      constructor
      intro us h
      cases h with
      | head hr hlen => exact step _ (ht ▸ hr) _ _ rfl (hlen.trans hl)
      | tail _ h => exact inner _ h ((further_length h).trans hl)

theorem acc_further (ts : List (Task α)) : Acc Further ts := by
  generalize hn : ts.length = n
  induction n generalizing ts with
  | zero =>
    obtain rfl := List.length_eq_zero_iff.1 hn
    exact ⟨_, fun _ h => nomatch h⟩
  | succ n ih =>
    match ts, hn with
    | t :: ts, hn => exact acc_cons ih (Task.acc_rest t.rest) t ts rfl (Nat.succ.inj hn)

instance : WellFoundedRelation (Machine σ α) :=
  invImage Machine.tasks ⟨Further, ⟨acc_further⟩⟩

theorem roundFrom_further {first inForce : Nat} {ts ts' : List (Task α)} {w w' : World σ}
    (h : roundFrom first inForce ts w = some (ts', w')) : Further ts' ts := by
  induction ts generalizing first w ts' w' with
  | nil => contradiction
  | cons t rest ih =>
    simp only [roundFrom] at h
    split at h
    · rename_i t1 w1 hp
      split at h
      · rename_i ts2 w2 hr
        cases h
        exact .head (Task.poll?_rest hp) (further_length (ih hr))
      · cases h
        exact .head (Task.poll?_rest hp) rfl
    · obtain ⟨⟨ts2, w2⟩, hr, he⟩ := Option.map_eq_some_iff.1 h
      cases he
      exact .tail t (ih hr)

theorem round_further {m m' : Machine σ α} (h : m.round = some m') : Further m'.tasks m.tasks := by
  obtain ⟨⟨ts, w⟩, hr, he⟩ := Option.map_eq_some_iff.1 h
  cases he
  rcases Option.or_eq_some_iff.1 hr with h | ⟨_, h⟩
  · exact roundFrom_further h
  · exact roundFrom_further h

theorem turn_further {m m' : Machine σ α} (h : m.turn = some m') : Further m'.tasks m.tasks := by
  unfold turn at h
  split at h
  · rename_i hr
    cases h
    exact round_further hr
  · split at h
    · exact (round_further h :)
    · contradiction

/-- Goes on until no task can: each is over, or waits for what will never come. -/
def run (m : Machine σ α) : Machine σ α :=
  match _h : m.turn with
  | some m' => run m'
  | none => m
termination_by m
decreasing_by exact turn_further _h

theorem run_of_turn {m m' : Machine σ α} (h : m.turn = some m') : m.run = m'.run := by
  rw [run]
  split <;> simp_all

theorem run_of_stuck {m : Machine σ α} (h : m.turn = none) : m.run = m := by
  rw [run]
  split <;> simp_all

end Machine

namespace World

variable {σ α : Type}

/-- Runs programs side by side, each with the time after which it is cancelled; the results of those
that are not, in order, and the world afterwards. -/
def runAll (w : World σ) (programs : List (Option Duration × Program α)) :
    List (Option α) × World σ :=
  let started := Machine.launch 0 (programs.map fun (limit, p) => (limit.map w.after, p)) w
  let ended := started.run
  (ended.tasks.map Task.result?, ended.world)

end World

end CloudClient
