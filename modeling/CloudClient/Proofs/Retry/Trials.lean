import CloudClient.Proofs.Retry.Delays

/-!
The attempts of a call told one by one, without the program that makes them: where each begins, what
comes of it, and where the next one begins if the schedule grants a delay. Repeating an attempt is
to make these attempts, up to the first after which no delay is granted, and nothing else; what
comes of that one is what comes of the call.
-/

namespace CloudClient

namespace World

variable {σ : Type}

/-- The world when a wait is over. -/
def rested (w : World σ) (d : Duration) : World σ :=
  { w with now := max w.now (w.after d) }

/-- A wait is over at the first whole millisecond from its end on. -/
theorem rested_now_le (w : World σ) (d : Duration) :
    (w.rested d).now ≤ Timer.tick (w.now + d.nanos) := by
  have hafter : w.after d ≤ Timer.tick (w.now + d.nanos) := w.timer.stop_le w.now d
  have hnow : w.now ≤ Timer.tick (w.now + d.nanos) :=
    Nat.le_trans (Nat.le_add_right _ _) (Timer.le_tick _)
  exact Nat.max_le.2 ⟨hnow, hafter⟩

end World

/-! ### The attempts -/

/-- Where an attempt begins: with what the attempts before it have left. -/
structure Stage (σ β : Type) where
  schedule : Schedule
  given : β
  world : World σ

/-- An attempt, and what has come of it. -/
structure Trial (σ α β : Type) where
  stage : Stage σ β
  result : Except Failure α
  left : β
  ended : World σ

/-- What is attempted under a policy from a time on. -/
structure Endeavour (α β : Type) where
  policy : RetryPolicy
  again : β → Error → Bool
  attempt : β → Program (Except Failure α × β)
  started : Nat

namespace Endeavour

variable {σ α β : Type} (n : Endeavour α β)

/-- The attempt that begins here, if it comes to an end. -/
def run? (g : Stage σ β) : Option (Trial σ α β) :=
  match g.world.solo none (n.attempt g.given) with
  | (some (result, left), w) => some ⟨g, result, left, w⟩
  | (none, _) => none

/-- An error that is reason to try again. -/
def accepted? (t : Trial σ α β) : Option Error :=
  match t.result with
  | .error (.error e) => if n.again t.left e then some e else none
  | _ => none

/-- What the schedule says after an error at the end of an attempt. -/
def verdict (t : Trial σ α β) (e : Error) : Verdict × Schedule :=
  t.stage.schedule.answer n.policy (.at n.policy t.stage.schedule t.ended n.started e.wait?)

/-- The world when the schedule has been asked after an attempt, if it is: after an error that is
reason to try again, as long as repetitions are left. -/
def after (t : Trial σ α β) : World σ :=
  match n.accepted? t with
  | some e =>
    if t.stage.schedule.retries < n.policy.maxRetries.toNat then t.ended.asked e.wait? else t.ended
  | none => t.ended

/-- The delay that is granted after an attempt. -/
def granted? (t : Trial σ α β) : Option (Duration × Schedule) :=
  (n.accepted? t).bind fun e =>
    match n.verdict t e with
    | (.wait d, q) => some (d, q)
    | _ => none

/-- Where the next attempt begins, if a delay is granted. -/
def next? (t : Trial σ α β) : Option (Stage σ β) :=
  (n.granted? t).map fun (d, q) => ⟨q, t.left, (n.after t).rested d⟩

/-- The attempt with an index, counted from a stage on. -/
def trial? : Nat → Stage σ β → Option (Trial σ α β)
  | 0, g => n.run? g
  | i + 1, g => ((n.run? g).bind n.next?).bind (trial? i)

/-- What comes of it all if this attempt is the last one. -/
def conclusion (t : Trial σ α β) : Except Failure α :=
  match n.accepted? t with
  | some e => if (n.verdict t e).1 = .overflow then .error .overflow else t.result
  | none => t.result

/-- What is looked at to ask the schedule. -/
def looks (t : Trial σ α β) : List Event :=
  match n.accepted? t with
  | some e =>
    if t.stage.schedule.retries < n.policy.maxRetries.toNat then Schedule.looks t.ended e.wait?
    else []
  | none => []

/-- The one wait after an attempt that is repeated. -/
def pause (t : Trial σ α β) : List Event :=
  (n.granted? t).toList.map fun (d, _) => ⟨.sleep d, (), t.ended.now, ((n.after t).rested d).now⟩

/-- All that happens from the beginning of an attempt to that of the next one. -/
def events (t : Trial σ α β) : List Event :=
  t.stage.world.history (n.attempt t.stage.given) ++ (n.looks t ++ n.pause t)

/-- An attempt that failed for a reason to try again, and after which a delay was granted. -/
def Repeated (t : Trial σ α β) : Prop :=
  ∃ e d q, t.result = .error (.error e) ∧ n.again t.left e = true ∧ n.verdict t e = (.wait d, q)

/-- The attempt with index `k` is the first one that is not repeated. -/
structure Concludes (g : Stage σ β) (k : Nat) (last : Trial σ α β) : Prop where
  trial : n.trial? k g = some last
  final : n.granted? last = none
  earlier : ∀ i < k, ∃ t, n.trial? i g = some t ∧ n.Repeated t

/-- Every attempt comes to an end, and gives the cache back that it took. -/
def Ends (attempt : β → Program (Except Failure α × β)) (σ : Type) : Prop :=
  ∀ (x : β) (w : World σ), w.line = [] →
    ∃ r v, w.solo none (attempt x) = (some r, v) ∧ v.line = []

/-- A number in the state that every attempt puts up by one, and so counts the attempts. -/
def Counts (attempt : β → Program (Except Failure α × β)) (σ : Type) (count : β → Nat) : Prop :=
  ∀ (x : β) (w v : World σ) (r : Except Failure α × β), w.solo none (attempt x) = (some r, v) →
    count r.2 = count x + 1

variable {n} {g g' : Stage σ β} {t last : Trial σ α β} {d : Duration} {q : Schedule}

/-! ### One attempt -/

theorem runs_of_run? (h : n.run? g = some t) :
    t.stage = g ∧ g.world.Runs (n.attempt g.given) (g.world.history (n.attempt g.given))
      (t.result, t.left) t.ended := by
  rw [run?] at h
  split at h
  case h_1 result left w hsolo =>
    cases h
    exact ⟨rfl, World.runs_of_solo hsolo⟩
  case h_2 => cases h

theorem accepted?_eq_some_iff {e : Error} :
    n.accepted? t = some e ↔ t.result = .error (.error e) ∧ n.again t.left e = true := by
  rw [accepted?]
  split
  case h_1 e' hresult =>
    rw [hresult]
    by_cases h : n.again t.left e' = true
    · rw [if_pos h]
      simp only [Option.some.injEq, Except.error.injEq, Failure.error.injEq]
      grind
    · rw [if_neg h]
      grind
  case h_2 hother =>
    refine iff_of_false nofun fun h => ?_
    exact hother e h.1

theorem granted?_eq_some_iff : n.granted? t = some (d, q) ↔
    ∃ e, n.accepted? t = some e ∧ n.verdict t e = (.wait d, q) := by
  rw [granted?, Option.bind_eq_some_iff]
  refine exists_congr fun e => and_congr_right fun _ => ?_
  split
  case h_1 d' q' hverdict =>
    rw [hverdict]
    simp
  case h_2 hother =>
    refine iff_of_false nofun fun h => ?_
    exact hother d q h

theorem repeated_of_granted? (h : n.granted? t = some (d, q)) : n.Repeated t := by
  obtain ⟨e, he, hverdict⟩ := granted?_eq_some_iff.1 h
  obtain ⟨hresult, hagain⟩ := accepted?_eq_some_iff.1 he
  exact ⟨e, d, q, hresult, hagain, hverdict⟩

theorem after_of_settled (h : n.accepted? t = none) : n.after t = t.ended := by
  rw [after, h]

theorem after_of_spent (h : n.policy.maxRetries.toNat ≤ t.stage.schedule.retries) :
    n.after t = t.ended := by
  rw [after]
  split
  · exact if_neg (Nat.not_lt.2 h)
  · rfl

theorem after_of_asked {e : Error} (he : n.accepted? t = some e)
    (h : t.stage.schedule.retries < n.policy.maxRetries.toNat) :
    n.after t = t.ended.asked e.wait? := by
  rw [after, he]
  exact if_pos h

/-- To ask the schedule may draw a sample, and does nothing else to the world. -/
theorem exists_after_eq (n : Endeavour α β) (t : Trial σ α β) :
    ∃ drawn, n.after t = { t.ended with drawn } := by
  rw [after]
  split
  · split
    · exact ⟨_, rfl⟩
    · exact ⟨_, rfl⟩
  · exact ⟨_, rfl⟩

theorem after_now (n : Endeavour α β) (t : Trial σ α β) : (n.after t).now = t.ended.now := by
  obtain ⟨drawn, h⟩ := exists_after_eq n t
  rw [h]

theorem after_line (n : Endeavour α β) (t : Trial σ α β) : (n.after t).line = t.ended.line := by
  obtain ⟨drawn, h⟩ := exists_after_eq n t
  rw [h]

/-- Delays are granted only while repetitions are left. -/
theorem left_of_granted? (h : n.granted? t = some (d, q)) :
    t.stage.schedule.retries < n.policy.maxRetries.toNat ∧
      q.retries = t.stage.schedule.retries + 1 ∧
      t.ended.now - n.started + d.nanos ≤ n.policy.maxElapsed.nanos := by
  obtain ⟨e, _, hverdict⟩ := granted?_eq_some_iff.1 h
  obtain ⟨hleft, rfl, htime, _⟩ := Schedule.wait_of_next hverdict
  exact ⟨hleft, rfl, htime⟩

/-- An attempt is the last one where there is no reason to try again. -/
theorem runs_settled {left : Nat} (hrun : n.run? g = some t) (hsettled : n.accepted? t = none) :
    g.world.Runs (Program.repeatFrom n.policy n.again n.attempt n.started left g.schedule g.given)
      (g.world.history (n.attempt g.given)) (t.result, t.left) t.ended := by
  obtain ⟨_, hattempt⟩ := runs_of_run? hrun
  cases left with
  | zero => exact hattempt
  | succ left =>
    rw [Program.repeatFrom, World.runs_bind_iff]
    refine ⟨_, _, _, [], (List.append_nil _).symm, hattempt, ?_⟩
    rw [accepted?] at hsettled
    dsimp only
    split
    case h_1 e hresult =>
      rw [hresult] at hsettled
      dsimp only at hsettled
      split at hsettled
      · cases hsettled
      · rw [if_neg ‹_›]
        exact hresult ▸ .done ..
    case h_2 => exact .done ..

/-- Where there is one, the schedule has the say. -/
theorem runs_asked {left : Nat} {e : Error} {h : List Event} {r : Except Failure α × β}
    {w : World σ} (hrun : n.run? g = some t) (he : n.accepted? t = some e)
    (H : (t.ended.asked e.wait?).Runs (match n.verdict t e with
      | (.stop, _) => .done (t.result, t.left)
      | (.overflow, _) => .done (.error .overflow, t.left)
      | (.wait d, q) => Program.sleep d >>= fun _ =>
        Program.repeatFrom n.policy n.again n.attempt n.started left q t.left) h r w) :
    g.world.Runs
      (Program.repeatFrom n.policy n.again n.attempt n.started (left + 1) g.schedule g.given)
      (g.world.history (n.attempt g.given) ++ (Schedule.looks t.ended e.wait? ++ h)) r w := by
  obtain ⟨rfl, hattempt⟩ := runs_of_run? hrun
  obtain ⟨hresult, hagain⟩ := accepted?_eq_some_iff.1 he
  rw [Program.repeatFrom, World.runs_bind_iff]
  refine ⟨_, _, _, _, rfl, hattempt, ?_⟩
  rw [hresult] at H ⊢
  dsimp only
  rw [if_pos hagain, World.runs_bind_iff]
  refine ⟨_, _, _, _, rfl, Schedule.runs_ask_looks .., ?_⟩
  rw [verdict] at H
  exact H

/-- An attempt that is the last one. -/
theorem runs_last {left : Nat} (hrun : n.run? g = some t) (hfinal : n.granted? t = none)
    (hleft : g.schedule.retries + left = n.policy.maxRetries.toNat) :
    g.world.Runs (Program.repeatFrom n.policy n.again n.attempt n.started left g.schedule g.given)
      (n.events t) (n.conclusion t, t.left) (n.after t) := by
  obtain ⟨rfl, hattempt⟩ := runs_of_run? hrun
  have hpause : n.pause t = [] := by rw [pause, hfinal]; rfl
  cases haccepted : n.accepted? t with
  | none =>
    have hlooks : n.looks t = [] := by rw [looks, haccepted]
    have hconclusion : n.conclusion t = t.result := by rw [conclusion, haccepted]
    rw [events, hlooks, hpause, hconclusion, after_of_settled haccepted, List.append_nil,
      List.append_nil]
    exact runs_settled hrun haccepted
  | some e =>
    cases left with
    | zero =>
      -- the schedule is not asked, but it would say stop
      have hspent : n.policy.maxRetries.toNat ≤ t.stage.schedule.retries := by omega
      have hlooks : n.looks t = [] := by
        rw [looks, haccepted]
        exact if_neg (Nat.not_lt.2 hspent)
      have hconclusion : n.conclusion t = t.result := by
        rw [conclusion, haccepted]
        dsimp only
        rw [verdict, Schedule.answer, Schedule.next_of_spent hspent]
        exact if_neg (show Verdict.stop ≠ .overflow by decide)
      rw [events, hlooks, hpause, hconclusion, after_of_spent hspent, List.append_nil,
        List.append_nil]
      exact hattempt
    | succ left =>
      have hunspent : t.stage.schedule.retries < n.policy.maxRetries.toNat := by omega
      have hlooks : n.looks t = Schedule.looks t.ended e.wait? := by
        rw [looks, haccepted]
        exact if_pos hunspent
      rw [events, hlooks, hpause, after_of_asked haccepted hunspent]
      refine runs_asked hrun haccepted ?_
      rw [conclusion, haccepted]
      dsimp only
      cases hverdict : n.verdict t e with
      | mk verdict q =>
        cases verdict with
        | stop => exact .done ..
        | overflow => exact .done ..
        | wait d =>
          rw [granted?_eq_some_iff.2 ⟨e, haccepted, hverdict⟩] at hfinal
          cases hfinal

/-- An attempt that is followed by others. -/
theorem runs_repeated {left : Nat} {h : List Event} {r : Except Failure α × β} {w : World σ}
    (hrun : n.run? g = some t) (hgranted : n.granted? t = some (d, q))
    (H : ((n.after t).rested d).Runs
      (Program.repeatFrom n.policy n.again n.attempt n.started left q t.left) h r w) :
    g.world.Runs (Program.repeatFrom n.policy n.again n.attempt n.started (left + 1) g.schedule
      g.given) (n.events t ++ h) r w := by
  obtain ⟨rfl, _⟩ := runs_of_run? hrun
  obtain ⟨e, he, hverdict⟩ := granted?_eq_some_iff.1 hgranted
  have hunspent := (left_of_granted? hgranted).1
  have hlooks : n.looks t = Schedule.looks t.ended e.wait? := by
    rw [looks, he]
    exact if_pos hunspent
  have hpause : n.pause t = [⟨.sleep d, (), t.ended.now, ((n.after t).rested d).now⟩] := by
    rw [pause, hgranted]
    rfl
  rw [events, hlooks, hpause, List.append_assoc, List.append_assoc]
  refine runs_asked hrun he ?_
  rw [hverdict, ← after_of_asked he hunspent, ← after_now n t]
  exact .ask ((n.after t).answer?_sleep d) H

/-! ### All attempts -/

theorem trial?_succ (h : n.run? g = some t) (hnext : n.next? t = some g') (i : Nat) :
    n.trial? (i + 1) g = n.trial? i g' := by
  rw [trial?, h, Option.bind_some, hnext, Option.bind_some]

/-- All that happens in the attempts with the first indices. -/
def eventsUpTo (n : Endeavour α β) (g : Stage σ β) (k : Nat) : List Event :=
  (List.range (k + 1)).flatMap fun i => (n.trial? i g).elim [] n.events

theorem eventsUpTo_zero (h : n.run? g = some t) : n.eventsUpTo g 0 = n.events t := by
  rw [eventsUpTo, List.range_one, List.flatMap_singleton, trial?, h]
  rfl

theorem eventsUpTo_succ (h : n.run? g = some t) (hnext : n.next? t = some g') (k : Nat) :
    n.eventsUpTo g (k + 1) = n.events t ++ n.eventsUpTo g' k := by
  rw [eventsUpTo, List.range_succ_eq_map, List.flatMap_cons, List.flatMap_map, trial?, h]
  simp only [trial?_succ h hnext]
  rfl

theorem exists_run? (hends : Ends n.attempt σ) (hline : g.world.line = []) :
    ∃ t, n.run? g = some t ∧ t.ended.line = [] := by
  obtain ⟨⟨result, left⟩, v, hsolo, hv⟩ := hends g.given g.world hline
  exact ⟨⟨g, result, left, v⟩, by rw [run?, hsolo], hv⟩

theorem concludes_at_once {left : Nat} (hrun : n.run? g = some t) (hfinal : n.granted? t = none)
    (hleft : g.schedule.retries + left = n.policy.maxRetries.toNat) :
    ∃ k last, k ≤ left ∧ n.Concludes g k last ∧
      g.world.Runs (Program.repeatFrom n.policy n.again n.attempt n.started left g.schedule g.given)
        (n.eventsUpTo g k) (n.conclusion last, last.left) (n.after last) := by
  refine ⟨0, t, Nat.zero_le _, ⟨hrun, hfinal, nofun⟩, ?_⟩
  rw [eventsUpTo_zero hrun]
  exact runs_last hrun hfinal hleft

/-- The repetitions that are left suffice to come to an attempt that is the last one. -/
theorem exists_concludes (hends : Ends n.attempt σ) {left : Nat} (hline : g.world.line = [])
    (hleft : g.schedule.retries + left = n.policy.maxRetries.toNat) :
    ∃ k last, k ≤ left ∧ n.Concludes g k last ∧
      g.world.Runs (Program.repeatFrom n.policy n.again n.attempt n.started left g.schedule g.given)
        (n.eventsUpTo g k) (n.conclusion last, last.left) (n.after last) := by
  induction left generalizing g with
  | zero =>
    obtain ⟨t, hrun, _⟩ := exists_run? hends hline
    refine concludes_at_once hrun ?_ hleft
    cases hgranted : n.granted? t with
    | none => rfl
    | some grant =>
      have hretries := (left_of_granted? hgranted).1
      obtain ⟨rfl, _⟩ := runs_of_run? hrun
      omega
  | succ left ih =>
    obtain ⟨t, hrun, hfree⟩ := exists_run? hends hline
    cases hgranted : n.granted? t with
    | none => exact concludes_at_once hrun hgranted hleft
    | some grant =>
      obtain ⟨rfl, _⟩ := runs_of_run? hrun
      obtain ⟨d, q⟩ := grant
      have hnext : n.next? t = some ⟨q, t.left, (n.after t).rested d⟩ := by
        rw [next?, hgranted]
        rfl
      obtain ⟨_, hretries, _⟩ := left_of_granted? hgranted
      have hrested : ((n.after t).rested d).line = [] := (after_line n t).trans hfree
      obtain ⟨k, last, hk, hlast, hruns⟩ := ih (g := ⟨q, t.left, (n.after t).rested d⟩) hrested
        (by dsimp only; omega)
      refine ⟨k + 1, last, Nat.succ_le_succ hk, ⟨?_, hlast.final, fun i hi => ?_⟩, ?_⟩
      · rw [trial?_succ hrun hnext]
        exact hlast.trial
      · cases i with
        | zero => exact ⟨t, hrun, repeated_of_granted? hgranted⟩
        | succ i =>
          rw [trial?_succ hrun hnext]
          exact hlast.earlier i (Nat.lt_of_succ_lt_succ hi)
      · rw [eventsUpTo_succ hrun hnext]
        exact runs_repeated hrun hgranted hruns

theorem count_left {count : β → Nat} (hcount : Counts n.attempt σ count) {i : Nat}
    (h : n.trial? i g = some t) : count t.left = count g.given + (i + 1) := by
  have hrun {g : Stage σ β} {t : Trial σ α β} (h : n.run? g = some t) :
      count t.left = count g.given + 1 :=
    hcount _ _ _ _ (runs_of_run? h).2.solo_eq
  induction i generalizing g with
  | zero => exact hrun h
  | succ i ih =>
    obtain ⟨g', hnext, h⟩ := Option.bind_eq_some_iff.1 h
    obtain ⟨t', h', hnext⟩ := Option.bind_eq_some_iff.1 hnext
    obtain ⟨_, _, rfl⟩ := Option.map_eq_some_iff.1 hnext
    rw [ih h, hrun h', Nat.add_assoc, Nat.add_comm 1]

/-! ### When attempts begin -/

theorem ended_of_trial? {i : Nat} (hg : n.started ≤ g.world.now) (h : n.trial? i g = some t) :
    n.started ≤ t.ended.now := by
  have hrun {g : Stage σ β} {t : Trial σ α β} (hg : n.started ≤ g.world.now)
      (h : n.run? g = some t) : n.started ≤ t.ended.now :=
    Nat.le_trans hg (runs_of_run? h).2.later.now
  induction i generalizing g with
  | zero => exact hrun hg h
  | succ i ih =>
    obtain ⟨g', hnext, h⟩ := Option.bind_eq_some_iff.1 h
    obtain ⟨t', h', hnext⟩ := Option.bind_eq_some_iff.1 hnext
    refine ih ?_ h
    obtain ⟨⟨d, q⟩, _, rfl⟩ := Option.map_eq_some_iff.1 hnext
    refine Nat.le_trans (hrun hg h') ?_
    rw [← after_now n t']
    exact Nat.le_max_left _ _

/-- An attempt with an index begins where the one before it has led. -/
theorem exists_previous {i : Nat} (h : n.trial? (i + 1) g = some t) :
    ∃ t', n.trial? i g = some t' ∧ n.next? t' = some t.stage := by
  induction i generalizing g with
  | zero =>
    obtain ⟨g', hnext, h⟩ := Option.bind_eq_some_iff.1 h
    obtain ⟨t', hrun, hnext⟩ := Option.bind_eq_some_iff.1 hnext
    obtain ⟨rfl, _⟩ := runs_of_run? h
    exact ⟨t', hrun, hnext⟩
  | succ i ih =>
    obtain ⟨g', hnext, h⟩ := Option.bind_eq_some_iff.1 h
    obtain ⟨t', ht', hstage⟩ := ih h
    refine ⟨t', ?_, hstage⟩
    rw [trial?, hnext, Option.bind_some]
    exact ht'

/-- No attempt but the first begins later than the time of the policy is over, but for the timer. -/
theorem stage_now_le {i : Nat} (hg : n.started ≤ g.world.now) (h : n.trial? (i + 1) g = some t) :
    t.stage.world.now ≤ Timer.tick (n.started + n.policy.maxElapsed.nanos) := by
  obtain ⟨t', h', hnext⟩ := exists_previous h
  obtain ⟨⟨d, q⟩, hgranted, hstage⟩ := Option.map_eq_some_iff.1 hnext
  have hstarted : n.started ≤ t'.ended.now := ended_of_trial? hg h'
  have htime : t'.ended.now - n.started + d.nanos ≤ n.policy.maxElapsed.nanos :=
    (left_of_granted? hgranted).2.2
  have hrested := (n.after t').rested_now_le d
  rw [after_now] at hrested
  rw [← hstage]
  exact Nat.le_trans hrested (Timer.tick_le_tick (by omega))

end Endeavour

/-- Repeating an attempt under a policy is to make the attempts that are told one by one: up to the
first that is not repeated, which comes among those that the policy allows, with nothing in between
but one wait after each, and with what comes of the last one as the result. No attempt but the first
begins later than the timer's first tick from the end of the policy's time on. -/
theorem repeating_concludes {σ α β : Type} (p : RetryPolicy) (again : β → Error → Bool)
    (attempt : β → Program (Except Failure α × β)) (hends : Endeavour.Ends attempt σ) (w : World σ)
    (hline : w.line = []) (x : β) :
    let n : Endeavour α β := ⟨p, again, attempt, w.now⟩
    let g : Stage σ β := ⟨{}, x, w⟩
    ∃ k last, k ≤ p.maxRetries.toNat ∧ n.Concludes g k last ∧
      w.solo none (Program.repeating p again attempt x) =
        (some (n.conclusion last, last.left), n.after last) ∧
      w.history (Program.repeating p again attempt x) =
        ⟨.clock, w.now, w.now, w.now⟩ :: n.eventsUpTo g k ∧
      (∀ count, Endeavour.Counts attempt σ count → count last.left = count x + (k + 1)) ∧
      ∀ i t, 0 < i → n.trial? i g = some t →
        t.stage.world.now ≤ Timer.tick (w.now + p.maxElapsed.nanos) := by
  intro n g
  obtain ⟨k, last, hk, hlast, hruns⟩ := Endeavour.exists_concludes hends hline (n := n) (g := g)
    (Nat.zero_add p.maxRetries.toNat)
  have hrepeating : w.Runs (Program.repeating p again attempt x)
      (⟨.clock, w.now, w.now, w.now⟩ :: n.eventsUpTo g k) (n.conclusion last, last.left)
        (n.after last) :=
    .ask w.answer?_clock hruns
  refine ⟨k, last, hk, hlast, hrepeating.solo_eq, hrepeating.history_eq,
    fun count hcount => Endeavour.count_left (n := n) (g := g) hcount hlast.trial,
    fun i t hi ht => ?_⟩
  cases i with
  | zero => exact absurd hi (Nat.lt_irrefl 0)
  | succ i => exact Endeavour.stage_now_le (n := n) (g := g) (Nat.le_refl w.now) ht

/-- Delays of one and of one and a half milliseconds, which are just in time. -/
def RetryPolicy.tight : RetryPolicy where
  maxRetries := 2
  initialBackoff := .ofMillis 1
  maxBackoff := .ofMillis 10
  multiplier := .ofDecimal false 15 (-1)
  jitter := .zero
  maxElapsed := ⟨2500000, by decide⟩

/-- Attempts that take no time, of which the first two fail; the state counts them. -/
def failsTwice (made : Nat) : Program (Except Failure Nat × Nat) :=
  .done (if made < 2 then .error (.error (.network ⟨.timeout, "x"⟩)) else .ok made, made + 1)

theorem ends_failsTwice : Endeavour.Ends failsTwice Script :=
  fun _ w hline => ⟨_, w, rfl, hline⟩

theorem repeating_of_failsTwice :
    let again : Nat → Error → Bool := fun _ => Error.isTransient
    let w := World.scripted {}
    let n : Endeavour Nat Nat := ⟨.tight, again, failsTwice, w.now⟩
    let g : Stage Script Nat := ⟨{}, 0, w⟩
    w.line = [] ∧ (w.solo none (Program.repeating .tight again failsTwice 0)).1 = some (.ok 2, 3) ∧
      ∃ k last, k ≤ 2 ∧ n.Concludes g k last ∧
        w.solo none (Program.repeating .tight again failsTwice 0) =
          (some (n.conclusion last, last.left), n.after last) ∧
        w.history (Program.repeating .tight again failsTwice 0) =
          ⟨.clock, w.now, w.now, w.now⟩ :: n.eventsUpTo g k ∧
        (∀ count, Endeavour.Counts failsTwice Script count → count last.left = count 0 + (k + 1)) ∧
        ∀ i t, 0 < i → n.trial? i g = some t →
          t.stage.world.now ≤ Timer.tick (w.now + RetryPolicy.tight.maxElapsed.nanos) :=
  ⟨rfl, by decide +kernel, repeating_concludes .tight (fun _ => Error.isTransient) failsTwice
    ends_failsTwice (.scripted {}) rfl 0⟩

/-- The second delay is granted up to the end of the time, and the timer goes off after it. -/
theorem begins_after_time :
    let again : Nat → Error → Bool := fun _ => Error.isTransient
    let w := World.scripted {}
    let n : Endeavour Nat Nat := ⟨.tight, again, failsTwice, w.now⟩
    ∃ t, n.trial? 2 ⟨{}, 0, w⟩ = some t ∧
      w.now + RetryPolicy.tight.maxElapsed.nanos < t.stage.world.now ∧
      (w.solo none (Program.repeating .tight again failsTwice 0)).2.now = t.stage.world.now := by
  intro again w n
  have htrial : (n.trial? 2 ⟨{}, 0, w⟩).map (·.stage.world.now) = some 3000000 := by
    decide +kernel
  obtain ⟨t, ht, hnow⟩ := Option.map_eq_some_iff.1 htrial
  refine ⟨t, ht, ?_, ?_⟩
  · rw [hnow]
    decide +kernel
  · rw [hnow]
    decide +kernel

end CloudClient
