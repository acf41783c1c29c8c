import CloudClient.Machine.Run
import CloudClient.Proofs.Machine.Scene

/-!
Scenes and schedules. Whatever order the actors of a scene take turns in, they come to an end; and
the order in which a machine lets its tasks go on is one of those that scenes allow.
-/

namespace CloudClient

/-! ### Scenes come to rest -/

namespace Scene

variable {σ α : Type} {s s' : Scene σ α} {i : Nat} {a b : Actor α}

theorem actors_split (hi : s.actors[i]? = some b) (a : Actor α) (w : World σ) :
    ∃ l r, s.actors = l ++ b :: r ∧ (s.become i a w).actors = l ++ a :: r := by
  obtain ⟨hl, rfl⟩ := List.getElem?_eq_some_iff.1 hi
  refine ⟨s.actors.take i, s.actors.drop (i + 1), ?_, ?_⟩
  · rw [List.getElem_cons_drop, List.take_append_drop]
  · rw [become, List.set_eq_take_append_cons_drop, if_pos hl]

/-- What is left to do for each actor. -/
def tasks (s : Scene σ α) : List (Task α) :=
  s.actors.map fun a => { rest := a.rest }

def unstarted (s : Scene σ α) : Nat :=
  s.actors.countP (·.wake.isNone)

theorem further_append {t t' : Task α} (h : Task.Rest t'.rest t.rest) (l r : List (Task α)) :
    Machine.Further (l ++ t' :: r) (l ++ t :: r) := by
  induction l with
  | nil => exact .head h rfl
  | cons t₀ l ih => exact .tail t₀ ih

theorem tasks_further (hi : s.actors[i]? = some b) (h : Task.Rest a.rest b.rest) (w : World σ) :
    Machine.Further (s.become i a w).tasks s.tasks := by
  obtain ⟨l, r, hs, hb⟩ := actors_split hi a w
  simp only [tasks, hs, hb, List.map_append, List.map_cons]
  exact further_append h _ _

theorem next_further (h : Next s' s) :
    Prod.Lex Machine.Further (· < ·) (s'.tasks, s'.unstarted) (s.tasks, s.unstarted) := by
  obtain ⟨t, o, _, hs⟩ := h
  cases hs with
  | @start i e k hi =>
    generalize hb : (s.atTime t).become i _ _ = s'
    obtain ⟨l, r, hs, hl⟩ := actors_split hi
      ⟨.ask e k, some ((s.atTime t).world.start i e).2⟩ ((s.atTime t).world.start i e).1
    rw [hb] at hl
    change s.actors = _ at hs
    -- as much is left to do as before, but one more actor has started
    have ht : s'.tasks = s.tasks := by simp only [tasks, hs, hl, List.map_append, List.map_cons]
    rw [ht]
    refine .right _ ?_
    simp [unstarted, hs, hl]
  | @finish i wake e k x w hi => exact .left _ _ (tasks_further (s := s) hi (.next e k x) w)
  | drop hc => exact hc.elim

/-- There is no way to go on for ever. -/
theorem acc_next (s : Scene σ α) : Acc Next s :=
  Subrelation.accessible next_further
    (InvImage.accessible (fun s : Scene σ α => (s.tasks, s.unstarted))
      (Prod.lexAccessible (Machine.acc_further s.tasks) Nat.lt_wfRel.wf.apply s.unstarted))

end Scene

/-! ### Machines play scenes -/

namespace Task

/-- A task whose effect has started, or that is over, as an actor. -/
def actor {α : Type} (t : Task α) : Actor α :=
  { rest := t.rest, wake := if t.isOver then none else some t.wake }

/-- A task that can only wait, and has a limit only where actors may be given up. -/
structure Parked {α : Type} (C : Cast α) (t : Task α) : Prop where
  idle : t.actor.Idle
  limit : t.limit ≠ none → C.cancels

end Task

namespace Scene

variable {σ α : Type} {C : Cast α} {w v : World σ} {s : Scene σ α} {h : Chronicle} {i : Nat}

theorem become_become (s : Scene σ α) (i : Nat) (a b : Actor α) (v v' : World σ) :
    (s.become i a v).become i b v' = s.become i b v' := by
  simp [become, List.set_set]

theorem become_self {a : Actor α} (hi : s.actors[i]? = some a) : s.become i a s.world = s := by
  obtain ⟨hl, rfl⟩ := List.getElem?_eq_some_iff.1 hi
  simp [become, List.set_getElem_self]

theorem reach_advance {p : Program (Option α)} (limit : Option Nat) (H : Reach C w s h)
    (hi : s.actors[i]? = some ⟨p, none⟩) :
    ∃ h', Reach C w (s.become i (Task.advance i limit p s.world).1.actor
      (Task.advance i limit p s.world).2) h' := by
  induction p generalizing s h with
  | done a =>
    refine ⟨h, ?_⟩
    have := become_self hi
    simp only [Task.advance, Task.actor, Task.isOver, if_true]
    rw [this]
    exact H
  | ask e k ih =>
    have H₁ := H.step (.start hi)
    simp only [Task.advance]
    split
    · -- an effect that takes no time is over at once, and the actor goes on
      rename_i x v hx
      have hi₁ := become_same hi ⟨.ask e k, some (s.world.start i e).2⟩ (s.world.start i e).1
      obtain ⟨h', H'⟩ := ih x (H₁.step (.finish hi₁ hx)) (become_same hi₁ _ _)
      rw [become_become, become_become] at H'
      exact ⟨h', H'⟩
    · exact ⟨_, H₁⟩

theorem parked_advance {limit : Option Nat} (hl : limit ≠ none → C.cancels)
    (p : Program (Option α)) (v : World σ) : (Task.advance i limit p v).1.Parked C := by
  induction p generalizing v with
  | done a => exact ⟨trivial, hl⟩
  | ask e k ih =>
    simp only [Task.advance]
    split
    · exact ih ..
    · rename_i hn
      refine ⟨?_, hl⟩
      cases e with
      | send => rfl
      | sleep => rfl
      | acquire => rfl
      | _ => contradiction

theorem advance_now (i : Nat) (limit : Option Nat) (p : Program (Option α)) (v : World σ) :
    (Task.advance i limit p v).2.now = v.now := by
  induction p generalizing v with
  | done a => rfl
  | ask e k ih =>
    simp only [Task.advance]
    split
    · rename_i x u hx
      rw [ih, (World.finishes_of_finish? hx).now, World.start_now]
    · exact World.start_now ..

theorem reach_poll {t t' : Task α} {inForce : Nat} (H : Reach C w s h) (ht : t.Parked C)
    (hi : s.actors[i]? = some t.actor) (hp : t.poll? i inForce s.world = some (t', v)) :
    t'.Parked C ∧ ∃ h', Reach C w (s.become i t'.actor v) h' := by
  unfold Task.poll? at hp
  split at hp
  · contradiction
  · rename_i e k hr
    have hi' : s.actors[i]? = some ⟨.ask e k, some t.wake⟩ := by
      rw [hi]
      simp [Task.actor, Task.isOver, hr]
    split at hp
    · rename_i hlim
      cases hp
      have hc : C.cancels := ht.limit (by rintro hn; simp [Task.reached, hn] at hlim)
      exact ⟨⟨trivial, ht.limit⟩, _, H.step (.drop hc hi')⟩
    · obtain ⟨⟨x, u⟩, hx, he⟩ := Option.map_eq_some_iff.1 hp
      have H' := H.step (.finish hi' hx)
      obtain ⟨h', H''⟩ := reach_advance t.limit H' (become_same hi' _ _)
      rw [become_become] at H''
      change Task.advance i t.limit (k x) u = (t', v) at he
      rw [show (s.become i ⟨k x, none⟩ u).world = u from rfl, he] at H''
      refine ⟨?_, h', H''⟩
      have := parked_advance (i := i) ht.limit (k x) u
      rwa [he] at this

theorem reach_roundFrom {inForce : Nat} {ts ts' : List (Task α)} (pre : List (Actor α))
    {u : World σ} (H : Reach C w ⟨pre ++ ts.map Task.actor, u⟩ h) (hts : ∀ t ∈ ts, t.Parked C)
    (hr : Machine.roundFrom pre.length inForce ts u = some (ts', v)) :
    (∀ t ∈ ts', t.Parked C) ∧ ∃ h', Reach C w ⟨pre ++ ts'.map Task.actor, v⟩ h' := by
  -- `pre` are the actors that have had their turn, and those that come next move up to them
  induction ts generalizing pre ts' h u with
  | nil => contradiction
  | cons t rest ih =>
    have ht := hts t List.mem_cons_self
    have hrest := fun t' h => hts t' (List.mem_cons_of_mem t h)
    have hi : (Scene.mk (pre ++ (t :: rest).map Task.actor) u).actors[pre.length]? =
        some t.actor := by simp
    simp only [Machine.roundFrom] at hr
    split at hr
    · rename_i t₁ u₁ hp
      obtain ⟨ht₁, h₁, H₁⟩ := reach_poll H ht hi hp
      have hb : (Scene.mk (pre ++ (t :: rest).map Task.actor) u).become pre.length t₁.actor u₁ =
          ⟨(pre ++ [t₁.actor]) ++ rest.map Task.actor, u₁⟩ := by
        simp [become]
      rw [hb] at H₁
      split at hr
      · rename_i rest₂ u₂ hr₂
        cases hr
        obtain ⟨hrest₂, h₂, H₂⟩ := ih (pre ++ [t₁.actor]) H₁ hrest (by simpa using hr₂)
        refine ⟨List.forall_mem_cons.2 ⟨ht₁, hrest₂⟩, h₂, by simpa using H₂⟩
      · cases hr
        refine ⟨List.forall_mem_cons.2 ⟨ht₁, hrest⟩, h₁, by simpa using H₁⟩
    · obtain ⟨⟨rest₂, u₂⟩, hr₂, he⟩ := Option.map_eq_some_iff.1 hr
      cases he
      have H' : Reach C w ⟨(pre ++ [t.actor]) ++ rest.map Task.actor, u⟩ h := by simpa using H
      obtain ⟨hrest₂, h₂, H₂⟩ := ih (pre ++ [t.actor]) H' hrest (by simpa using hr₂)
      exact ⟨List.forall_mem_cons.2 ⟨ht, hrest₂⟩, h₂, by simpa using H₂⟩

end Scene

namespace Machine

variable {σ α : Type} {C : Cast α} {w : World σ} {m m' : Machine σ α}

def scene (m : Machine σ α) : Scene σ α :=
  ⟨m.tasks.map Task.actor, m.world⟩

/-- A machine in a state to which scenes lead too. -/
structure Played (C : Cast α) (w : World σ) (m : Machine σ α) : Prop where
  parked : ∀ t ∈ m.tasks, t.Parked C
  reach : ∃ h, Scene.Reach C w m.scene h

theorem played_round (H : m.Played C w) (hr : m.round = some m') : m'.Played C w := by
  obtain ⟨⟨ts, v⟩, hts, rfl⟩ := Option.map_eq_some_iff.1 hr
  obtain ⟨h, H₀⟩ := H.reach
  rcases Option.or_eq_some_iff.1 hts with hts | ⟨_, hts⟩
  · obtain ⟨hp, hh⟩ := Scene.reach_roundFrom [] H₀ H.parked hts
    exact ⟨hp, hh⟩
  · obtain ⟨hp, hh⟩ := Scene.reach_roundFrom [] H₀ H.parked hts
    exact ⟨hp, hh⟩

theorem played_turn (H : m.Played C w) (ht : m.turn = some m') : m'.Played C w := by
  unfold turn at ht
  split at ht
  · rename_i hr
    cases ht
    exact played_round H hr
  · split at ht
    · rename_i t ha
      have hidle : ∀ a ∈ m.scene.actors, a.Idle := by
        intro a ha
        obtain ⟨t, ht, rfl⟩ := List.mem_map.1 ha
        exact (H.parked t ht).idle
      -- alarms are not set for times that have passed
      have hle : m.world.now ≤ t := by
        obtain ⟨t', _, ht'⟩ := List.mem_flatMap.1 (List.min?_mem ha)
        unfold Task.alarms at ht'
        split at ht'
        · contradiction
        · exact Nat.le_of_lt (of_decide_eq_true (List.mem_filter.1 ht').2)
      obtain ⟨h, H₀⟩ := H.reach
      refine played_round (m := { m with world := { m.world with now := t } }) ⟨H.parked, h, ?_⟩ ht
      exact H₀.step (.pass hidle hle)
    · contradiction

theorem played_run (H : m.Played C w) : m.run.Played C w := by
  induction m using run.induct with
  | case1 m m' ht ih =>
    rw [run_of_turn ht]
    exact ih (played_turn H ht)
  | case2 m ht =>
    rw [run_of_stuck ht]
    exact H

theorem played_launch {u : World σ} (ps : List (Option Nat × Program α))
    (hps : ∀ q ∈ ps, C.joins q.2 ∧ (q.1 ≠ none → C.cancels) ∧ Task.reached q.1 u.now = false)
    (pre : List (Actor α)) {h : Chronicle} (H : Scene.Reach C w ⟨pre, u⟩ h) :
    (∀ t ∈ (launch pre.length ps u).tasks, t.Parked C) ∧
      ∃ h', Scene.Reach C w ⟨pre ++ (launch pre.length ps u).tasks.map Task.actor,
        (launch pre.length ps u).world⟩ h' := by
  induction ps generalizing pre u h with
  | nil =>
    refine ⟨nofun, h, ?_⟩
    simpa [launch] using H
  | cons q rest ih =>
    obtain ⟨limit, p⟩ := q
    obtain ⟨hj, hc, hl⟩ := hps _ List.mem_cons_self
    have hi : ((Scene.mk pre u).enter (.ofProgram p)).actors[pre.length]? =
        some ⟨p >>= fun a => .done (some a), none⟩ := by
      simp [Scene.enter, Actor.ofProgram]
    obtain ⟨h₁, H₁⟩ := Scene.reach_advance limit (H.step (.join hj)) hi
    simp only [launch, Task.launch, hl, Bool.false_eq_true, if_false]
    generalize ht : Task.advance pre.length limit (p >>= fun a => .done (some a)) u = r
    obtain ⟨t, u₁⟩ := r
    have htp : t.Parked C := by
      have := Scene.parked_advance (i := pre.length) hc (p >>= fun a => .done (some a)) u
      rwa [ht] at this
    have hnow : u₁.now = u.now := by
      have := Scene.advance_now pre.length limit (p >>= fun a => .done (some a)) u
      rwa [ht] at this
    have H₂ : Scene.Reach C w ⟨pre ++ [t.actor], u₁⟩ h₁ := by
      rw [show ((Scene.mk pre u).enter (.ofProgram p)).world = u from rfl, ht] at H₁
      simpa [Scene.become, Scene.enter] using H₁
    obtain ⟨hts, h₂, H₃⟩ := ih (fun q hq => by
      rw [hnow]
      exact hps q (List.mem_cons_of_mem _ hq)) (pre ++ [t.actor]) H₂
    rw [List.length_append] at hts H₃
    exact ⟨List.forall_mem_cons.2 ⟨htp, hts⟩, h₂, by simpa using H₃⟩

/-- What a machine that starts programs does is one of the things that can happen in a scene. -/
theorem run_reach (w : World σ) (ps : List (Option Nat × Program α))
    (hps : ∀ q ∈ ps, C.joins q.2 ∧ (q.1 ≠ none → C.cancels) ∧ Task.reached q.1 w.now = false) :
    ∃ h, Scene.Reach C w (launch 0 ps w).run.scene h := by
  obtain ⟨hp, hh⟩ := played_launch ps hps [] .opening
  exact (played_run ⟨hp, hh⟩).reach

end Machine

end CloudClient
