import CloudClient.Proofs.Machine.Scene

/-!
Sessions. A session says in which order tasks come in, go on and are given up, so that it turns an
empty scene into one scene only; and every scene that can be reached is reached by a session.
-/

namespace CloudClient

/-- What happens next: somebody comes in for some purpose, somebody is given up, or something
happens by itself. -/
inductive Cue (ι : Type) where
  | enter (k : ι)
  | drop (i : Nat)
  | move (m : Scene.Move)

namespace Scene

variable {ι σ α : Type} {program : ι → Program α}

/-- What comes of a cue, when there is a way to follow it. -/
def follow? (program : ι → Program α) (s : Scene σ α) :
    Cue ι → Option (List Occurrence × Scene σ α)
  | .enter k => some ([], s.enter (.ofProgram (program k)))
  | .drop i =>
    match s.actors[i]? with
    | some ⟨.ask _ _, _⟩ =>
      some ([s.note i .leaves], s.become i ⟨.done none, none⟩ (s.world.abandon i))
    | _ => none
  | .move m => s.move? m

/-- Follows cues one after the other. -/
def session? (program : ι → Program α) :
    List (Cue ι) → Scene σ α × Chronicle → Option (Scene σ α × Chronicle)
  | [], p => some p
  | cue :: cues, (s, h) =>
    match s.follow? program cue with
    | some (o, s') => session? program cues (s', o ++ h)
    | none => none

/-- Everybody comes in for some purpose, and may be given up. -/
def purposes (program : ι → Program α) : Cast α :=
  ⟨fun p => ∃ k, p = program k, True⟩

theorem Step.later {C : Cast α} {s s' : Scene σ α} {o : List Occurrence} (h : Step C s o s') :
    s.world.Later s'.world := by
  cases h with
  | join _ => exact .refl _
  | start _ => exact World.later_start ..
  | finish _ hx => exact (World.finishes_of_finish? hx).later
  | drop _ _ => exact World.later_abandon ..
  | pass _ ht => exact World.later_at ht

/-- What can happen with some programs can happen where more may come in. -/
theorem Step.mono {C C' : Cast α} {s s' : Scene σ α} {o : List Occurrence} (h : Step C s o s')
    (hjoins : ∀ p, C.joins p → C'.joins p) (hcancels : C.cancels → C'.cancels) :
    Step C' s o s' := by
  cases h with
  | join hp => exact .join (hjoins _ hp)
  | start hi => exact .start hi
  | finish hi hx => exact .finish hi hx
  | drop hc hi => exact .drop (hcancels hc) hi
  | pass hidle ht => exact .pass hidle ht

theorem Reach.mono {C C' : Cast α} {w : World σ} {s : Scene σ α} {h : Chronicle}
    (H : Reach C w s h) (hjoins : ∀ p, C.joins p → C'.joins p) (hcancels : C.cancels → C'.cancels) :
    Reach C' w s h := by
  induction H with
  | opening => exact .opening
  | step _ hs ih => exact ih.step (hs.mono hjoins hcancels)

theorem step_of_follow? {s s' : Scene σ α} {cue : Cue ι} {o : List Occurrence}
    (h : s.follow? program cue = some (o, s')) : Step (purposes program) s o s' := by
  cases cue with
  | enter k =>
    cases h
    exact .join ⟨k, rfl⟩
  | drop i =>
    simp only [follow?] at h
    split at h
    · rename_i hi
      cases h
      exact .drop trivial hi
    · contradiction
  | move m => exact step_of_move? h

theorem exists_follow? {s s' : Scene σ α} {o : List Occurrence}
    (h : Step (purposes program) s o s') : ∃ cue, s.follow? program cue = some (o, s') := by
  cases h with
  | join hp =>
    obtain ⟨k, rfl⟩ := hp
    exact ⟨.enter k, rfl⟩
  | @start i e k hi => exact ⟨.move (.start i), by simp only [follow?, move?, hi]⟩
  | @finish i wake e k x w hi hx =>
    exact ⟨.move (.finish i), by simp only [follow?, move?, hi, hx, Option.map_some]⟩
  | @drop i e k wake _ hi => exact ⟨.drop i, by simp only [follow?, hi]⟩
  | @pass t hidle ht => exact ⟨.move (.pass t), if_pos ⟨hidle, ht⟩⟩

theorem session?_append {cues : List (Cue ι)} (more : List (Cue ι)) {p : Scene σ α × Chronicle} :
    session? program (cues ++ more) p = (session? program cues p).bind (session? program more) := by
  induction cues generalizing p with
  | nil => rfl
  | cons cue cues ih =>
    simp only [List.cons_append, session?]
    split
    · exact ih
    · rfl

/-- What every step keeps is kept by a session. -/
theorem session?_keeps {P : Scene σ α → Chronicle → Prop} {cues : List (Cue ι)}
    {s s' : Scene σ α} {h h' : Chronicle}
    (hstep : ∀ {s s' h o}, P s h → Step (purposes program) s o s' → P s' (o ++ h)) (H : P s h)
    (hs : session? program cues (s, h) = some (s', h')) : P s' h' := by
  induction cues generalizing s h with
  | nil =>
    cases hs
    exact H
  | cons cue cues ih =>
    simp only [session?] at hs
    split at hs
    · rename_i hcue
      exact ih (hstep H (step_of_follow? hcue)) hs
    · contradiction

theorem reach_session? {w : World σ} {cues : List (Cue ι)} {s s' : Scene σ α} {h h' : Chronicle}
    (H : Reach (purposes program) w s h) (hs : session? program cues (s, h) = some (s', h')) :
    Reach (purposes program) w s' h' :=
  session?_keeps .step H hs

/-- What can happen is what comes of sessions. -/
theorem reach_iff_session? {w : World σ} {s : Scene σ α} {h : Chronicle} :
    Reach (purposes program) w s h ↔ ∃ cues, session? program cues (⟨[], w⟩, []) = some (s, h) := by
  refine ⟨fun H => ?_, fun ⟨cues, hs⟩ => reach_session? .opening hs⟩
  induction H with
  | opening => exact ⟨[], rfl⟩
  | step _ hs ih =>
    obtain ⟨cues, hcues⟩ := ih
    obtain ⟨cue, hcue⟩ := exists_follow? hs
    refine ⟨cues ++ [cue], ?_⟩
    rw [session?_append, hcues, Option.bind_some, session?, hcue]
    rfl

end Scene

end CloudClient
