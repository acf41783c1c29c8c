import CloudClient.Proofs.Machine.Session
import CloudClient.Proofs.Program.Alike
import Mathlib.Data.List.Forall2

/-!
Sessions that are alike. When all programs are alike and the server takes no notice of what they
differ in, the same session leads to scenes that are alike, by way of deeds that are alike.
-/

namespace CloudClient

open Http (Request)

/-- Whether a server takes no notice of how requests differ. -/
def Server.Blind {σ : Type} (S : Server σ) (R : Request → Request → Prop) : Prop :=
  ∀ state r r', R r r' → S.due state r' = S.due state r ∧ S.reply state r' = S.reply state r

/-- Worlds that are the same, but for requests that were sent, which are related. -/
structure World.Alike (R : Request → Request → Prop) {σ : Type} (w w' : World σ) : Prop where
  same : w' = { w with sent := w'.sent }
  sent : List.Forall₂ (fun s s' => s'.time = s.time ∧ R s.request s'.request) w.sent w'.sent

/-- Actors who wait for the same and then go on alike. -/
inductive Actor.Alike (R : Request → Request → Prop) {α : Type} : Actor α → Actor α → Prop where
  | done (r : Option α) (wake : Option Nat) : Alike R ⟨.done r, wake⟩ ⟨.done r, wake⟩
  | ask (e : Effect) (wake : Option Nat) {k k' : e.Answer → Program (Option α)} :
      (∀ x, (k x).Alike R (k' x)) → Alike R ⟨.ask e k, wake⟩ ⟨.ask e k', wake⟩
  | send {r r' : Request} (wake : Option Nat)
      {k k' : Effect.Answer (.send r) → Program (Option α)} :
      R r r' → (∀ x, (k x).Alike R (k' x)) →
      Alike R ⟨.ask (.send r) k, wake⟩ ⟨.ask (.send r') k', wake⟩

structure Scene.Alike (R : Request → Request → Prop) {σ α : Type} (s s' : Scene σ α) : Prop where
  actors : List.Forall₂ (Actor.Alike R) s.actors s'.actors
  world : s.world.Alike R s'.world

/-- Deeds that are the same, but for requests, which are related. -/
inductive Deed.Alike (R : Request → Request → Prop) : Deed → Deed → Prop where
  | same (d : Deed) : Alike R d d
  | starts {r r' : Request} : R r r' → Alike R (.starts (.send r)) (.starts (.send r'))
  | ends {r r' : Request} (x : Reply) : R r r' → Alike R (.ends (.send r) x) (.ends (.send r') x)

structure Occurrence.Alike (R : Request → Request → Prop) (o o' : Occurrence) : Prop where
  task : o'.task = o.task
  time : o'.time = o.time
  cache : o'.cache = o.cache
  deed : o.deed.Alike R o'.deed

variable {R : Request → Request → Prop} {σ α ι : Type}

theorem Occurrence.Alike.refl (o : Occurrence) : o.Alike R o :=
  ⟨rfl, rfl, rfl, .same o.deed⟩

/-! ### Worlds -/

namespace World.Alike

variable {w w' : World σ}

theorem abandon (h : w.Alike R w') (i : Nat) : (w.abandon i).Alike R (w'.abandon i) := by
  obtain ⟨hsame, hsent⟩ := h
  rw [hsame]
  exact ⟨rfl, hsent⟩

theorem atTime (h : w.Alike R w') (t : Nat) :
    World.Alike R { w with now := t } { w' with now := t } := by
  obtain ⟨hsame, hsent⟩ := h
  rw [hsame]
  exact ⟨rfl, hsent⟩

theorem start_send (h : w.Alike R w') (hblind : w.server.Blind R) {r r' : Request} (hr : R r r')
    (i : Nat) : (w.start i (.send r)).1.Alike R (w'.start i (.send r')).1 ∧
      (w'.start i (.send r')).2 = (w.start i (.send r)).2 := by
  obtain ⟨hsame, hsent⟩ := h
  rw [hsame]
  refine ⟨⟨rfl, List.rel_append hsent (.cons ⟨rfl, hr⟩ .nil)⟩, ?_⟩
  simp only [start, (hblind w.state r r' hr).1]

theorem start (h : w.Alike R w') (hblind : w.server.Blind R) (hR : ∀ r, R r r) (i : Nat)
    (e : Effect) : (w.start i e).1.Alike R (w'.start i e).1 ∧
      (w'.start i e).2 = (w.start i e).2 := by
  cases e with
  | send r => exact h.start_send hblind (hR r) i
  | _ =>
    obtain ⟨hsame, hsent⟩ := h
    rw [hsame]
    exact ⟨⟨rfl, hsent⟩, rfl⟩

/-- The same answer, and worlds that are alike after it. -/
def Answered {A : Type} (R : Request → Request → Prop) (p p' : A × World σ) : Prop :=
  p'.1 = p.1 ∧ p.2.Alike R p'.2

theorem finish?_send (h : w.Alike R w') (hblind : w.server.Blind R) {r r' : Request} (hr : R r r')
    (i wake : Nat) : Option.Rel (Answered (A := Reply) R) (w.finish? i wake (.send r))
      (w'.finish? i wake (.send r')) := by
  obtain ⟨hsame, hsent⟩ := h
  rw [hsame]
  simp only [finish?, (hblind w.state r r' hr).2]
  split
  · exact .some ⟨rfl, rfl, hsent⟩
  · exact .none

theorem finish? (h : w.Alike R w') (hblind : w.server.Blind R) (hR : ∀ r, R r r) (i wake : Nat)
    (e : Effect) : Option.Rel (Answered R) (w.finish? i wake e) (w'.finish? i wake e) := by
  cases e with
  | send r => exact h.finish?_send hblind (hR r) i wake
  | _ =>
    obtain ⟨hsame, hsent⟩ := h
    rw [hsame]
    simp only [World.finish?]
    try split
    all_goals first | exact .some ⟨rfl, rfl, hsent⟩ | exact .none

end World.Alike

/-! ### Scenes -/

theorem Actor.alike_of_rest {p p' : Program (Option α)} (h : p.Alike R p') (wake : Option Nat) :
    Actor.Alike R ⟨p, wake⟩ ⟨p', wake⟩ := by
  cases h with
  | done r => exact .done r wake
  | ask e hk => exact .ask e wake hk
  | send hr hk => exact .send wake hr hk

theorem Actor.Alike.idle_iff {a a' : Actor α} (h : a.Alike R a') : a'.Idle ↔ a.Idle := by
  cases h with
  | done r wake => rfl
  | ask e wake _ => cases wake <;> rfl
  | send wake _ _ => cases wake <;> rfl

namespace Scene.Alike

variable {s s' : Scene σ α}

theorem actor (h : s.Alike R s') (i : Nat) :
    Option.Rel (Actor.Alike R) s.actors[i]? s'.actors[i]? := by
  have hactors := h.actors
  generalize s.actors = as at hactors
  generalize s'.actors = as' at hactors
  induction hactors generalizing i with
  | nil => exact .none
  | cons ha _ ih =>
    cases i with
    | zero => exact .some ha
    | succ i => exact ih i

theorem enter (h : s.Alike R s') {a a' : Actor α} (ha : a.Alike R a') :
    (s.enter a).Alike R (s'.enter a') :=
  ⟨List.rel_append h.actors (.cons ha .nil), h.world⟩

theorem become (h : s.Alike R s') {a a' : Actor α} (ha : a.Alike R a') {w w' : World σ}
    (hw : w.Alike R w') (i : Nat) : (s.become i a w).Alike R (s'.become i a' w') := by
  refine ⟨?_, hw⟩
  rw [Scene.become, Scene.become, List.set_eq_take_append_cons_drop,
    List.set_eq_take_append_cons_drop, h.actors.length_eq]
  split
  · exact List.rel_append (List.forall₂_take i h.actors)
      (.cons ha (List.forall₂_drop (i + 1) h.actors))
  · exact h.actors

theorem atTime (h : s.Alike R s') (t : Nat) : (s.atTime t).Alike R (s'.atTime t) :=
  ⟨h.actors, h.world.atTime t⟩

theorem note (h : s.Alike R s') (i : Nat) {d d' : Deed} (hd : d.Alike R d') :
    (s.note i d).Alike R (s'.note i d') := by
  have hsame := h.world.same
  exact ⟨rfl, (congrArg World.now hsame :), (congrArg World.cache hsame :), hd⟩

theorem forall_idle_iff (h : s.Alike R s') :
    (∀ a ∈ s'.actors, a.Idle) ↔ ∀ a ∈ s.actors, a.Idle := by
  have hactors := h.actors
  generalize s.actors = as at hactors
  generalize s'.actors = as' at hactors
  induction hactors with
  | nil => rfl
  | cons ha _ ih =>
    rw [List.forall_mem_cons, List.forall_mem_cons]
    exact and_congr ha.idle_iff ih

/-- The same results. -/
theorem result? (h : s.Alike R s') (i : Nat) : s'.result? i = s.result? i := by
  have hi := h.actor i
  rw [Scene.result?, Scene.result?]
  generalize s.actors[i]? = a at hi
  generalize s'.actors[i]? = a' at hi
  cases hi with
  | none => rfl
  | some ha => cases ha <;> rfl

end Scene.Alike

/-! ### Steps -/

namespace Scene

variable {s s' : Scene σ α} {i : Nat}

/-- What has happened next is alike. -/
def Followed (R : Request → Request → Prop) (p p' : List Occurrence × Scene σ α) : Prop :=
  List.Forall₂ (Occurrence.Alike R) p.1 p'.1 ∧ p.2.Alike R p'.2

/-- Actors who do something alike and go on alike. -/
theorem Alike.followed (h : s.Alike R s') {d d' : Deed} (hd : d.Alike R d') {a a' : Actor α}
    (ha : a.Alike R a') {w w' : World σ} (hw : w.Alike R w') :
    Followed R ([s.note i d], s.become i a w) ([s'.note i d'], s'.become i a' w') :=
  ⟨.cons (h.note i hd) .nil, h.become ha hw i⟩

theorem Alike.start (h : s.Alike R s') (hblind : s.world.server.Blind R) (hR : ∀ r, R r r) :
    Option.Rel (Followed R) (s.move? (.start i)) (s'.move? (.start i)) := by
  have hi := h.actor i
  rw [move?, move?]
  generalize s.actors[i]? = a at hi
  generalize s'.actors[i]? = a' at hi
  cases hi with
  | none => exact .none
  | some ha =>
    cases ha with
    | done r wake => exact .none
    | ask e wake hk =>
      cases wake with
      | some t => exact .none
      | none =>
        obtain ⟨hworld, hwake⟩ := h.world.start hblind hR i e
        dsimp only
        rw [hwake]
        exact .some (h.followed (.same _) (.ask e _ hk) hworld)
    | send wake hr hk =>
      cases wake with
      | some t => exact .none
      | none =>
        obtain ⟨hworld, hwake⟩ := h.world.start_send hblind hr i
        dsimp only
        rw [hwake]
        exact .some (h.followed (.starts hr) (.send _ hr hk) hworld)

/-- Effects that are over with the same answer. -/
theorem Alike.finished (h : s.Alike R s') {A : Type} {x x' : Option (A × World σ)}
    (hx : Option.Rel (World.Alike.Answered R) x x') {d d' : A → Deed}
    (hd : ∀ a, (d a).Alike R (d' a)) {k k' : A → Program (Option α)}
    (hk : ∀ a, (k a).Alike R (k' a)) :
    Option.Rel (Followed R)
      (x.map fun (a, w) => ([s.note i (d a)], s.become i ⟨k a, none⟩ w))
      (x'.map fun (a, w) => ([s'.note i (d' a)], s'.become i ⟨k' a, none⟩ w)) := by
  cases hx with
  | none => exact .none
  | @some p p' hp =>
    obtain ⟨a, w⟩ := p
    obtain ⟨a', w'⟩ := p'
    obtain ⟨ha, hw⟩ := hp
    obtain rfl : a' = a := ha
    exact .some (h.followed (hd a') (Actor.alike_of_rest (hk a') none) hw)

theorem Alike.finish (h : s.Alike R s') (hblind : s.world.server.Blind R) (hR : ∀ r, R r r) :
    Option.Rel (Followed R) (s.move? (.finish i)) (s'.move? (.finish i)) := by
  have hi := h.actor i
  rw [move?, move?]
  generalize s.actors[i]? = a at hi
  generalize s'.actors[i]? = a' at hi
  cases hi with
  | none => exact .none
  | some ha =>
    cases ha with
    | done r wake => exact .none
    | ask e wake hk =>
      cases wake with
      | none => exact .none
      | some t => exact h.finished (h.world.finish? hblind hR i t e) (fun x => .same _) hk
    | send wake hr hk =>
      cases wake with
      | none => exact .none
      | some t => exact h.finished (h.world.finish?_send hblind hr i t) (fun x => .ends x hr) hk

theorem Alike.drop (h : s.Alike R s') {program program' : ι → Program α} :
    Option.Rel (Followed R) (s.follow? program (.drop i)) (s'.follow? program' (.drop i)) := by
  have hi := h.actor i
  rw [follow?, follow?]
  generalize s.actors[i]? = a at hi
  generalize s'.actors[i]? = a' at hi
  cases hi with
  | none => exact .none
  | some ha =>
    have hleft := h.followed (i := i) (.same .leaves) (.done none none) (h.world.abandon i)
    cases ha with
    | done r wake => exact .none
    | ask e wake hk => exact .some hleft
    | send wake hr hk => exact .some hleft

theorem Alike.pass (h : s.Alike R s') (t : Nat) :
    Option.Rel (Followed R) (s.move? (.pass t)) (s'.move? (.pass t)) := by
  have hnow : s'.world.now = s.world.now := (congrArg World.now h.world.same :)
  simp only [move?, h.forall_idle_iff, hnow]
  split
  · exact .some ⟨.nil, h.atTime t⟩
  · exact .none

theorem Alike.follow? (h : s.Alike R s') (hblind : s.world.server.Blind R) (hR : ∀ r, R r r)
    {program program' : ι → Program α} (hprogram : ∀ k, (program k).Alike R (program' k))
    (cue : Cue ι) : Option.Rel (Followed R) (s.follow? program cue) (s'.follow? program' cue) := by
  cases cue with
  | enter k =>
    exact .some ⟨.nil, h.enter (Actor.alike_of_rest ((hprogram k).map _) none)⟩
  | drop i => exact h.drop
  | move m =>
    cases m with
    | start i => exact h.start hblind hR
    | finish i => exact h.finish hblind hR
    | pass t => exact h.pass t

/-! ### Runs -/

/-- Scenes that are alike, which came about by deeds that are alike. -/
structure Matches (R : Request → Request → Prop) (p p' : Scene σ α × Chronicle) : Prop where
  scene : p.1.Alike R p'.1
  chronicle : List.Forall₂ (Occurrence.Alike R) p.2 p'.2

theorem matches_session? {s s' : Scene σ α} {h h' : Chronicle} (H : Matches R (s, h) (s', h'))
    (hblind : s.world.server.Blind R) (hR : ∀ r, R r r) {program program' : ι → Program α}
    (hprogram : ∀ k, (program k).Alike R (program' k)) (cues : List (Cue ι)) :
    Option.Rel (Matches R) (session? program cues (s, h)) (session? program' cues (s', h')) := by
  -- the induction is on the cues; steps leave the server as it is, so that it stays blind
  induction cues generalizing s s' h h' with
  | nil => exact .some H
  | cons cue cues ih =>
    have hnext := H.scene.follow? hblind hR hprogram cue
    have hserver (o : List Occurrence) (v : Scene σ α)
        (hv : s.follow? program cue = some (o, v)) : v.world.server.Blind R := by
      rw [(step_of_follow? hv).later.server]
      exact hblind
    rw [session?, session?]
    generalize s.follow? program cue = x at hnext hserver
    generalize s'.follow? program' cue = x' at hnext
    cases hnext with
    | none => exact .none
    | @some p p' hp =>
      obtain ⟨o, v⟩ := p
      obtain ⟨o', v'⟩ := p'
      exact ih ⟨hp.2, List.rel_append hp.1 H.chronicle⟩ (hserver o v rfl)

end Scene

end CloudClient
