import CloudClient.Proofs.Machine.World
import CloudClient.Proofs.Program.Conduct

/-!
Tasks side by side in every order. In a scene an actor may start or finish its next effect at any
point, actors may come in and be given up, and the clock moves on whenever all that are under way
have to wait. What the actors do is written down in a chronicle.
-/

namespace CloudClient

/-- A program under way. -/
structure Actor (α : Type) where
  rest : Program (Option α)
  /-- When the first effect may be over, once it has started. -/
  wake : Option Nat := none

structure Scene (σ α : Type) where
  actors : List (Actor α)
  world : World σ

/-- A deed, who did it and when, and what was in the cache. -/
structure Occurrence where
  task : Nat
  time : Nat
  cache : Option Token
  deed : Deed

/-- What has happened so far, the latest first. -/
abbrev Chronicle := List Occurrence

/-- Which programs may come in, and whether actors may be given up. -/
structure Cast (α : Type) where
  joins : Program α → Prop
  cancels : Prop

def Actor.ofProgram {α : Type} (p : Program α) : Actor α :=
  { rest := p >>= fun a => .done (some a) }

/-- Whether an actor can only wait: it is over, or its effect has started and takes time. -/
def Actor.Idle {α : Type} (a : Actor α) : Prop :=
  match a.rest, a.wake with
  | .done _, _ => True
  | .ask e _, some _ => e.waits = true
  | .ask _ _, none => False

namespace Scene

variable {σ α : Type}

def enter (s : Scene σ α) (a : Actor α) : Scene σ α :=
  { s with actors := s.actors ++ [a] }

theorem enter_eq_some_iff {s : Scene σ α} {a b : Actor α} {i : Nat} :
    (s.enter a).actors[i]? = some b ↔ s.actors[i]? = some b ∨ i = s.actors.length ∧ a = b := by
  rw [enter, List.getElem?_append]
  split
  · rename_i hi
    constructor
    · exact .inl
    · rintro (h | ⟨rfl, _⟩)
      · exact h
      · exact absurd hi (Nat.lt_irrefl _)
  · rename_i hi
    rw [List.getElem?_singleton, List.getElem?_eq_none (Nat.le_of_not_lt hi)]
    have : i - s.actors.length = 0 ↔ i = s.actors.length := by omega
    simp [this]

def become (s : Scene σ α) (i : Nat) (a : Actor α) (w : World σ) : Scene σ α :=
  ⟨s.actors.set i a, w⟩

theorem become_same {s : Scene σ α} {i : Nat} {b : Actor α} (hi : s.actors[i]? = some b)
    (a : Actor α) (w : World σ) : (s.become i a w).actors[i]? = some a := by
  rw [become, List.getElem?_set_self', hi]
  rfl

theorem become_other (s : Scene σ α) {i j : Nat} (hij : i ≠ j) (a : Actor α) (w : World σ) :
    (s.become i a w).actors[j]? = s.actors[j]? :=
  List.getElem?_set_ne hij

/-- The actor has asked for the cache and not got it yet. -/
def Waiting (s : Scene σ α) (i : Nat) : Prop :=
  ∃ k wake, s.actors[i]? = some ⟨.ask .acquire k, some wake⟩

theorem waiting_become (s : Scene σ α) {i j : Nat} (hij : i ≠ j) (a : Actor α) (w : World σ) :
    (s.become i a w).Waiting j ↔ s.Waiting j := by
  rw [Waiting, s.become_other hij]
  rfl

def note (s : Scene σ α) (i : Nat) (d : Deed) : Occurrence :=
  ⟨i, s.world.now, s.world.cache, d⟩

/-- What can happen next. -/
inductive Step (C : Cast α) (s : Scene σ α) : List Occurrence → Scene σ α → Prop where
  | join {p : Program α} : C.joins p →
      Step C s [] (s.enter (.ofProgram p))
  | start {i : Nat} {e : Effect} {k : e.Answer → Program (Option α)} :
      s.actors[i]? = some ⟨.ask e k, none⟩ →
      Step C s [s.note i (.starts e)]
        (s.become i ⟨.ask e k, some (s.world.start i e).2⟩ (s.world.start i e).1)
  | finish {i wake : Nat} {e : Effect} {k : e.Answer → Program (Option α)} {x : e.Answer}
      {w : World σ} :
      s.actors[i]? = some ⟨.ask e k, some wake⟩ → s.world.finish? i wake e = some (x, w) →
      Step C s [s.note i (.ends e x)] (s.become i ⟨k x, none⟩ w)
  | drop {i : Nat} {e : Effect} {k : e.Answer → Program (Option α)} {wake : Option Nat} :
      C.cancels → s.actors[i]? = some ⟨.ask e k, wake⟩ →
      Step C s [s.note i .leaves] (s.become i ⟨.done none, none⟩ (s.world.abandon i))
  | pass {t : Nat} : (∀ a ∈ s.actors, a.Idle) → s.world.now ≤ t →
      Step C s [] { s with world := { s.world with now := t } }

/-- Nobody comes in and nobody is given up. -/
def nobody : Cast α := ⟨fun _ => False, False⟩

def atTime (s : Scene σ α) (t : Nat) : Scene σ α :=
  { s with world := { s.world with now := t } }

/-- The first scene comes from the second one by an effect that starts or is over, at once or after
some time. -/
def Next (s' s : Scene σ α) : Prop :=
  ∃ t o, (t = s.world.now ∨ (∀ a ∈ s.actors, a.Idle) ∧ s.world.now ≤ t) ∧
    Step nobody (s.atTime t) [o] s'

/-- Nothing more happens by itself. -/
def AtRest (s : Scene σ α) : Prop :=
  ∀ s', ¬ Next s' s

/-- The scenes that an empty one can turn into, each with its chronicle. -/
inductive Reach (C : Cast α) (w : World σ) : Scene σ α → Chronicle → Prop where
  | opening : Reach C w ⟨[], w⟩ []
  | step {s s' : Scene σ α} {h : Chronicle} {o : List Occurrence} :
      Reach C w s h → Step C s o s' → Reach C w s' (o ++ h)

/-- The result of an actor that has come to one. -/
def result? (s : Scene σ α) (i : Nat) : Option α :=
  match s.actors[i]? with
  | some ⟨.done a, _⟩ => a
  | _ => none

def Over (s : Scene σ α) : Prop :=
  ∀ a ∈ s.actors, ∃ r, a.rest = .done r

instance (a : Actor α) : Decidable (∃ r, a.rest = .done r) :=
  match a.rest with
  | .done r => .isTrue ⟨r, rfl⟩
  | .ask _ _ => .isFalse fun ⟨_, hr⟩ => nomatch hr

instance (s : Scene σ α) : Decidable s.Over :=
  inferInstanceAs (Decidable (∀ a ∈ s.actors, ∃ r, a.rest = .done r))

theorem next_start {s : Scene σ α} {i : Nat} {e : Effect} {k : e.Answer → Program (Option α)}
    (hi : s.actors[i]? = some ⟨.ask e k, none⟩) : ∃ s', Next s' s :=
  ⟨_, s.world.now, _, .inl rfl, .start (s := s) hi⟩

/-- A started effect goes on when its time has come, unless it waits for the cache in vain. -/
theorem next_finish {s : Scene σ α} {i wake : Nat} {e : Effect}
    {k : e.Answer → Program (Option α)} (hi : s.actors[i]? = some ⟨.ask e k, some wake⟩)
    (hl : e = .acquire → s.world.line.head? = some i)
    (hw : e.waits = true → ∀ a ∈ s.actors, a.Idle) : ∃ s', Next s' s := by
  cases he : e.waits with
  | true =>
    -- the clock moves on to the time at which the effect may be over
    obtain ⟨x, v, hx⟩ := World.exists_finish? (w := (s.atTime (max s.world.now wake)).world) hl
      (Nat.le_max_right s.world.now wake)
    exact ⟨_, _, _, .inr ⟨hw he, Nat.le_max_left ..⟩, .finish hi hx⟩
  | false =>
    have hx : ∃ x v, s.world.finish? i wake e = some (x, v) := by
      cases e with
      | send => contradiction
      | sleep => contradiction
      | acquire => contradiction
      | _ => exact ⟨_, _, rfl⟩
    obtain ⟨x, v, hx⟩ := hx
    exact ⟨_, s.world.now, _, .inl rfl, .finish (s := s) hi hx⟩

theorem atRest_of_over {s : Scene σ α} (h : s.Over) : s.AtRest := by
  have hdone {i : Nat} {e : Effect} {k : e.Answer → Program (Option α)} {wake : Option Nat} :
      s.actors[i]? ≠ some ⟨.ask e k, wake⟩ := by
    intro hi
    obtain ⟨r, hr⟩ := h _ (List.mem_of_getElem? hi)
    cases hr
  rintro s' ⟨t, o, _, hs⟩
  cases hs with
  | start hi => exact hdone hi
  | finish hi _ => exact hdone hi
  | drop hc => exact hc.elim

/-! ### Scenes played out -/

/-- What happens next, of the things that happen by themselves. -/
inductive Move where
  | start (i : Nat)
  | finish (i : Nat)
  | pass (t : Nat)

instance (a : Actor α) : Decidable a.Idle := by
  unfold Actor.Idle
  split <;> infer_instance

def move? (s : Scene σ α) : Move → Option (List Occurrence × Scene σ α)
  | .start i =>
    match s.actors[i]? with
    | some ⟨.ask e k, none⟩ =>
      some ([s.note i (.starts e)],
        s.become i ⟨.ask e k, some (s.world.start i e).2⟩ (s.world.start i e).1)
    | _ => none
  | .finish i =>
    match s.actors[i]? with
    | some ⟨.ask e k, some wake⟩ =>
      (s.world.finish? i wake e).map fun (x, w) =>
        ([s.note i (.ends e x)], s.become i ⟨k x, none⟩ w)
    | _ => none
  | .pass t => if (∀ a ∈ s.actors, a.Idle) ∧ s.world.now ≤ t then some ([], s.atTime t) else none

def play? : List Move → Scene σ α × Chronicle → Option (Scene σ α × Chronicle)
  | [], p => some p
  | m :: ms, (s, h) =>
    match s.move? m with
    | some (o, s') => play? ms (s', o ++ h)
    | none => none

theorem step_of_move? {C : Cast α} {s s' : Scene σ α} {m : Move} {o : List Occurrence}
    (h : s.move? m = some (o, s')) : Step C s o s' := by
  cases m with
  | start i =>
    simp only [move?] at h
    split at h
    · rename_i hi
      cases h
      exact .start hi
    · contradiction
  | finish i =>
    simp only [move?] at h
    split at h
    · rename_i hi
      obtain ⟨⟨x, w⟩, hx, he⟩ := Option.map_eq_some_iff.1 h
      cases he
      exact .finish hi hx
    · contradiction
  | pass t =>
    simp only [move?] at h
    split at h
    · rename_i hp
      cases h
      exact .pass hp.1 hp.2
    · contradiction

theorem reach_play? {C : Cast α} {w : World σ} {ms : List Move} {s s' : Scene σ α}
    {h h' : Chronicle} (H : Reach C w s h) (hp : play? ms (s, h) = some (s', h')) :
    Reach C w s' h' := by
  induction ms generalizing s h with
  | nil =>
    cases hp
    exact H
  | cons m ms ih =>
    simp only [play?] at hp
    split at hp
    · rename_i hm
      exact ih (H.step (step_of_move? hm)) hp
    · contradiction

theorem reach_enter {C : Cast α} {w : World σ} {s : Scene σ α} {h : Chronicle} (H : Reach C w s h)
    {ps : List (Program α)} (hps : ∀ p ∈ ps, C.joins p) :
    Reach C w { s with actors := s.actors ++ ps.map .ofProgram } h := by
  induction ps generalizing s with
  | nil => simpa using H
  | cons p ps ih =>
    obtain ⟨hp, hrest⟩ := List.forall_mem_cons.1 hps
    have H' := ih (H.step (.join hp)) hrest
    simpa [enter, List.append_assoc] using H'

end Scene

namespace Chronicle

/-- What a task has done since it took the cache. -/
def account (i : Nat) : Chronicle → Account
  | [] => {}
  | o :: h => if o.task = i then (account i h).step o.deed else account i h

/-- A law for every occurrence, given what was before it. -/
def Every (P : Occurrence → Chronicle → Prop) (h : Chronicle) : Prop :=
  ∀ o before, o :: before <:+ h → P o before

/-- The tokens that came back from the server in answer to requests for one. -/
def tokens : Chronicle → List Token
  | [] => []
  | o :: h => (account o.task (o :: h)).obtained.toList ++ tokens h

/-- Only one task has the cache, and what it found there is what is in it. -/
def Sole (cache : Option Token) (h : Chronicle) : Prop :=
  ∀ i x, (account i h).held = some x → x = cache ∧ ∀ j, (account j h).held ≠ none → j = i

theorem account_same (o : Occurrence) (h : Chronicle) :
    account o.task (o :: h) = (account o.task h).step o.deed := by
  simp [account]

theorem account_other {i : Nat} {o : Occurrence} (hi : o.task ≠ i) (h : Chronicle) :
    account i (o :: h) = account i h := by
  simp [account, hi]

/-- What is so for an account and is kept by a deed is so for all accounts after it. -/
theorem forall_account_cons {P : Nat → Account → Prop} {o : Occurrence} {h : Chronicle}
    (H : ∀ i, P i (account i h)) (ho : P o.task ((account o.task h).step o.deed)) (i : Nat) :
    P i (account i (o :: h)) := by
  by_cases hi : o.task = i
  · rw [← hi, account_same]
    exact ho
  · rw [account_other hi]
    exact H i

theorem every_nil (P : Occurrence → Chronicle → Prop) : Every P [] := by
  intro o before hs
  have := List.suffix_nil.1 hs
  contradiction

theorem every_cons {P : Occurrence → Chronicle → Prop} {o : Occurrence} {h : Chronicle} :
    Every P (o :: h) ↔ P o h ∧ Every P h := by
  constructor
  · intro H
    exact ⟨H o h (List.suffix_refl _), fun o' b hs => H o' b (hs.trans (List.suffix_cons o h))⟩
  · rintro ⟨ho, H⟩ o' b hs
    rcases List.suffix_cons_iff.1 hs with he | hs
    · cases he
      exact ho
    · exact H o' b hs

instance decidableEvery (P : Occurrence → Chronicle → Prop) [∀ o h, Decidable (P o h)] :
    (h : Chronicle) → Decidable (Every P h)
  | [] => .isTrue (every_nil P)
  | _ :: h => @decidable_of_iff' _ _ every_cons (@instDecidableAnd _ _ _ (decidableEvery P h))

theorem mem_tokens_cons {h : Chronicle} {t : Token} (ht : t ∈ h.tokens) (o : Occurrence) :
    t ∈ tokens (o :: h) :=
  List.mem_append_right _ ht

theorem mem_tokens_of_account {h : Chronicle} {i : Nat} {t : Token}
    (ht : (account i h).obtained = some t) : t ∈ h.tokens := by
  induction h with
  | nil => contradiction
  | cons o h ih =>
    by_cases hi : o.task = i
    · subst hi
      exact List.mem_append_left _ (by simp [ht])
    · rw [account_other hi] at ht
      exact mem_tokens_cons (ih ht) o

end Chronicle

end CloudClient
