import CloudClient.Proofs.Machine.Line
import CloudClient.Proofs.Machine.Scene

/-!
Actors that all keep to one conduct. The cache then has one holder at a time, the first in line, who
knows what is in it; no actor waits for ever; and what the rules let each of them do adds up to laws
of the whole chronicle.
-/

namespace CloudClient

namespace Conduct

variable {T σ α : Type} (D : Conduct T)

/-- What a task has done, and its notes. -/
def state (i : Nat) : Chronicle → Account × T
  | [] => ({}, D.blank)
  | o :: h => if o.task = i then D.step (state i h) o.deed else state i h

theorem state_fst (i : Nat) (h : Chronicle) : (D.state i h).1 = h.account i := by
  induction h with
  | nil => rfl
  | cons o h ih =>
    simp only [state, Chronicle.account]
    split
    · rw [← ih]
      rfl
    · exact ih

theorem state_same (o : Occurrence) (h : Chronicle) :
    D.state o.task (o :: h) = D.step (D.state o.task h) o.deed := by
  simp [state]

theorem state_other {i : Nat} {o : Occurrence} (hi : o.task ≠ i) (h : Chronicle) :
    D.state i (o :: h) = D.state i h := by
  simp [state, hi]

/-- What is so for a task and is kept by a deed is so for all tasks after it. -/
theorem forall_state_cons {P : Nat → Account × T → Prop} {o : Occurrence} {h : Chronicle}
    (H : ∀ i, P i (D.state i h)) (ho : P o.task (D.step (D.state o.task h) o.deed)) (i : Nat) :
    P i (D.state i (o :: h)) := by
  by_cases hi : o.task = i
  · rw [← hi, state_same]
    exact ho
  · rw [D.state_other hi]
    exact H i

/-- A task that waits, or does not have the cache. -/
def Rested (s : Account × T) : Prop :=
  s.1 = {} ∨ ∃ s₀ e, e.waits = true ∧ s = D.step s₀ (.starts e)

/-- How an actor ends: without the cache, and with `post` unless it is given up. -/
def Leaves (cancels : Prop) (post : Account × T → α → Prop) (s : Account × T) :
    Option α → Prop
  | some a => s.1 = {} ∧ post s a
  | none => cancels ∧ s.1 = {}

/-- Whether an actor will keep to the rules. -/
def Keeps (post : Account × T → Option α → Prop) (a : Actor α) (s : Account × T) : Prop :=
  match a.rest, a.wake with
  | p, none => D.Obeys post p s
  | .done _, some _ => False
  | .ask e k, some _ =>
    ∃ s₀, s = D.step s₀ (.starts e) ∧ D.Permits s₀ e ∧
      ∀ x, D.expects s e x → D.Obeys post (k x) (D.step s (.ends e x))

/-- A law `J` of the cache, the clock and the chronicle that rules uphold, as long as `A` holds of
the chronicle. It has to bear out what the rules let programs count on. -/
structure Upholds (w : World σ) (cancels : Prop) (A : Chronicle → Prop)
    (J : Option Token → Nat → Chronicle → Prop) : Prop where
  start : ∀ {cache now h i e}, J cache now h → h.Sole cache → D.Permits (D.state i h) e →
    A (⟨i, now, cache, .starts e⟩ :: h) → J cache now (⟨i, now, cache, .starts e⟩ :: h)
  finish : ∀ {cache now h i e x s₀}, J cache now h → h.Sole cache →
    D.state i h = D.step s₀ (.starts e) → D.Permits s₀ e →
    (e = .acquire → ∀ j, (h.account j).held = none) → w.Answers cache now e x →
    A (⟨i, now, cache, .ends e x⟩ :: h) →
    D.expects (D.state i h) e x ∧ J (e.leaving cache) now (⟨i, now, cache, .ends e x⟩ :: h)
  leave : ∀ {cache now h i}, cancels → J cache now h → A (⟨i, now, cache, .leaves⟩ :: h) →
    J cache now (⟨i, now, cache, .leaves⟩ :: h)
  pass : ∀ {cache now h t}, J cache now h → (∀ i, D.Rested (D.state i h)) → now ≤ t →
    J cache t h

/-- All that is so in a scene whose actors keep to the rules. -/
structure Sound (w : World σ) (cancels : Prop) (post : Account × T → α → Prop)
    (J : Option Token → Nat → Chronicle → Prop) (s : Scene σ α) (h : Chronicle) : Prop where
  later : w.Later s.world
  law : J s.world.cache s.world.now h
  keeps : ∀ i a, s.actors[i]? = some a → D.Keeps (Leaves cancels post) a (D.state i h)
  absent : ∀ i, s.actors[i]? = none → D.state i h = ({}, D.blank)
  line : Lined s.world.line s.world.cache s.Waiting fun i => (h.account i).held

variable {D} {w : World σ} {cancels : Prop} {post : Account × T → α → Prop} {A : Chronicle → Prop}
  {J : Option Token → Nat → Chronicle → Prop} {s : Scene σ α} {h : Chronicle}

theorem Sound.sole (H : D.Sound w cancels post J s h) : h.Sole s.world.cache := by
  intro i x hi
  exact ⟨H.line.known i x hi, fun j hj => H.line.holder_unique (by simp [hi]) hj⟩

theorem Sound.answers (H : D.Sound w cancels post J s h) {e : Effect} {x : e.Answer}
    (hx : s.world.Answers s.world.cache s.world.now e x) :
    w.Answers s.world.cache s.world.now e x := by
  cases e with
  | send r =>
    obtain ⟨state, hs⟩ := hx
    exact ⟨state, by rw [hs, H.later.server]⟩
  | timeOfDay => exact hx.trans (congrFun H.later.timeOfDay _)
  | sample =>
    obtain ⟨n, hn⟩ := hx
    exact ⟨n, hn.trans (congrFun H.later.chance n)⟩
  | _ => exact hx

/-! ### Steps -/

theorem keeps_become {post : Account × T → Option α → Prop} {i : Nat} {a : Actor α} {d : Deed}
    {v : World σ} (H : ∀ j b, s.actors[j]? = some b → D.Keeps post b (D.state j h))
    (ha : D.Keeps post a (D.step (D.state i h) d)) (j : Nat) (b : Actor α)
    (hj : (s.become i a v).actors[j]? = some b) :
    D.Keeps post b (D.state j (s.note i d :: h)) := by
  by_cases hij : i = j
  · subst hij
    rw [Scene.become, List.getElem?_set_self'] at hj
    obtain ⟨_, _, rfl⟩ := Option.map_eq_some_iff.1 hj
    rw [show D.state i (s.note i d :: h) = D.step (D.state i h) d from D.state_same _ h]
    exact ha
  · rw [Scene.become, List.getElem?_set_ne hij] at hj
    rw [D.state_other hij]
    exact H j b hj

theorem absent_become {i : Nat} {a b : Actor α} {d : Deed} {v : World σ}
    (H : ∀ j, s.actors[j]? = none → D.state j h = ({}, D.blank)) (hi : s.actors[i]? = some b)
    (j : Nat) (hj : (s.become i a v).actors[j]? = none) :
    D.state j (s.note i d :: h) = ({}, D.blank) := by
  have hij : i ≠ j := by
    rintro rfl
    simp [Scene.become, List.getElem?_set_self', hi] at hj
  rw [Scene.become, List.getElem?_set_ne hij] at hj
  rw [D.state_other hij]
  exact H j hj

theorem entitled_of_held {a b : Account} {e : Effect} (h : a.held = b.held)
    (hb : Entitled b e) : Entitled a e := by
  cases e with
  | acquire => exact h.trans hb
  | release x =>
    rw [Entitled, h]
    exact hb
  | _ => trivial

theorem account_note_same (i : Nat) (d : Deed) :
    Chronicle.account i (s.note i d :: h) = (Chronicle.account i h).step d :=
  Chronicle.account_same (s.note i d) h

theorem held_note_starts (i j : Nat) (e : Effect) :
    (Chronicle.account j (s.note i (.starts e) :: h)).held = (Chronicle.account j h).held := by
  by_cases hij : i = j
  · rw [← hij, account_note_same, Account.held_starts]
  · rw [Chronicle.account_other (o := s.note i _) hij]

theorem Sound.start (H : D.Sound w cancels post J s h) (hu : D.Upholds w cancels A J) {i : Nat}
    {e : Effect} {k : e.Answer → Program (Option α)} (hi : s.actors[i]? = some ⟨.ask e k, none⟩)
    (hA : A (s.note i (.starts e) :: h)) :
    D.Sound w cancels post J
      (s.become i ⟨.ask e k, some (s.world.start i e).2⟩ (s.world.start i e).1)
      (s.note i (.starts e) :: h) where
  later := H.later.trans (World.later_start ..)
  law := by
    have hp : D.Permits (D.state i h) e := (H.keeps i _ hi).1
    change J (s.world.start i e).1.cache (s.world.start i e).1.now _
    rw [World.start_cache, World.start_now]
    exact hu.start H.law H.sole hp hA
  keeps := keeps_become H.keeps ⟨_, rfl, H.keeps i _ hi⟩
  absent := absent_become H.absent hi
  line := by
    have hp : D.Permits (D.state i h) e := (H.keeps i _ hi).1
    change Lined (s.world.start i e).1.line (s.world.start i e).1.cache _ _
    rw [World.start_line, World.start_cache]
    simp only [held_note_starts]
    by_cases he : e = .acquire
    · subst he
      rw [if_pos rfl]
      refine H.line.join ?_ ?_ ⟨k, _, s.become_same hi ..⟩ fun j hij => s.waiting_become hij ..
      · rw [← state_fst D]
        exact hp.1
      · rintro ⟨k', wake, hk⟩
        rw [hi] at hk
        cases hk
    · rw [if_neg he]
      refine H.line.congr (fun _ => rfl) fun j => ?_
      by_cases hij : i = j
      · subst hij
        simp [Scene.Waiting, s.become_same hi, hi, he]
      · exact s.waiting_become hij ..

/-- The line when an effect is over: its task may have got the cache or given it back. -/
theorem Sound.lined_finish (H : D.Sound w cancels post J s h) {i wake : Nat} {e : Effect}
    {k : e.Answer → Program (Option α)} {x : e.Answer} {v : World σ}
    (hi : s.actors[i]? = some ⟨.ask e k, some wake⟩) (hf : s.world.Finishes i e x v)
    (hp : Entitled (h.account i) e) :
    Lined v.line v.cache (s.become i ⟨k x, none⟩ v).Waiting fun j =>
      (Chronicle.account j (s.note i (.ends e x) :: h)).held := by
  rw [hf.line, hf.cache]
  have hother (j : Nat) (hij : i ≠ j) :
      (Chronicle.account j (s.note i (.ends e x) :: h)).held = (Chronicle.account j h).held ∧
      ((s.become i ⟨k x, none⟩ v).Waiting j ↔ s.Waiting j) := by
    rw [Chronicle.account_other (o := s.note i _) hij]
    exact ⟨rfl, s.waiting_become hij ..⟩
  have hout : ¬ (s.become i ⟨k x, none⟩ v).Waiting i := by
    simp [Scene.Waiting, s.become_same hi]
  -- what is neither about taking the cache nor about giving it back leaves the line alone
  have hplain (ha : e ≠ .acquire) (hr : ∀ y, e ≠ .release y) :
      Lined s.world.line s.world.cache (s.become i ⟨k x, none⟩ v).Waiting fun j =>
        (Chronicle.account j (s.note i (.ends e x) :: h)).held := by
    refine H.line.congr (fun j => ?_) fun j => ?_ <;> by_cases hij : i = j
    · rw [← hij, account_note_same, Account.held_ends _ x ha hr]
    · exact (hother j hij).1
    · subst hij
      exact iff_of_false hout (by simp [Scene.Waiting, hi, ha])
    · exact (hother j hij).2
  cases e with
  | acquire =>
    refine H.line.take (hf.first rfl) hp ?_ hother
    rw [account_note_same, hf.answers]
    rfl
  | release cache =>
    refine H.line.leave (fun hn => absurd hn hp) ?_ hout hother
    rw [account_note_same]
    rfl
  | _ => exact hplain (by simp) (by simp)

theorem Sound.finish (H : D.Sound w cancels post J s h) (hu : D.Upholds w cancels A J)
    {i wake : Nat} {e : Effect} {k : e.Answer → Program (Option α)} {x : e.Answer} {v : World σ}
    (hi : s.actors[i]? = some ⟨.ask e k, some wake⟩) (hx : s.world.finish? i wake e = some (x, v))
    (hA : A (s.note i (.ends e x) :: h)) :
    D.Sound w cancels post J (s.become i ⟨k x, none⟩ v) (s.note i (.ends e x) :: h) := by
  obtain ⟨s₀, hs₀, hp, hk⟩ := H.keeps i _ hi
  have hf := World.finishes_of_finish? hx
  have hheld : (h.account i).held = s₀.1.held := by
    rw [← state_fst D, hs₀]
    exact s₀.1.held_starts e
  have hentitled : Entitled (h.account i) e := entitled_of_held hheld hp.1
  have hnone (he : e = .acquire) : ∀ j, (h.account j).held = none := by
    subst he
    exact H.line.none_held (hf.first rfl) hentitled
  obtain ⟨hexp, hJ⟩ := hu.finish H.law H.sole hs₀ hp hnone (H.answers hf.answers) hA
  refine ⟨H.later.trans hf.later, ?_, keeps_become H.keeps (hk x hexp),
    absent_become H.absent hi, H.lined_finish hi hf hentitled⟩
  change J v.cache v.now _
  rw [hf.cache, hf.now]
  exact hJ

theorem Sound.drop (H : D.Sound w cancels post J s h) (hu : D.Upholds w cancels A J) (hc : cancels)
    {i : Nat} {e : Effect} {k : e.Answer → Program (Option α)} {wake : Option Nat}
    (hi : s.actors[i]? = some ⟨.ask e k, wake⟩) (hA : A (s.note i .leaves :: h)) :
    D.Sound w cancels post J (s.become i ⟨.done none, none⟩ (s.world.abandon i))
      (s.note i .leaves :: h) where
  later := H.later.trans (World.later_abandon ..)
  law := hu.leave hc H.law hA
  keeps := keeps_become H.keeps ⟨hc, rfl⟩
  absent := absent_become H.absent hi
  line := by
    refine H.line.leave (fun _ => rfl) ?_ ?_ fun j hij => ⟨?_, s.waiting_become hij ..⟩
    · rw [account_note_same]
      rfl
    · simp [Scene.Waiting, s.become_same hi]
    · rw [Chronicle.account_other (o := s.note i _) hij]

theorem Sound.join (H : D.Sound w cancels post J s h) {p : Program α}
    (hp : D.Obeys (fun s a => s.1 = {} ∧ post s a) p ({}, D.blank)) :
    D.Sound w cancels post J (s.enter (.ofProgram p)) h where
  later := H.later
  law := H.law
  keeps i a hi := by
    rcases Scene.enter_eq_some_iff.1 hi with hi | ⟨rfl, rfl⟩
    · exact H.keeps i a hi
    · rw [H.absent _ (List.getElem?_eq_none (Nat.le_refl _))]
      exact hp.bind fun _ _ h => h
  absent i hi := by
    refine H.absent i (Option.eq_none_iff_forall_ne_some.2 fun b hb => ?_)
    rw [Scene.enter_eq_some_iff.2 (.inl hb)] at hi
    contradiction
  line := by
    refine H.line.congr (fun _ => rfl) fun j => ⟨?_, ?_⟩
    · rintro ⟨k, wake, hj⟩
      rcases Scene.enter_eq_some_iff.1 hj with hj | ⟨_, he⟩
      · exact ⟨k, wake, hj⟩
      · cases congrArg Actor.wake he
    · rintro ⟨k, wake, hj⟩
      exact ⟨k, wake, Scene.enter_eq_some_iff.2 (.inl hj)⟩

theorem Sound.pass (H : D.Sound w cancels post J s h) (hu : D.Upholds w cancels A J)
    (hidle : ∀ a ∈ s.actors, a.Idle) {t : Nat} (ht : s.world.now ≤ t) :
    D.Sound w cancels post J { s with world := { s.world with now := t } } h where
  later := H.later.trans (World.later_at ht)
  law := by
    -- when time passes all actors are over or wait, so their accounts are at rest
    refine hu.pass H.law (fun i => ?_) ht
    cases hi : s.actors[i]? with
    | none => exact .inl (congrArg Prod.fst (H.absent i hi))
    | some a =>
      have hk := H.keeps i a hi
      have ha := hidle a (List.mem_of_getElem? hi)
      match a, hk, ha with
      | ⟨.done (some _), none⟩, hk, _ => exact .inl hk.1
      | ⟨.done none, none⟩, hk, _ => exact .inl hk.2
      | ⟨.ask e k, some wake⟩, ⟨s₀, hs₀, _⟩, ha => exact .inr ⟨s₀, e, ha, hs₀⟩
  keeps := H.keeps
  absent := H.absent
  line := H.line

/-- A law that the rules uphold holds in every scene that is reached. -/
theorem sound_of_reach {C : Cast α} (hu : D.Upholds w C.cancels A J) (hA : ∀ o h, A (o :: h) → A h)
    (hC : ∀ p, C.joins p → D.Obeys (fun s a => s.1 = {} ∧ post s a) p ({}, D.blank))
    (hline : w.line = []) (hJ : J w.cache w.now []) {s : Scene σ α} {h : Chronicle}
    (H : Scene.Reach C w s h) (hAh : A h) : D.Sound w C.cancels post J s h := by
  -- the induction is on how the scene is reached; `A` holds of all chronicles on the way
  induction H with
  | opening =>
    refine ⟨.refl w, hJ, nofun, fun _ _ => rfl, ?_⟩
    rw [show (Scene.mk [] w : Scene σ α).world.line = [] from hline]
    exact .nil _ nofun fun _ => rfl
  | step _ hs ih =>
    cases hs with
    | join hp => exact (ih hAh).join (hC _ hp)
    | start hi => exact (ih (hA _ _ hAh)).start hu hi hAh
    | finish hi hx => exact (ih (hA _ _ hAh)).finish hu hi hx hAh
    | drop hc hi => exact (ih (hA _ _ hAh)).drop hu hc hi hAh
    | pass hidle ht => exact (ih hAh).pass hu hidle ht

/-! ### What comes of it -/

theorem Sound.leaves (H : D.Sound w cancels post J s h) {i : Nat} {r : Option α}
    {wake : Option Nat} (hi : s.actors[i]? = some ⟨.done r, wake⟩) :
    Leaves cancels post (D.state i h) r := by
  cases wake with
  | none => exact H.keeps i _ hi
  | some t => exact (H.keeps i _ hi).elim

theorem Sound.result (H : D.Sound w cancels post J s h) {i : Nat} {a : α}
    (hi : s.result? i = some a) : post (D.state i h) a := by
  unfold Scene.result? at hi
  split at hi
  · rename_i r wake hr
    subst hi
    exact (H.leaves hr).2
  · contradiction

/-- Where nobody is given up, those who are over have a result. -/
theorem Sound.exists_result (H : D.Sound w cancels post J s h) (hc : ¬ cancels) (ho : s.Over)
    {i : Nat} (hi : i < s.actors.length) : ∃ a, s.result? i = some a := by
  have hi' := List.getElem?_eq_getElem hi
  obtain ⟨r, hr⟩ := ho _ (List.getElem_mem hi)
  generalize s.actors[i] = a at hi' hr
  obtain ⟨rest, wake⟩ := a
  cases hr
  cases r with
  | none => exact absurd (H.leaves hi').1 hc
  | some a => exact ⟨a, by simp [Scene.result?, hi']⟩

/-- Who has the cache is not over, and does not wait for it. -/
theorem Sound.holder (H : D.Sound w cancels post J s h) {i : Nat}
    (hh : (h.account i).held ≠ none) :
    ∃ e k wake, s.actors[i]? = some ⟨.ask e k, wake⟩ ∧ (wake ≠ none → e ≠ .acquire) := by
  rw [← state_fst D] at hh
  cases hi : s.actors[i]? with
  | none => simp [H.absent i hi] at hh
  | some a =>
    match a, hi with
    | ⟨.done (some r), wake⟩, hi => simp [(H.leaves hi).1] at hh
    | ⟨.done none, wake⟩, hi => simp [(H.leaves hi).2] at hh
    | ⟨.ask e k, wake⟩, hi =>
      refine ⟨e, k, wake, rfl, ?_⟩
      rintro hw rfl
      cases wake with
      | none => contradiction
      | some t =>
        obtain ⟨s₀, hs₀, hp, _⟩ := H.keeps i _ hi
        rw [hs₀] at hh
        exact hh ((s₀.1.held_starts .acquire).trans hp.1)

/-- When nothing more happens, whoever is not over waits. -/
theorem idle_of_atRest (hrest : s.AtRest) : ∀ a ∈ s.actors, a.Idle := by
  intro a ha
  obtain ⟨i, hi⟩ := List.getElem?_of_mem ha
  match a, hi with
  | ⟨.done r, _⟩, _ => trivial
  | ⟨.ask e k, none⟩, hi =>
    obtain ⟨s', hn⟩ := Scene.next_start hi
    exact absurd hn (hrest s')
  | ⟨.ask e k, some wake⟩, hi =>
    cases he : e.waits with
    | true => exact he
    | false =>
      obtain ⟨s', hn⟩ := Scene.next_finish hi (by rintro rfl; contradiction) (by simp [he])
      exact absurd hn (hrest s')

/-- While somebody waits for the cache, the first in line has it and goes on, or gets it. -/
theorem Sound.next_of_line (H : D.Sound w cancels post J s h) (hidle : ∀ a ∈ s.actors, a.Idle)
    {i : Nat} (hi : i ∈ s.world.line) : ∃ s', Scene.Next s' s := by
  cases hj : s.world.line.head? with
  | none => exact absurd (List.head?_eq_none_iff.1 hj) (List.ne_nil_of_mem hi)
  | some j =>
    rcases (H.line.mem_iff j).1 (List.mem_of_head? hj) with hh | ⟨k, wake, hw⟩
    · obtain ⟨e, k, wake, hw, hne⟩ := H.holder hh
      cases wake with
      | none => exact Scene.next_start hw
      | some wake => exact Scene.next_finish hw (absurd · (hne nofun)) fun _ => hidle
    · exact Scene.next_finish hw (fun _ => hj) fun _ => hidle

/-- Nobody is kept waiting: when nothing more happens, all are over. -/
theorem Sound.over (H : D.Sound w cancels post J s h) (hrest : s.AtRest) : s.Over := by
  have hidle : ∀ a ∈ s.actors, a.Idle := idle_of_atRest hrest
  intro a ha
  obtain ⟨i, hi⟩ := List.getElem?_of_mem ha
  match a, hi, hidle a ha with
  | ⟨.done r, _⟩, _, _ => exact ⟨r, rfl⟩
  | ⟨.ask e k, some wake⟩, hi, _ =>
    exfalso
    by_cases he : e = .acquire
    · subst he
      have hmem : i ∈ s.world.line := (H.line.mem_iff i).2 (.inr ⟨k, wake, hi⟩)
      obtain ⟨s', hn⟩ := H.next_of_line hidle hmem
      exact hrest s' hn
    · obtain ⟨s', hn⟩ := Scene.next_finish hi (absurd · he) fun _ => hidle
      exact hrest s' hn

end Conduct

end CloudClient
