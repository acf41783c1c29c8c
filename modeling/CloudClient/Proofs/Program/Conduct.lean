import CloudClient.Retry.Repeat
import CloudClient.Token.Grant

/-!
Rules of conduct for programs. A conduct says which effects a program may start, given what it has
done so far, and which answers it may count on; the cache is only taken by those who do not have it
and only given back by those who have. `Conduct.Obeys` follows a program effect by effect, so that
its rules compose: one for two programs in a row, and one for attempts that are repeated.
-/

namespace CloudClient

/-- Whether a request asks for a token: all others carry one. -/
def Http.Request.asksForToken (r : Http.Request) : Bool :=
  r.bearer?.isNone

/-- One move in the life of a task. -/
inductive Deed where
  | starts (e : Effect)
  | ends (e : Effect) (x : e.Answer)
  /-- The task is given up. -/
  | leaves

/-- What a task has done since it took the cache; nothing while it does not have it. -/
structure Account where
  /-- What it found in the cache. -/
  held : Option (Option Token) := none
  /-- The time of day at which it looked whether that will do, until it waits. -/
  checked : Option Timestamp := none
  /-- The last request for a token. -/
  asked : Option Http.Request := none
  /-- The token in the reply, if one came; it is made out with the next time of day. -/
  answered : Option (Option TokenResponse) := none
  obtained : Option Token := none
  deriving DecidableEq, Repr

namespace Account

/-- The token that came back for a request. -/
def tokenIn? : Except NetworkFailure Http.Response → Option TokenResponse
  | .ok response => (TokenResponse.ofHttp response).toOption
  | .error _ => none

def readsTime (a : Account) (now : Timestamp) : Account :=
  match a.held, a.answered with
  | none, _ => a
  | some _, some (some t) => { a with answered := none, obtained := some (Token.ofResponse t now) }
  | some _, _ => { a with checked := some now }

def step (a : Account) : Deed → Account
  | .starts (.send r) =>
    if r.asksForToken then { a with checked := none, asked := some r, answered := none }
    else { a with checked := none }
  | .starts (.sleep _) => { a with checked := none }
  | .starts .acquire => { a with checked := none }
  | .starts _ => a
  | .ends (.send r) x => if r.asksForToken then { a with answered := some (tokenIn? x) } else a
  | .ends .acquire x => { held := some x }
  | .ends (.release _) _ => {}
  | .ends .timeOfDay now => a.readsTime now
  | .ends .. => a
  | .leaves => {}

theorem held_starts (a : Account) (e : Effect) : (a.step (.starts e)).held = a.held := by
  cases e with
  | send r =>
    simp only [step]
    split <;> rfl
  | _ => rfl

/-- Only taking the cache and giving it back change who has it. -/
theorem held_ends (a : Account) {e : Effect} (x : e.Answer) (ha : e ≠ .acquire)
    (hr : ∀ y, e ≠ .release y) : (a.step (.ends e x)).held = a.held := by
  cases e with
  | acquire => exact absurd rfl ha
  | release y => exact absurd rfl (hr y)
  | send r =>
    simp only [step]
    split <;> rfl
  | timeOfDay =>
    simp only [step, readsTime]
    split <;> simp_all
  | _ => rfl

end Account

/-- Rules for tasks that keep notes of a type. -/
structure Conduct (T : Type) where
  blank : T
  note : Account × T → Deed → T
  /-- What a task may start. -/
  may : Account × T → Effect → Prop
  /-- The answers to what it has started on which it counts. -/
  expects : Account × T → (e : Effect) → e.Answer → Prop

namespace Conduct

variable {T σ α β : Type} (D : Conduct T)

def step (s : Account × T) (d : Deed) : Account × T :=
  (s.1.step d, D.note s d)

def after (s : Account × T) (e : Effect) (x : e.Answer) : Account × T :=
  D.step (D.step s (.starts e)) (.ends e x)

/-- The cache is for one task at a time. -/
def Entitled (a : Account) : Effect → Prop
  | .acquire => a.held = none
  | .release _ => a.held ≠ none
  | _ => True

def Permits (s : Account × T) (e : Effect) : Prop :=
  Entitled s.1 e ∧ D.may s e

/-- Whether a program keeps to the rules from a state on and ends with `post`. -/
def Obeys (post : Account × T → α → Prop) : Program α → Account × T → Prop
  | .done a, s => post s a
  | .ask e k, s =>
    D.Permits s e ∧ ∀ x, D.expects (D.step s (.starts e)) e x → Obeys post (k x) (D.after s e x)

variable {D}

theorem obeys_bind_iff {post : Account × T → β → Prop} {p : Program α} {f : α → Program β}
    {s : Account × T} :
    D.Obeys post (p >>= f) s ↔ D.Obeys (fun s' a => D.Obeys post (f a) s') p s := by
  induction p generalizing s with
  | done a => rfl
  | ask e k ih =>
    rw [Program.ask_bind]
    simp only [Obeys, ih]

theorem Obeys.mono {post post' : Account × T → α → Prop} {p : Program α} {s : Account × T}
    (h : D.Obeys post p s) (hp : ∀ s' a, post s' a → post' s' a) : D.Obeys post' p s := by
  induction p generalizing s with
  | done a => exact hp s a h
  | ask e k ih => exact ⟨h.1, fun x hx => ih x (h.2 x hx)⟩

theorem Obeys.bind {mid : Account × T → α → Prop} {post : Account × T → β → Prop} {p : Program α}
    {f : α → Program β} {s : Account × T} (h : D.Obeys mid p s)
    (hf : ∀ s' a, mid s' a → D.Obeys post (f a) s') : D.Obeys post (p >>= f) s :=
  obeys_bind_iff.2 (h.mono hf)

/-! ### Repeated attempts -/

/-- In this state the clock can be read, and that changes nothing. -/
def Timed (D : Conduct T) (s : Account × T) : Prop :=
  D.Permits s .clock ∧ ∀ x, D.after s .clock x = s

/-- In this state clock, chance and sleep are free and change nothing. -/
structure Quiet (D : Conduct T) (s : Account × T) : Prop where
  clock : D.Timed s
  sample : D.Permits s .sample ∧ ∀ x, D.after s .sample x = s
  sleep : ∀ d, D.Permits s (.sleep d) ∧ ∀ x, D.after s (.sleep d) x = s

theorem obeys_ask {s : Account × T} (hs : D.Quiet s) {Q : Account × T → Verdict × Schedule → Prop}
    (h : ∀ r, Q s r) (p : RetryPolicy) (q : Schedule) (started : Nat) (hint : Option Duration) :
    D.Obeys Q (q.ask p started hint) s := by
  have hclock (proposed : Option Duration) :
      D.Obeys Q (do return q.next p ((← Program.clock) - started) proposed) s := by
    refine ⟨hs.clock.1, fun x _ => ?_⟩
    rw [hs.clock.2]
    exact h _
  cases hint with
  | some d => exact hclock (some d)
  | none =>
    refine ⟨hs.sample.1, fun x _ => ?_⟩
    rw [hs.sample.2]
    exact hclock _

/-- `I` holds before every attempt, and after one that is to be repeated all is quiet. -/
theorem obeys_repeatFrom {p : RetryPolicy} {again : σ → Error → Bool}
    {attempt : σ → Program (Except Failure α × σ)} {started : Nat} {I : σ → Account × T → Prop}
    {Q : Account × T → Except Failure α × σ → Prop}
    (step : ∀ x s, I x s → D.Obeys (fun s' r => Q s' r ∧
      ∀ e, r.1 = .error (.error e) → again r.2 e = true →
        I r.2 s' ∧ D.Quiet s' ∧ Q s' (.error .overflow, r.2)) (attempt x) s)
    (left : Nat) (q : Schedule) {x : σ} {s : Account × T} (hI : I x s) :
    D.Obeys Q (Program.repeatFrom p again attempt started left q x) s := by
  induction left generalizing q x s with
  | zero => exact (step x s hI).mono fun _ _ h => h.1
  | succ left ih =>
    rw [Program.repeatFrom]
    refine (step x s hI).bind ?_
    rintro s' ⟨result, y⟩ ⟨hpost, hagain⟩
    match result, hpost, hagain with
    | .ok a, hpost, _ => exact hpost
    | .error .overflow, hpost, _ => exact hpost
    | .error (.error e), hpost, hagain =>
      dsimp only
      split
      · -- the schedule is asked, which changes nothing for the conduct, and its verdict decides
        rename_i he
        obtain ⟨hI', hq, hover⟩ := hagain e rfl he
        refine (obeys_ask hq (Q := fun s _ => s = s') (fun _ => rfl) ..).bind ?_
        rintro _ ⟨verdict, q'⟩ rfl
        cases verdict with
        | stop => exact hpost
        | overflow => exact hover
        | wait d =>
          refine ⟨(hq.sleep d).1, fun u _ => ?_⟩
          rw [(hq.sleep d).2]
          exact ih q' hI'
      · exact hpost

theorem obeys_repeating {p : RetryPolicy} {again : σ → Error → Bool}
    {attempt : σ → Program (Except Failure α × σ)} {I : σ → Account × T → Prop}
    {Q : Account × T → Except Failure α × σ → Prop}
    (step : ∀ x s, I x s → D.Obeys (fun s' r => Q s' r ∧
      ∀ e, r.1 = .error (.error e) → again r.2 e = true →
        I r.2 s' ∧ D.Quiet s' ∧ Q s' (.error .overflow, r.2)) (attempt x) s)
    {x : σ} {s : Account × T} (hI : I x s) (hs : D.Timed s) :
    D.Obeys Q (Program.repeating p again attempt x) s := by
  refine ⟨hs.1, fun started _ => ?_⟩
  rw [hs.2]
  exact obeys_repeatFrom step _ _ hI

theorem obeys_retrying {p : RetryPolicy} {again : Error → Bool}
    {attempt : Program (Except Failure α)} {I : Account × T → Prop}
    {Q : Account × T → Except Failure α → Prop}
    (step : ∀ s, I s → D.Obeys (fun s' r => Q s' r ∧
      ∀ e, r = .error (.error e) → again e = true →
        I s' ∧ D.Quiet s' ∧ Q s' (.error .overflow)) attempt s)
    {s : Account × T} (hI : I s) (hs : D.Timed s) :
    D.Obeys Q (Program.retrying p again attempt) s := by
  refine (obeys_repeating (I := fun () => I) (Q := fun s r => Q s r.1) ?_ hI hs).bind ?_
  · intro _ s hs
    exact (step s hs).bind fun s' r h => h
  · rintro s' ⟨result, _⟩ h
    exact h

end Conduct

end CloudClient
