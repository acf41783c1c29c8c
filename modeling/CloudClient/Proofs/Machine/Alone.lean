import CloudClient.Machine.Solo
import CloudClient.Proofs.Machine.Timer
import CloudClient.Proofs.Machine.World

/-!
The history of a program that has a world to itself: its effects in order, each with its answer and
with the times at which it started and was over. `World.Runs` relates a program to its history, its
result and the world afterwards; a run of two programs in a row splits into a run of each, so what a
run does is proved one part of a program at a time.
-/

namespace CloudClient

/-- An effect that is over. -/
structure Event where
  effect : Effect
  answer : effect.Answer
  began : Nat
  ended : Nat

namespace Event

/-- The request that was sent. -/
def sent? : Event → Option Sent
  | ⟨.send r, _, began, _⟩ => some ⟨began, r⟩
  | _ => none

/-- All requests that were sent. -/
def requests (h : List Event) : List Sent :=
  h.filterMap sent?

theorem requests_append (h₁ h₂ : List Event) : requests (h₁ ++ h₂) = requests h₁ ++ requests h₂ :=
  List.filterMap_append

end Event

namespace World

variable {σ α β : Type}

/-- The answer to an effect, for which the clock moves on; none when the cache is not given back. -/
def answer? (w : World σ) (e : Effect) : Option (e.Answer × World σ) :=
  let (v, wake) := w.start 0 e
  { v with now := max v.now wake }.finish? 0 wake e

/-- All that happens until a program ends, or waits for what will never come. -/
def history : Program α → World σ → List Event
  | .done _, _ => []
  | .ask e k, w =>
    match w.answer? e with
    | some (x, v) => ⟨e, x, w.now, v.now⟩ :: history (k x) v
    | none => []

inductive Runs : World σ → Program α → List Event → α → World σ → Prop where
  | done (w : World σ) (a : α) : Runs w (.done a) [] a w
  | ask {w v w' : World σ} {e : Effect} {k : e.Answer → Program α} {x : e.Answer}
      {h : List Event} {a : α} :
      w.answer? e = some (x, v) → Runs v (k x) h a w' →
      Runs w (.ask e k) (⟨e, x, w.now, v.now⟩ :: h) a w'

/-! ### The answers -/

/-- When a reply to a request comes in. -/
def replyTime (w : World σ) (r : Http.Request) : Nat :=
  max w.now (w.start 0 (.send r)).2

@[simp] theorem answer?_send (w : World σ) (r : Http.Request) :
    w.answer? (.send r) = some ((w.server.reply w.state r).1,
      { w with
        sent := w.sent ++ [⟨w.now, r⟩]
        now := w.replyTime r
        state := (w.server.reply w.state r).2 }) := by
  simp only [answer?, start, finish?, replyTime, Nat.le_max_right, if_true]

@[simp] theorem answer?_sleep (w : World σ) (d : Duration) :
    w.answer? (.sleep d) = some ((), { w with now := max w.now (w.after d) }) := by
  simp only [answer?, start, finish?, Nat.le_max_right, if_true]

theorem answer?_acquire (w : World σ) (h : w.line = []) :
    w.answer? .acquire = some (w.cache, { w with line := [0] }) := by
  simp [answer?, start, finish?, h]

@[simp] theorem answer?_release (w : World σ) (cache : Option Token) :
    w.answer? (.release cache) = some ((), { w with cache, line := w.line.erase 0 }) := by
  simp [answer?, start, finish?]

@[simp] theorem answer?_clock (w : World σ) : w.answer? .clock = some (w.now, w) := by
  simp [answer?, start, finish?]

@[simp] theorem answer?_timeOfDay (w : World σ) :
    w.answer? .timeOfDay = some (w.timeOfDay w.now, w) := by
  simp [answer?, start, finish?]

@[simp] theorem answer?_sample (w : World σ) :
    w.answer? .sample = some (w.chance w.drawn, { w with drawn := w.drawn + 1 }) := by
  simp [answer?, start, finish?]

theorem sent_answer? {w v : World σ} {e : Effect} {x : e.Answer} (h : w.answer? e = some (x, v)) :
    v.sent = w.sent ++ Event.requests [⟨e, x, w.now, v.now⟩] := by
  rw [(finishes_of_finish? h).sent]
  cases e with
  | send r => rfl
  | _ => exact (List.append_nil _).symm

theorem cache_answer? {w v : World σ} {e : Effect} {x : e.Answer} (h : w.answer? e = some (x, v)) :
    v.cache = e.leaving w.cache := by
  rw [(finishes_of_finish? h).cache]
  exact congrArg e.leaving (w.start_cache 0 e)

theorem later_answer? {w v : World σ} {e : Effect} {x : e.Answer}
    (h : w.answer? e = some (x, v)) : w.Later v := by
  -- the effect starts, the clock moves on to where it may be over, and it is over
  have hstart : w.Later (w.start 0 e).1 := later_start w 0 e
  have hwait : (w.start 0 e).1.Later
      { (w.start 0 e).1 with now := max (w.start 0 e).1.now (w.start 0 e).2 } :=
    later_at (Nat.le_max_left _ _)
  exact (hstart.trans hwait).trans (finishes_of_finish? h).later

/-- The longest that a wait can take past the end of the clock, with what a timer may go off too
late. -/
def longestStep : Nat := Timer.far.nanos + Duration.nanosPerMilli

/-- Only effects that wait take time. -/
theorem now_answer?_le {w v : World σ} {e : Effect} {x : e.Answer}
    (h : w.answer? e = some (x, v)) :
    v.now ≤ max w.now Timer.horizon + e.waiting * longestStep := by
  have hnow : v.now = max (w.start 0 e).1.now (w.start 0 e).2 := (finishes_of_finish? h).now
  have hwake : (w.start 0 e).2 ≤ max w.now Timer.horizon + e.waiting * longestStep := by
    cases e with
    | send r =>
      have hdue : (w.start 0 (.send r)).2 ≤ Timer.horizon := Nat.min_le_right _ _
      omega
    | sleep d =>
      have hend : w.after d < _ := w.timer.stop_lt w.now d
      rw [show (Effect.sleep d).waiting = 1 from rfl, Nat.one_mul, longestStep]
      change w.after d ≤ _
      omega
    | _ => exact Nat.le_trans (Nat.le_max_left _ _) (Nat.le_add_right _ _)
  rw [start_now] at hnow
  omega

/-! ### Runs and their parts -/

theorem runs_done_iff {w v : World σ} {a b : α} {h : List Event} :
    w.Runs (.done a) h b v ↔ h = [] ∧ b = a ∧ v = w := by
  constructor
  · intro H
    cases H
    exact ⟨rfl, rfl, rfl⟩
  · rintro ⟨rfl, rfl, rfl⟩
    exact .done _ _

theorem runs_ask_iff {w w' : World σ} {e : Effect} {k : e.Answer → Program α} {h : List Event}
    {a : α} :
    w.Runs (.ask e k) h a w' ↔
      ∃ x v h', w.answer? e = some (x, v) ∧ h = ⟨e, x, w.now, v.now⟩ :: h' ∧
        v.Runs (k x) h' a w' := by
  constructor
  · intro H
    cases H with
    | ask hx H => exact ⟨_, _, _, hx, rfl, H⟩
  · rintro ⟨x, v, h', hx, rfl, H⟩
    exact .ask hx H

theorem runs_bind_iff {w w' : World σ} {p : Program α} {f : α → Program β} {h : List Event}
    {b : β} :
    w.Runs (p >>= f) h b w' ↔
      ∃ a v h₁ h₂, h = h₁ ++ h₂ ∧ w.Runs p h₁ a v ∧ v.Runs (f a) h₂ b w' := by
  induction p generalizing w h with
  | done a =>
    rw [Program.done_bind]
    constructor
    · intro H
      exact ⟨a, w, [], h, rfl, .done w a, H⟩
    · rintro ⟨a', v, h₁, h₂, rfl, H₁, H₂⟩
      obtain ⟨rfl, rfl, rfl⟩ := runs_done_iff.1 H₁
      exact H₂
  | ask e k ih =>
    rw [Program.ask_bind, runs_ask_iff]
    constructor
    · rintro ⟨x, u, h', hx, rfl, H⟩
      obtain ⟨a, v, h₁, h₂, rfl, H₁, H₂⟩ := (ih x).1 H
      exact ⟨a, v, _, h₂, rfl, .ask hx H₁, H₂⟩
    · rintro ⟨a, v, h₁, h₂, rfl, H₁, H₂⟩
      obtain ⟨x, u, h', hx, rfl, H'⟩ := runs_ask_iff.1 H₁
      exact ⟨x, u, h' ++ h₂, hx, rfl, (ih x).2 ⟨a, v, h', h₂, rfl, H', H₂⟩⟩

theorem Runs.later {w w' : World σ} {p : Program α} {h : List Event} {a : α}
    (H : w.Runs p h a w') : w.Later w' := by
  induction H with
  | done w a => exact .refl w
  | ask hx _ ih => exact (later_answer? hx).trans ih

/-- The requests of a history are those that the server got. -/
theorem Runs.sent_eq {w w' : World σ} {p : Program α} {h : List Event} {a : α}
    (H : w.Runs p h a w') : w'.sent = w.sent ++ Event.requests h := by
  induction H with
  | done w a => exact (List.append_nil _).symm
  | ask hx _ ih =>
    rw [ih, sent_answer? hx, List.append_assoc, ← Event.requests_append]
    rfl

/-! ### Runs and the solo execution -/

theorem cutoff?_none (w : World σ) (wake : Nat) : w.cutoff? wake none = none := by
  simp [cutoff?]

theorem solo_ask_of_answer? {w v : World σ} {e : Effect} {k : e.Answer → Program α} {x : e.Answer}
    (h : w.answer? e = some (x, v)) : w.solo none (.ask e k) = v.solo none (k x) := by
  simp only [answer?] at h
  simp only [solo, cutoff?_none, h]

theorem history_ask_of_answer? {w v : World σ} {e : Effect} {k : e.Answer → Program α}
    {x : e.Answer} (h : w.answer? e = some (x, v)) :
    w.history (.ask e k) = ⟨e, x, w.now, v.now⟩ :: v.history (k x) := by
  simp only [history, h]

theorem Runs.solo_eq {w w' : World σ} {p : Program α} {h : List Event} {a : α}
    (H : w.Runs p h a w') : w.solo none p = (some a, w') := by
  induction H with
  | done w a => rfl
  | ask hx _ ih => rw [solo_ask_of_answer? hx, ih]

theorem Runs.history_eq {w w' : World σ} {p : Program α} {h : List Event} {a : α}
    (H : w.Runs p h a w') : w.history p = h := by
  induction H with
  | done w a => rfl
  | ask hx _ ih => rw [history_ask_of_answer? hx, ih]

theorem runs_of_solo {w w' : World σ} {p : Program α} {a : α}
    (h : w.solo none p = (some a, w')) : w.Runs p (w.history p) a w' := by
  induction p generalizing w with
  | done b =>
    cases h
    exact .done _ _
  | ask e k ih =>
    cases hx : w.answer? e with
    | none =>
      simp only [answer?] at hx
      simp only [solo, cutoff?_none, hx] at h
      simp at h
    | some r =>
      obtain ⟨x, v⟩ := r
      rw [solo_ask_of_answer? hx] at h
      rw [history_ask_of_answer? hx]
      exact .ask hx (ih x h)

end World

end CloudClient
