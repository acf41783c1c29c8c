import CloudClient.Proofs.Machine.Scripted
import CloudClient.Proofs.Retry.Rounds
import Mathlib.Data.List.Induction

/-!
All the delays that a schedule grants. Whatever is asked of it, and however much time passes in
between, the delays never decrease and there are never more of them than the policy allows; what it
says next can be told from those that it has granted so far.
-/

namespace CloudClient

theorem Duration.le_max_left (a b : Duration) : a ≤ max a b := by
  change a.nanos ≤ (max a b).nanos
  rw [max_nanos]
  exact Nat.le_max_left _ _

theorem Duration.le_max_right (a b : Duration) : b ≤ max a b := by
  change b.nanos ≤ (max a b).nanos
  rw [max_nanos]
  exact Nat.le_max_right _ _

/-- The world after an inquiry with a hint, or without one: then a sample has been drawn. -/
def World.asked {σ : Type} (w : World σ) (hint : Option Duration) : World σ :=
  { w with drawn := w.drawn + hint.isNone.toNat }

namespace Schedule

/-- A repetition is asked for so many nanoseconds into a call. The server may have asked for a wait,
and the policy has a delay of its own, unless that is too long to be a duration. -/
structure Inquiry where
  elapsed : Nat
  hint : Option Duration
  computed : Option Duration

/-- What the server asks for comes before what the policy would have. -/
def Inquiry.proposed (i : Inquiry) : Option Duration :=
  i.hint.or i.computed

def answer (p : RetryPolicy) (q : Schedule) (i : Inquiry) : Verdict × Schedule :=
  q.next p i.elapsed i.proposed

/-- The inquiry that comes with a hint at this moment of a call. -/
def Inquiry.at {σ : Type} (p : RetryPolicy) (q : Schedule) (w : World σ) (started : Nat)
    (hint : Option Duration) : Inquiry :=
  ⟨w.now - started, hint, p.delay? q.retries (w.chance w.drawn)⟩

/-- The looks at chance, if there is no hint, and at the clock that an inquiry takes. -/
def looks {σ : Type} (w : World σ) (hint : Option Duration) : List Event :=
  (if hint.isNone then [⟨.sample, w.chance w.drawn, w.now, w.now⟩] else []) ++
    [⟨.clock, w.now, w.now, w.now⟩]

/-- Asking for a repetition is an inquiry. It takes no time, and but for the sample that it may draw
it leaves the world as it is. -/
theorem runs_ask_looks {σ : Type} (p : RetryPolicy) (q : Schedule) (w : World σ) (started : Nat)
    (hint : Option Duration) :
    w.Runs (q.ask p started hint) (looks w hint) (q.answer p (.at p q w started hint))
      (w.asked hint) := by
  cases hint with
  | some d =>
    rw [answer, Inquiry.proposed, Inquiry.at, Option.some_or]
    exact .ask w.answer?_clock (.done ..)
  | none =>
    rw [answer, Inquiry.proposed, Inquiry.at, Option.none_or]
    have hclock : (w.asked none).answer? .clock = some (w.now, w.asked none) :=
      World.answer?_clock _
    exact .ask (v := w.asked none) w.answer?_sample (.ask (v := w.asked none) hclock (.done ..))

theorem solo_ask {σ : Type} (p : RetryPolicy) (q : Schedule) (w : World σ) (started : Nat)
    (hint : Option Duration) :
    w.solo none (q.ask p started hint) =
      (some (q.answer p (.at p q w started hint)), w.asked hint) :=
  (runs_ask_looks p q w started hint).solo_eq

end Schedule

/-- The delay that is granted. -/
def Verdict.delay? : Verdict → Option Duration
  | .wait d => some d
  | .stop | .overflow => none

namespace Schedule

variable {p : RetryPolicy} {q q' : Schedule} {i : Inquiry}

theorem previous_le_of_wait {d : Duration} (h : q.answer p i = (.wait d, q')) :
    q.previous ≤ d := by
  obtain ⟨_, _, _, d', _, rfl⟩ := wait_of_next h
  exact Duration.le_max_right _ _

theorem hint_le_of_wait {d : Duration} (h : q.answer p i = (.wait d, q')) :
    i.hint.getD .zero ≤ d := by
  obtain ⟨_, _, _, d', hproposed, rfl⟩ := wait_of_next h
  cases hhint : i.hint with
  | none => exact Nat.zero_le _
  | some hint =>
    rw [Inquiry.proposed, hhint, Option.some_or] at hproposed
    cases hproposed
    exact Duration.le_max_left _ _

/-- Only a delay that is granted changes a schedule. -/
theorem eq_of_refused {verdict : Verdict} (h : q.answer p i = (verdict, q'))
    (hrefused : verdict.delay? = none) : q' = q := by
  rw [answer] at h
  by_cases hleft : q.retries < p.maxRetries.toNat
  · cases hp : i.proposed with
    | none =>
      rw [hp, next_none hleft] at h
      exact (congrArg Prod.snd h).symm
    | some d =>
      rw [hp, next_some hleft] at h
      split at h
      · exact (congrArg Prod.snd h).symm
      · split at h
        · exact (congrArg Prod.snd h).symm
        · cases h
          cases hrefused
  · rw [next_of_spent (Nat.le_of_not_lt hleft)] at h
    exact (congrArg Prod.snd h).symm

/-! ### One inquiry after the other -/

/-- The delays that were granted, and the schedule as it is now. -/
structure Ledger where
  delays : List Duration := []
  schedule : Schedule := {}

def Ledger.enter (p : RetryPolicy) (l : Ledger) (i : Inquiry) : Ledger :=
  let (verdict, q) := l.schedule.answer p i
  ⟨l.delays ++ verdict.delay?.toList, q⟩

/-- What comes of some inquiries. -/
def ledger (p : RetryPolicy) (asked : List Inquiry) : Ledger :=
  asked.foldl (Ledger.enter p) {}

theorem ledger_append (asked : List Inquiry) (i : Inquiry) :
    ledger p (asked ++ [i]) = (ledger p asked).enter p i := by
  rw [ledger, List.foldl_append]
  rfl

/-- The schedule keeps count of the delays, and the last of them is the longest. -/
structure Ledger.Sound (p : RetryPolicy) (l : Ledger) : Prop where
  schedule : l.schedule = .after l.delays
  limited : l.delays.length ≤ p.maxRetries.toNat
  ascending : l.delays.Pairwise (· ≤ ·)
  longest : ∀ d ∈ l.delays, d ≤ l.schedule.previous

namespace Ledger

variable {l : Ledger}

theorem enter_of_answer {verdict : Verdict} (h : l.schedule.answer p i = (verdict, q')) :
    l.enter p i = ⟨l.delays ++ verdict.delay?.toList, q'⟩ := by
  rw [enter, h]

theorem enter_of_refused {verdict : Verdict} (h : l.schedule.answer p i = (verdict, q'))
    (hrefused : verdict.delay? = none) : l.enter p i = l := by
  rw [enter_of_answer h, eq_of_refused h hrefused, hrefused, Option.toList_none, List.append_nil]

theorem Sound.enter (h : l.Sound p) (i : Inquiry) : (l.enter p i).Sound p := by
  cases hanswer : l.schedule.answer p i with
  | mk verdict q' =>
    cases verdict with
    | stop =>
      rwa [enter_of_refused hanswer rfl]
    | overflow =>
      rwa [enter_of_refused hanswer rfl]
    | wait d =>
      have henter : l.enter p i = ⟨l.delays ++ [d], q'⟩ := enter_of_answer hanswer
      obtain ⟨hleft, rfl, _, _⟩ := wait_of_next hanswer
      have hcount : l.schedule.retries = l.delays.length := by
        rw [h.schedule]
        rfl
      have hlongest : ∀ e ∈ l.delays, e ≤ d := fun e he =>
        Nat.le_trans (h.longest e he) (previous_le_of_wait hanswer)
      rw [henter]
      refine ⟨?_, ?_, ?_, ?_⟩
      · rw [after_append, ← h.schedule]
      · rw [List.length_append, ← hcount]
        exact hleft
      · refine List.pairwise_append.2 ⟨h.ascending, List.pairwise_singleton _ _,
          fun e he e' he' => ?_⟩
        rw [List.mem_singleton.1 he']
        exact hlongest e he
      · exact List.forall_mem_append.2 ⟨hlongest, List.forall_mem_singleton.2 (Nat.le_refl _)⟩

end Ledger

theorem sound_ledger (p : RetryPolicy) (asked : List Inquiry) : (ledger p asked).Sound p := by
  induction asked using List.reverseRecOn with
  | nil => exact ⟨rfl, Nat.zero_le _, .nil, nofun⟩
  | append_singleton asked i ih =>
    rw [ledger_append]
    exact ih.enter i

/-- What the schedule may say next, and what becomes of it. -/
def Ledger.Fair (p : RetryPolicy) (l : Ledger) (i : Inquiry) : Verdict × Schedule → Prop
  | (.wait d, q) =>
    l.delays.length < p.maxRetries.toNat ∧ q.retries = l.delays.length + 1 ∧
      (∀ e ∈ l.delays, e ≤ d) ∧ i.hint.getD .zero ≤ d ∧
      i.elapsed + d.nanos ≤ p.maxElapsed.nanos
  | (.stop, q) =>
    q = l.schedule ∧ (l.delays.length = p.maxRetries.toNat ∨ ∃ d, i.proposed = some d ∧
      p.maxElapsed.nanos < i.elapsed + (max d (l.delays.getLast?.getD .zero)).nanos)
  | (.overflow, q) =>
    q = l.schedule ∧ l.delays.length < p.maxRetries.toNat ∧ ∀ d, i.proposed = some d →
      2 ^ 64 * 10 ^ 9 ≤ i.elapsed + (max d (l.delays.getLast?.getD .zero)).nanos

theorem Ledger.Sound.fair {l : Ledger} (h : l.Sound p) (i : Inquiry) :
    l.Fair p i (l.schedule.answer p i) := by
  cases hanswer : l.schedule.answer p i with
  | mk verdict q' =>
    cases verdict with
    | wait d =>
      obtain ⟨hleft, rfl, htime, _⟩ := wait_of_next hanswer
      rw [h.schedule] at hleft
      refine ⟨hleft, ?_, fun e he => ?_, hint_le_of_wait hanswer, htime⟩
      · rw [h.schedule]
        rfl
      · exact Nat.le_trans (h.longest e he) (previous_le_of_wait hanswer)
    | stop =>
      refine ⟨eq_of_refused hanswer rfl, ?_⟩
      have hexhausted := exhausted_of_next hanswer
      rw [h.schedule] at hexhausted
      rcases hexhausted with hspent | ⟨d, hd, hlate, _⟩
      · exact .inl (Nat.le_antisymm h.limited hspent)
      · exact .inr ⟨d, hd, hlate⟩
    | overflow =>
      have hover := overruns_of_next hanswer
      rw [h.schedule] at hover
      exact ⟨eq_of_refused hanswer rfl, hover⟩

end Schedule

/-- Whatever is asked of a schedule, and whenever, the delays that it has granted never decrease,
and it counts no more of them than the policy allows. What it says next is fair: it grants a delay
that is no shorter than the hint and the delays before it and that is over in time, or it is not
changed and no repetition is left or this one would be too late. All that a call asks of it, at any
moment, are such inquiries. -/
theorem fair_after_inquiries (p : RetryPolicy) (asked : List Schedule.Inquiry) :
    let l := Schedule.ledger p asked
    l.schedule.retries = l.delays.length ∧ l.delays.length ≤ p.maxRetries.toNat ∧
      l.delays.Pairwise (· ≤ ·) ∧ (∀ i, l.Fair p i (l.schedule.answer p i)) ∧
      ∀ {σ : Type} (w : World σ) (started : Nat) (hint : Option Duration),
        w.solo none (l.schedule.ask p started hint) =
          (some (l.schedule.answer p (.at p l.schedule w started hint)), w.asked hint) := by
  intro l
  have hsound : l.Sound p := Schedule.sound_ledger p asked
  refine ⟨?_, hsound.limited, hsound.ascending, hsound.fair,
    fun w started hint => Schedule.solo_ask p l.schedule w started hint⟩
  rw [hsound.schedule]
  rfl

/-- A hint between two delays of the policy. -/
def Schedule.Inquiry.hinted : List Schedule.Inquiry :=
  [⟨0, none, some (.ofMillis 500)⟩, ⟨10 ^ 9, some (.ofSeconds 3), some (.ofSeconds 1)⟩,
    ⟨5 * 10 ^ 9, none, some (.ofSeconds 2)⟩]

theorem fair_after_hinted :
    let l := Schedule.ledger .standard Schedule.Inquiry.hinted
    let late : Schedule.Inquiry := ⟨9 * 10 ^ 9, none, some (.ofSeconds 4)⟩
    l.delays = [.ofMillis 500, .ofSeconds 3, .ofSeconds 3] ∧
      (l.schedule.answer .standard late).1 = .stop ∧ l.delays.Pairwise (· ≤ ·) ∧
      l.Fair .standard late (l.schedule.answer .standard late) :=
  have hfair := fair_after_inquiries .standard Schedule.Inquiry.hinted
  ⟨by decide, by decide, hfair.2.2.1, hfair.2.2.2.1 _⟩

end CloudClient
