import CloudClient.Proofs.Machine.Alone
import CloudClient.Proofs.Program.Conduct

/-!
The course of a program that has a world to itself. It comes to an end when the program keeps to
rules of conduct that count on nothing and finds the cache free; how often the program may wait
tells how long it takes.
-/

namespace CloudClient

namespace Program

variable {σ α β : Type} {P : Effect → Prop}

/-- All effects are of a kind, and `n` of them at most are waits. -/
def Bounded (P : Effect → Prop) : Nat → Program α → Prop
  | _, .done _ => True
  | n, .ask e k => P e ∧ e.waiting ≤ n ∧ ∀ x, Bounded P (n - e.waiting) (k x)

theorem Bounded.mono {Q : Effect → Prop} {n m : Nat} {p : Program α} (h : p.Bounded P n)
    (hP : ∀ e, P e → Q e) (hn : n ≤ m) : p.Bounded Q m := by
  induction p generalizing n m with
  | done a => trivial
  | ask e k ih =>
    obtain ⟨he, hw, hk⟩ := h
    exact ⟨hP e he, Nat.le_trans hw hn, fun x => ih x (hk x) (Nat.sub_le_sub_right hn _)⟩

theorem Bounded.bind {n m : Nat} {p : Program α} {f : α → Program β} (h : p.Bounded P n)
    (hf : ∀ a, (f a).Bounded P m) : (p >>= f).Bounded P (n + m) := by
  induction p generalizing n with
  | done a => exact (hf a).mono (fun _ => id) (Nat.le_add_left m n)
  | ask e k ih =>
    obtain ⟨he, hw, hk⟩ := h
    refine ⟨he, Nat.le_trans hw (Nat.le_add_right n m), fun x => ?_⟩
    rw [Nat.sub_add_comm hw]
    exact ih x (hk x)

theorem Bounded.bind_le {n m l : Nat} {p : Program α} {f : α → Program β} (h : p.Bounded P n)
    (hf : ∀ a, (f a).Bounded P m) (hl : n + m ≤ l) : (p >>= f).Bounded P l :=
  (h.bind hf).mono (fun _ => id) hl

/-! ### Repeated attempts -/

theorem bounded_ask (hc : P .clock) (hs : P .sample) (p : RetryPolicy) (q : Schedule)
    (started : Nat) (hint : Option Duration) : (q.ask p started hint).Bounded P 0 := by
  cases hint with
  | some d => exact ⟨hc, Nat.le_refl _, fun _ => trivial⟩
  | none => exact ⟨hs, Nat.le_refl _, fun _ => ⟨hc, Nat.le_refl _, fun _ => trivial⟩⟩

variable {p : RetryPolicy} {again : β → Error → Bool}
  {attempt : β → Program (Except Failure α × β)} {n : Nat}

theorem bounded_repeatFrom (hc : P .clock) (hs : P .sample) (hd : ∀ d, P (.sleep d))
    (h : ∀ x, (attempt x).Bounded P n) (started left : Nat) (q : Schedule) (x : β) :
    (repeatFrom p again attempt started left q x).Bounded P (left * (n + 1) + n) := by
  induction left generalizing q x with
  | zero => exact (h x).mono (fun _ => id) (Nat.le_add_left n _)
  | succ left ih =>
    rw [repeatFrom, Nat.succ_mul, Nat.add_comm]
    refine (h x).bind ?_
    rintro ⟨(e | _) | a, y⟩
    · dsimp only
      split
      · refine (bounded_ask hc hs p q started e.wait?).bind_le (m := left * (n + 1) + n + 1) ?_ ?_
        · rintro ⟨verdict, q'⟩
          cases verdict with
          | stop => trivial
          | overflow => trivial
          | wait d => exact ⟨hd d, Nat.le_add_left 1 _, fun _ => ih q' y⟩
        · omega
      · trivial
    · trivial
    · trivial

theorem bounded_repeating (hc : P .clock) (hs : P .sample) (hd : ∀ d, P (.sleep d))
    (h : ∀ x, (attempt x).Bounded P n) (x : β) :
    (repeating p again attempt x).Bounded P (p.maxRetries.toNat * (n + 1) + n) :=
  ⟨hc, Nat.zero_le _, fun _ => bounded_repeatFrom hc hs hd h _ _ _ _⟩

theorem bounded_retrying {again : Error → Bool} {attempt : Program (Except Failure α)}
    (hc : P .clock) (hs : P .sample) (hd : ∀ d, P (.sleep d)) (h : attempt.Bounded P n) :
    (retrying p again attempt).Bounded P (p.maxRetries.toNat * (n + 1) + n) := by
  refine (bounded_repeating hc hs hd (fun _ => h.bind_le (m := 0) ?_ (Nat.le_refl n)) ()).bind_le
    (m := 0) ?_ (Nat.le_refl _)
  · intro result
    trivial
  · rintro ⟨result, _⟩
    trivial

end Program

namespace World

variable {σ α : Type} {w w' : World σ} {p : Program α} {h : List Event} {a : α}

/-- Every wait takes its time at most. -/
theorem Runs.bounded {P : Effect → Prop} {n : Nat} (H : w.Runs p h a w') (hp : p.Bounded P n) :
    (∀ e ∈ h, P e.effect) ∧ w'.now ≤ max w.now Timer.horizon + n * longestStep := by
  induction H generalizing n with
  | done w a => exact ⟨by simp, Nat.le_trans (Nat.le_max_left _ _) (Nat.le_add_right _ _)⟩
  | @ask w v w' e k x h a hx _ ih =>
    obtain ⟨he, hn, hk⟩ := hp
    obtain ⟨hall, hnow⟩ := ih (hk x)
    refine ⟨List.forall_mem_cons.2 ⟨he, hall⟩, ?_⟩
    have hstep : v.now ≤ max w.now Timer.horizon + e.waiting * longestStep := now_answer?_le hx
    have hsum : n * longestStep = e.waiting * longestStep + (n - e.waiting) * longestStep := by
      rw [← Nat.add_mul, Nat.add_sub_cancel' hn]
    omega

end World

/-! ### Runs that come to an end -/

/-- The line for the cache when nobody else is in it. -/
def Account.line (a : Account) : List Nat :=
  if a.held.isSome then [0] else []

theorem Account.line_of_held {a b : Account} (h : a.held = b.held) : a.line = b.line := by
  rw [line, line, h]

/-- An effect that a task is entitled to is answered when nobody else is in line. -/
theorem World.exists_answer? {σ : Type} {w : World σ} {a : Account} (e : Effect)
    (he : Conduct.Entitled a e) (hw : w.line = a.line) :
    ∃ x v, w.answer? e = some (x, v) ∧ v.line = ((a.step (.starts e)).step (.ends e x)).line := by
  have hkept (x : e.Answer) (ha : e ≠ .acquire) (hr : ∀ y, e ≠ .release y) :
      w.line = ((a.step (.starts e)).step (.ends e x)).line := by
    rw [hw]
    refine Account.line_of_held ?_
    rw [Account.held_ends _ x ha hr, Account.held_starts]
  cases e with
  | send r => exact ⟨_, _, answer?_send w r, hkept _ (by simp) (by simp)⟩
  | sleep d => exact ⟨_, _, answer?_sleep w d, hkept _ (by simp) (by simp)⟩
  | acquire =>
    have hl : w.line = [] := by
      rw [hw, Account.line, show a.held = none from he]
      rfl
    exact ⟨_, _, answer?_acquire w hl, rfl⟩
  | release x =>
    have hl : w.line = [0] := by
      rw [hw, Account.line, if_pos (Option.isSome_iff_ne_none.2 he)]
    refine ⟨_, _, answer?_release w x, ?_⟩
    rw [hl]
    rfl
  | clock => exact ⟨_, _, answer?_clock w, hkept _ (by simp) (by simp)⟩
  | timeOfDay => exact ⟨_, _, answer?_timeOfDay w, hkept _ (by simp) (by simp)⟩
  | sample => exact ⟨_, _, answer?_sample w, hkept _ (by simp) (by simp)⟩

theorem Conduct.Obeys.exists_runs {T σ α : Type} {D : Conduct T} {post : Account × T → α → Prop}
    {p : Program α} {s : Account × T} {w : World σ} (h : D.Obeys post p s)
    (hD : ∀ s e x, D.expects s e x) (hw : w.line = s.1.line) :
    ∃ a w', w.Runs p (w.history p) a w' := by
  -- a history that leads somewhere is the history
  suffices ∃ h a w', w.Runs p h a w' by
    obtain ⟨h, a, w', H⟩ := this
    exact ⟨a, w', H.history_eq ▸ H⟩
  induction p generalizing s w with
  | done a => exact ⟨[], a, w, .done w a⟩
  | ask e k ih =>
    obtain ⟨x, v, hx, hv⟩ := World.exists_answer? e h.1.1 hw
    obtain ⟨h', a, w', H⟩ := ih x (h.2 x (hD _ _ _)) hv
    exact ⟨_, a, w', .ask hx H⟩

end CloudClient
