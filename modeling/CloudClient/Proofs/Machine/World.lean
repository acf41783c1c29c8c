import CloudClient.Machine.World

/-!
What the effects of tasks do to a world. No effect changes the server or what the clocks and chance
bring; the cache changes only when it is given back, and the line only where the cache is asked for,
given back or left.
-/

namespace CloudClient

/-- Effects that may take time. -/
def Effect.waits : Effect → Bool
  | .send _ | .sleep _ | .acquire => true
  | .release _ | .clock | .timeOfDay | .sample => false

/-- The number of waits in an effect. -/
def Effect.waiting (e : Effect) : Nat :=
  if e.waits then 1 else 0

/-- The content of the cache after an effect. -/
def Effect.leaving : Effect → Option Token → Option Token
  | .release cache, _ => cache
  | _, cache => cache

theorem Effect.leaving_of_ne {e : Effect} (he : ∀ y, e ≠ .release y) (cache : Option Token) :
    e.leaving cache = cache := by
  cases e with
  | release y => exact absurd rfl (he y)
  | _ => rfl

/-- The line for the cache after an effect of a task. -/
def Effect.lining (i : Nat) : Effect → List Nat → List Nat
  | .release _, line => line.erase i
  | _, line => line

namespace World

variable {σ : Type} {w v u : World σ} {i wake : Nat} {e : Effect} {x : e.Answer}

/-- The second world is the first one after some time. -/
structure Later (w v : World σ) : Prop where
  server : v.server = w.server
  timer : v.timer = w.timer
  timeOfDay : v.timeOfDay = w.timeOfDay
  chance : v.chance = w.chance
  now : w.now ≤ v.now

theorem Later.refl (w : World σ) : w.Later w :=
  ⟨rfl, rfl, rfl, rfl, Nat.le_refl _⟩

theorem Later.trans (h : w.Later v) (h' : v.Later u) : w.Later u :=
  ⟨h'.server.trans h.server, h'.timer.trans h.timer, h'.timeOfDay.trans h.timeOfDay,
    h'.chance.trans h.chance, Nat.le_trans h.now h'.now⟩

theorem later_at {t : Nat} (h : w.now ≤ t) : w.Later { w with now := t } :=
  ⟨rfl, rfl, rfl, rfl, h⟩

theorem later_line (w : World σ) (line : List Nat) : w.Later { w with line } :=
  ⟨rfl, rfl, rfl, rfl, Nat.le_refl _⟩

theorem later_start (w : World σ) (i : Nat) (e : Effect) : w.Later (w.start i e).1 := by
  cases e <;> exact ⟨rfl, rfl, rfl, rfl, Nat.le_refl _⟩

theorem later_abandon (w : World σ) (i : Nat) : w.Later (w.abandon i) :=
  later_line w _

@[simp] theorem start_now (w : World σ) (i : Nat) (e : Effect) : (w.start i e).1.now = w.now := by
  cases e <;> rfl

@[simp] theorem start_cache (w : World σ) (i : Nat) (e : Effect) :
    (w.start i e).1.cache = w.cache := by
  cases e <;> rfl

@[simp] theorem start_state (w : World σ) (i : Nat) (e : Effect) :
    (w.start i e).1.state = w.state := by
  cases e <;> rfl

theorem start_line (w : World σ) (i : Nat) (e : Effect) :
    (w.start i e).1.line = if e = .acquire then w.line ++ [i] else w.line := by
  cases e <;> rfl

/-- The answers that an effect may have, when the cache and the clock stand at these values. -/
def Answers (w : World σ) (cache : Option Token) (now : Nat) : (e : Effect) → e.Answer → Prop
  | .send r, x => ∃ state, x = (w.server.reply state r).1
  | .sleep _, _ => True
  | .acquire, x => x = cache
  | .release _, _ => True
  | .clock, x => x = now
  | .timeOfDay, x => x = w.timeOfDay now
  | .sample, x => ∃ n, x = w.chance n

/-- All that an effect does when it is over. -/
structure Finishes (w : World σ) (i : Nat) (e : Effect) (x : e.Answer) (v : World σ) : Prop where
  answers : w.Answers w.cache w.now e x
  later : w.Later v
  now : v.now = w.now
  cache : v.cache = e.leaving w.cache
  line : v.line = e.lining i w.line
  /-- Requests are sent when they start. -/
  sent : v.sent = w.sent
  first : e = .acquire → w.line.head? = some i

theorem finishes_of_finish? (h : w.finish? i wake e = some (x, v)) : w.Finishes i e x v := by
  cases e with
  | send r =>
    simp only [finish?] at h
    split at h
    · cases h
      exact ⟨⟨w.state, rfl⟩, ⟨rfl, rfl, rfl, rfl, Nat.le_refl _⟩, rfl, rfl, rfl, rfl, nofun⟩
    · contradiction
  | sleep d =>
    simp only [finish?] at h
    split at h
    · cases h
      exact ⟨trivial, .refl w, rfl, rfl, rfl, rfl, nofun⟩
    · contradiction
  | acquire =>
    simp only [finish?] at h
    split at h
    · rename_i hl
      cases h
      exact ⟨rfl, .refl w, rfl, rfl, rfl, rfl, fun _ => hl⟩
    · contradiction
  | release cache =>
    cases h
    exact ⟨trivial, ⟨rfl, rfl, rfl, rfl, Nat.le_refl _⟩, rfl, rfl, rfl, rfl, nofun⟩
  | clock =>
    cases h
    exact ⟨rfl, .refl w, rfl, rfl, rfl, rfl, nofun⟩
  | timeOfDay =>
    cases h
    exact ⟨rfl, .refl w, rfl, rfl, rfl, rfl, nofun⟩
  | sample =>
    cases h
    exact ⟨⟨w.drawn, rfl⟩, ⟨rfl, rfl, rfl, rfl, Nat.le_refl _⟩, rfl, rfl, rfl, rfl, nofun⟩

/-- The server replies when a request is over, and not before. -/
theorem finish?_send {r : Http.Request} {x : Reply}
    (h : w.finish? i wake (.send r) = some (x, v)) : w.server.reply w.state r = (x, v.state) := by
  simp only [finish?] at h
  split at h
  · cases h
    rfl
  · contradiction

theorem finish?_state (he : ∀ r, e ≠ .send r) (h : w.finish? i wake e = some (x, v)) :
    v.state = w.state := by
  cases e with
  | send r => exact absurd rfl (he r)
  | sleep d =>
    simp only [finish?] at h
    split at h
    · cases h
      rfl
    · contradiction
  | acquire =>
    simp only [finish?] at h
    split at h
    · cases h
      rfl
    · contradiction
  | _ =>
    cases h
    rfl

/-- An effect that only takes time is over when its time has come. -/
theorem exists_finish? (hw : e = .acquire → w.line.head? = some i) (ht : wake ≤ w.now) :
    ∃ x v, w.finish? i wake e = some (x, v) := by
  cases e with
  | send r => exact ⟨_, _, if_pos ht⟩
  | sleep d => exact ⟨_, _, if_pos ht⟩
  | acquire => exact ⟨_, _, if_pos (hw rfl)⟩
  | release cache => exact ⟨_, _, rfl⟩
  | clock => exact ⟨_, _, rfl⟩
  | timeOfDay => exact ⟨_, _, rfl⟩
  | sample => exact ⟨_, _, rfl⟩

end World

end CloudClient
