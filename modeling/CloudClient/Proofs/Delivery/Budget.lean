import CloudClient.Proofs.Delivery.Outcome
import CloudClient.Proofs.Retry.Budget
import CloudClient.Proofs.Token.Getting

/-!
The time that a call sleeps. Its own waits and all that was slept before them are within the time
that the policy allows. What comes after the last of them is not: up to three requests for a token
are made there, each with the whole time for its own repetitions.

The requests for tokens in a history are listed beside it (`Fetched`), so that all that is slept in
an attempt can be put down to them. There are three at most, because a token that was rejected is
gone from the cache when the second one of the attempt is asked for, and its refresh token with it.
-/

namespace CloudClient

open Http (Request Response)

namespace TokenCache

variable {σ : Type} {c : Config} {w w' : World σ} {h : List Event}

/-! ### One request for a token -/

theorem budget_rounds (p : RetryPolicy) (r : Request) (started : Nat) :
    World.Rounds (σ := σ) p (fun () => Error.isTransient)
      (fun () => do return (← Program.request r, ())) started
      (fun past v _ _ => World.Budgeted p started past v)
      (fun h _ _ => Event.asleep h ≤ p.maxElapsed.nanos) := by
  refine .of_ends (Q := fun h _ => Event.asleep h ≤ p.maxElapsed.nanos)
    (fun hI H hlook => ?_) fun hI H _ hlook hnext hsleep => hI.again H hlook hnext hsleep
  obtain ⟨x, rfl, _⟩ := runs_attempt_request H
  rw [Event.asleep_append, Event.asleep_append, Event.asleep_of_idle hlook.idle]
  exact hI.within

/-- A request for a token and its repetitions sleep for no longer than the policy allows. -/
theorem asleep_fetch_le {g : Grant} {r : Except Failure Token} (H : w.Runs (fetch c g) h r w') :
    Event.asleep h ≤ c.retry.maxElapsed.nanos := by
  obtain ⟨result, asking, look, rfl, H₁, hlook, _⟩ := runs_fetch H
  rw [Event.asleep_append, Event.asleep_of_idle hlook.idle]
  exact (budget_rounds c.retry (g.request c) w.now).repeating (.start c.retry w)
    (World.runs_retrying H₁)

/-! ### The requests for tokens in a history -/

/-- A history of one request for a token and its repetitions. -/
def Fetches (σ : Type) (c : Config) (h : List Event) : Prop :=
  ∃ g r, ∃ w w' : World σ, w.Runs (fetch c g) h r w'

/-- All that is slept in a history is slept in so many requests for a token. -/
structure Fetched (σ : Type) (c : Config) (n : Nat) (h : List Event)
    (fetches : List (List Event)) : Prop where
  count : fetches.length ≤ n
  each : ∀ e ∈ fetches, Fetches σ c e
  parts : fetches.flatten.Sublist h
  slept : Event.asleep h = Event.asleep fetches.flatten

theorem fetched_of_awake (hh : Event.asleep h = 0) : Fetched σ c 0 h [] :=
  ⟨Nat.le_refl _, List.forall_mem_nil _, List.nil_sublist h, hh⟩

theorem fetched_fetch {g : Grant} {r : Except Failure Token} (H : w.Runs (fetch c g) h r w') :
    Fetched σ c 1 h [h] := by
  have hall : [h].flatten = h := List.flatten_singleton
  refine ⟨Nat.le_refl _, List.forall_mem_singleton.2 ⟨g, r, w, w', H⟩, ?_, ?_⟩
  · simpa only [hall] using List.Sublist.refl h
  · exact congrArg Event.asleep hall.symm

theorem Fetched.append {n m : Nat} {h₁ h₂ : List Event} {f₁ f₂ : List (List Event)}
    (H₁ : Fetched σ c n h₁ f₁) (H₂ : Fetched σ c m h₂ f₂) :
    Fetched σ c (n + m) (h₁ ++ h₂) (f₁ ++ f₂) := by
  have hcount₁ := H₁.count
  have hcount₂ := H₂.count
  refine ⟨?_, List.forall_mem_append.2 ⟨H₁.each, H₂.each⟩, ?_, ?_⟩
  · rw [List.length_append]
    omega
  · rw [List.flatten_append]
    exact H₁.parts.append H₂.parts
  · rw [Event.asleep_append, H₁.slept, H₂.slept, List.flatten_append, Event.asleep_append]

/-- What is done besides takes no sleep. -/
theorem Fetched.among {n : Nat} {h' : List Event} {f : List (List Event)}
    (H : Fetched σ c n h f) (hh : h.Sublist h') (ha : Event.asleep h' = Event.asleep h) :
    Fetched σ c n h' f :=
  ⟨H.count, H.each, H.parts.trans hh, ha.trans H.slept⟩

theorem Fetched.mono {n m : Nat} {f : List (List Event)} (H : Fetched σ c n h f) (hn : n ≤ m) :
    Fetched σ c m h f :=
  ⟨Nat.le_trans H.count hn, H.each, H.parts, H.slept⟩

/-- How many requests for a token a renewal may take. -/
def renewals (refreshToken : Option String) : Nat :=
  if refreshToken.isSome then 2 else 1

theorem fetched_renew {refreshToken : Option String} {r : Except Failure Token}
    (H : w.Runs (renew c refreshToken) h r w') :
    ∃ f, Fetched σ c (renewals refreshToken) h f := by
  rcases renew_cases H with ⟨g, H, _⟩ | ⟨token, e, v, h₁, h₂, rfl, rfl, H₁, H₂⟩
  · refine ⟨_, (fetched_fetch H).mono ?_⟩
    rw [renewals]
    split <;> decide
  · exact ⟨_, (fetched_fetch H₁).append (fetched_fetch H₂)⟩

theorem fetched_get {r : Except Failure Token} (hl : w.line = []) (H : w.Runs (get c) h r w') :
    w'.line = [] ∧ (∃ f, Fetched σ c (renewals (w.cache.bind (·.refreshToken))) h f) ∧
      ∀ t, r = .ok t → w'.cache = some t := by
  rcases runs_get_cases hl H with ⟨look, cached, hreused⟩ | ⟨look, asking, v, hrenewed⟩
  · have hawake : Event.asleep h = 0 := by
      rw [hreused.history]
      simp [Event.asleep_of_idle hreused.look, Event.pause]
    rw [hreused.world, hreused.result]
    refine ⟨hl, ⟨[], (fetched_of_awake hawake).mono (Nat.zero_le _)⟩, ?_⟩
    rintro _ ⟨⟩
    exact hreused.cached
  · obtain ⟨f, hf⟩ := fetched_renew hrenewed.renewal
    have hpart : asking.Sublist h := by
      rw [hrenewed.history]
      refine .cons _ ?_
      exact (List.sublist_append_left asking _).trans (List.sublist_append_right look _)
    have hslept : Event.asleep h = Event.asleep asking := by
      rw [hrenewed.history]
      simp [Event.asleep_of_idle hrenewed.look, Event.pause]
    rw [hrenewed.world]
    refine ⟨rfl, ⟨f, hf.among hpart hslept⟩, ?_⟩
    rintro t rfl
    rfl

theorem fetched_discard {accessToken : String} {u : Unit} (hl : w.line = [])
    (H : w.Runs (discard accessToken) h u w') :
    w'.line = [] ∧ Fetched σ c 0 h [] ∧
      w'.cache = if w.cache.any (·.accessToken = accessToken) then none else w.cache := by
  obtain ⟨rfl, rfl⟩ := discarded_of_runs hl H
  exact ⟨rfl, fetched_of_awake rfl, rfl⟩

end TokenCache

namespace Delivery

open TokenCache (Fetched fetched_of_awake renewals)

variable {σ : Type} {c : Config} {r : Request} {w w' : World σ} {h : List Event}

/-! ### The requests for tokens in an attempt -/

/-- What is slept for tokens while one request is made; the call itself does not rest. -/
structure Slept (c : Config) (h : List Event) (w' : World σ) (n : Nat) : Prop where
  line : w'.line = []
  rests : Event.Rests h []
  fetched : ∃ f, Fetched σ c n h f

theorem send_frame {v : World σ} {s : Request} {x : Reply} (h : w.answer? (.send s) = some (x, v)) :
    v.cache = w.cache ∧ v.line = w.line := by
  rw [World.answer?_send] at h
  cases h
  exact ⟨rfl, rfl⟩

theorem slept_once {o : Outcome} (hl : w.line = []) (H : w.Runs (once c r) h o w') :
    Slept c h w' (renewals (w.cache.bind (·.refreshToken))) ∧
      ∀ a e, o = .rejected a e → ∃ t, w'.cache = some t ∧ t.accessToken = a := by
  rcases answered_of_runs H with ⟨failure, rfl, hget⟩ | ⟨getting, look, token, v, x, ha⟩
  · obtain ⟨hline, hf, _⟩ := TokenCache.fetched_get hl hget
    exact ⟨⟨hline, (TokenCache.runs_get hget).1.rests, hf⟩, nofun⟩
  · obtain ⟨hline, ⟨f, hf⟩, hcache⟩ := TokenCache.fetched_get hl ha.got
    obtain ⟨hcache', hline'⟩ := send_frame ha.answer
    have hslept : Event.asleep h = Event.asleep getting := by
      rw [ha.history]
      simp [Event.asleep_of_idle ha.look, Event.pause]
    have hpart : getting.Sublist h := by
      rw [ha.history]
      exact List.sublist_append_left _ _
    refine ⟨⟨hline'.trans hline, ha.rests, f, hf.among hpart hslept⟩, fun a e ho => ?_⟩
    refine ⟨token, hcache'.trans (hcache token rfl), ?_⟩
    exact (rejects_of_ofReply (ha.outcome.symm.trans ho)).2

theorem Slept.append {v : World σ} {h₁ h₂ : List Event} {n m : Nat} (H₁ : Slept c h₁ v n)
    (H₂ : Slept c h₂ w' m) : Slept c (h₁ ++ h₂) w' (n + m) := by
  obtain ⟨f₁, hf₁⟩ := H₁.fetched
  obtain ⟨f₂, hf₂⟩ := H₂.fetched
  exact ⟨H₂.line, H₁.rests.append H₂.rests, _, hf₁.append hf₂⟩

theorem Slept.mono {n m : Nat} (H : Slept c h w' n) (hn : n ≤ m) : Slept c h w' m := by
  obtain ⟨f, hf⟩ := H.fetched
  exact ⟨H.line, H.rests, f, hf.mono hn⟩

theorem Slept.idle {n : Nat} {h' : List Event} (H : Slept c h w' n) (hh : World.Idle h') :
    Slept c (h ++ h') w' n := by
  have hrests := H.rests.append (Event.apart_of_idle hh).rests
  obtain ⟨f, hf⟩ := H.fetched
  refine ⟨H.line, hrests, f, hf.among (List.sublist_append_left h h') ?_⟩
  rw [Event.asleep_append, Event.asleep_of_idle hh, Nat.add_zero]

theorem renewals_le (refreshToken : Option String) : renewals refreshToken ≤ 2 := by
  rw [renewals]
  split <;> decide

/-- The first request may find a token to renew; the second one finds none. -/
theorem slept_attempt {x y : Progress} {result : Except Failure Response} (hl : w.line = [])
    (H : w.Runs (attempt c r x) h (result, y) w') : Slept c h w' 3 := by
  rcases attempt_cases H with
    ⟨o, H₁, _, _⟩ | ⟨a, e, o, v, u, h₁, h₂, h₃, rfl, _, H₁, H₂, H₃, _⟩
  · exact (slept_once hl H₁).1.mono (Nat.le_trans (renewals_le _) (by decide))
  · obtain ⟨hfirst, hrejected⟩ := slept_once hl H₁
    obtain ⟨token, hcache, haccess⟩ := hrejected a e rfl
    obtain ⟨hline, hdiscard, hempty⟩ := TokenCache.fetched_discard hfirst.line H₂
    have hnone : u.cache = none := by
      rw [hempty, hcache]
      simp [haccess]
    have hsecond := (slept_once hline H₃).1
    rw [hnone] at hsecond
    have hdropping : Slept c h₂ u 0 := ⟨hline, (TokenCache.runs_discard H₂).rests, _, hdiscard⟩
    exact (hfirst.mono (renewals_le _)).append (hdropping.append hsecond)

/-! ### The whole call -/

/-- Nothing has been slept yet, or a wait was the last thing to happen. -/
def Paused (h : List Event) : Prop :=
  Event.asleep h = 0 ∨ ∃ past d x began ended, h = past ++ [⟨.sleep d, x, began, ended⟩]

/-- What happens up to the last wait of the call itself is within its time; after that it sleeps
only for tokens. -/
structure Spent (σ : Type) (c : Config) (early late : List Event) (fetches : List (List Event)) :
    Prop where
  within : Event.asleep early ≤ c.retry.maxElapsed.nanos
  paused : Paused early
  last : Event.backoffs false late = []
  fetched : Fetched σ c 3 late fetches

theorem sleeping_rounds (c : Config) (r : Request) (w : World σ) :
    World.Rounds c.retry mayPass (attempt c r) w.now
      (fun past (v : World σ) _ _ =>
        World.Budgeted c.retry w.now past v ∧ Paused past ∧ v.line = [])
      (fun h _ _ => ∃ early late f, h = early ++ late ∧ Spent σ c early late f) := by
  refine .of_ends (Q := fun h _ => ∃ early late f, h = early ++ late ∧ Spent σ c early late f)
    (fun {past h h' v v' u q x y result} hI H hlook => ?_)
    fun {past h h' v v' u t q q' x y e d} hI H _ hlook hnext hsleep => ?_
  · obtain ⟨hb, hp, hl⟩ := hI
    have hslept : Slept c (h ++ h') v' 3 := (slept_attempt hl H).idle hlook.idle
    obtain ⟨f, hf⟩ := hslept.fetched
    rw [List.append_assoc]
    exact ⟨past, h ++ h', f, rfl, hb.within, hp, hslept.rests.backoffs_eq, hf⟩
  · obtain ⟨hb, _, hl⟩ := hI
    refine ⟨hb.again H hlook hnext hsleep, .inr ⟨_, d, (), _, _, rfl⟩, ?_⟩
    have hline : u.line = [] := hlook.line.trans (slept_attempt hl H).line
    exact (World.frame_answer? (e := .sleep d) trivial hsleep).2.trans hline

theorem spent_of_runs {result : Except Failure Response} (hl : w.line = [])
    (H : w.Runs (run c r) h result w') :
    ∃ early late f, h = early ++ late ∧ Spent σ c early late f := by
  obtain ⟨_, H⟩ := attempts_of_runs H
  exact (sleeping_rounds c r w).repeating ⟨.start c.retry w, .inl rfl, hl⟩ H

theorem asleep_flatten_le {n : Nat} {f : List (List Event)} (h : ∀ e ∈ f, Event.asleep e ≤ n) :
    Event.asleep f.flatten ≤ f.length * n := by
  induction f with
  | nil => exact Nat.zero_le _
  | cons e f ih =>
    obtain ⟨he, hf⟩ := List.forall_mem_cons.1 h
    have hrest := ih hf
    rw [List.flatten_cons, Event.asleep_append, List.length_cons, Nat.succ_mul]
    omega

theorem asleep_fetches_le {e : List Event} (H : TokenCache.Fetches σ c e) :
    Event.asleep e ≤ c.retry.maxElapsed.nanos := by
  obtain ⟨g, r, w, w', H⟩ := H
  exact TokenCache.asleep_fetch_le H

end Delivery

/-- A call sleeps for no longer than its policy allows just when the requests for tokens after its
own last wait, three of them at most, sleep for no longer than is left of that time. Each of them
may take all of it for itself, so that a call may sleep four times as long as it is allowed to. -/
theorem asleep_le_iff_of_fetches {σ : Type} (c : Config) (method : Http.Method) (path : String)
    (body : Option Bytes) (w : World σ) (hl : w.line = []) :
    let call := Delivery.run c (Delivery.request c method path body)
    let allowed := c.retry.maxElapsed.nanos
    ∃ result w', w.solo none call = (some result, w') ∧
      ∃ early late fetches, w.history call = early ++ late ∧
        Delivery.Spent σ c early late fetches ∧
        (∀ e ∈ fetches, Event.asleep e ≤ allowed) ∧
        (Event.asleep (w.history call) ≤ allowed ↔
          Event.asleep fetches.flatten ≤ allowed - Event.asleep early) ∧
        Event.asleep (w.history call) ≤ 4 * allowed := by
  intro call allowed
  obtain ⟨result, w', H⟩ := Delivery.exists_runs (Delivery.request c method path body) hl
  obtain ⟨early, late, fetches, hh, hspent⟩ := Delivery.spent_of_runs hl H
  have hall : ∀ e ∈ fetches, Event.asleep e ≤ allowed :=
    fun e he => Delivery.asleep_fetches_le (hspent.fetched.each e he)
  have hsum : Event.asleep fetches.flatten ≤ 3 * allowed :=
    Nat.le_trans (Delivery.asleep_flatten_le hall) (Nat.mul_le_mul_right _ hspent.fetched.count)
  have hslept : Event.asleep (w.history call) =
      Event.asleep early + Event.asleep fetches.flatten := by
    rw [hh, Event.asleep_append, hspent.fetched.slept]
  have hwithin : Event.asleep early ≤ allowed := hspent.within
  refine ⟨result, w', H.solo_eq, early, late, fetches, hh, hspent, hall, ?_, ?_⟩
  · rw [hslept]
    omega
  · rw [hslept]
    omega

/-- One repetition after a second, and a second for all of them. -/
def Config.hurried : Config :=
  { Config.plain with
    retry := {
      maxRetries := 1
      initialBackoff := .ofSeconds 1
      maxBackoff := .ofSeconds 1
      multiplier := .ofNat 1
      jitter := .zero
      maxElapsed := .ofSeconds 1 } }

/-- A token that has come to its end, and a token endpoint that fails after every success. -/
def World.unsteady : World Script :=
  { World.scripted {
      tokenReplies := [.token "short" 30, .failure .timeout, .failure .timeout, .failure .timeout,
        .token "brief" 30, .failure .timeout, .token "long" 3600]
      replies := [.ofError 503 "down", .ofError 401 "expired", .ofText 200 "done"] } with
    cache := some {
      accessToken := "old"
      refreshToken := some "refresh-old"
      tokenType := "Bearer"
      expiresAt := .epoch
      scope := "" } }

theorem asleep_le_iff_of_unsteady :
    let call := Delivery.run .hurried (Delivery.request .hurried .get "/volumes" none)
    let allowed := Config.hurried.retry.maxElapsed.nanos
    World.unsteady.line = [] ∧ Event.asleep (World.unsteady.history call) = 4 * allowed ∧
      ∃ result w', World.unsteady.solo none call = (some result, w') ∧
        ∃ early late fetches, World.unsteady.history call = early ++ late ∧
          Delivery.Spent Script .hurried early late fetches ∧
          (∀ e ∈ fetches, Event.asleep e ≤ allowed) ∧
          (Event.asleep (World.unsteady.history call) ≤ allowed ↔
            Event.asleep fetches.flatten ≤ allowed - Event.asleep early) ∧
          Event.asleep (World.unsteady.history call) ≤ 4 * allowed :=
  ⟨rfl, by decide +kernel, asleep_le_iff_of_fetches .hurried .get "/volumes" none .unsteady rfl⟩

/-- A token endpoint that fails before every success, and a token that is rejected. -/
def World.faltering : World Script :=
  .scripted {
    tokenReplies := [.failure .timeout, .token "first" 3600, .failure .timeout,
      .token "second" 3600]
    replies := [.ofError 401 "expired", .ofText 200 "done"] }

/-- A call should not sleep for longer than its policy allows, but it can. -/
theorem asleep_of_faltering :
    Config.hurried.retry.maxElapsed = .ofSeconds 1 ∧
      Event.asleep (World.faltering.history
        (Delivery.run .hurried (Delivery.request .hurried .get "/volumes" none))) =
          (Duration.ofSeconds 2).nanos :=
  ⟨rfl, by decide +kernel⟩

end CloudClient
