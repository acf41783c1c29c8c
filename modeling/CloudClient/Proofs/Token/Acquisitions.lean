import CloudClient.Proofs.Machine.History
import CloudClient.Proofs.Token.Getting

/-!
Acquisitions: the places in a history at which a token is got, found by replaying that on the events
from there on. What is found at a place is what was done there, since only those who want a token
or discard one take the cache, and who discards one gives the cache back at once.

Each grant that an acquisition tries is asked for once and at most as often again as the policy
allows repetitions.
-/

namespace CloudClient

open Http (Request)

theorem Effect.Aside.ne_acquire {e : Effect} (he : e.Aside) : e ≠ .acquire := by
  rintro rfl
  exact he

namespace TokenCache

variable {σ α : Type} {c : Config} {w w' : World σ} {h : List Event}

/-- How often a token is got in a history. -/
def acquisitions (c : Config) : List Event → Nat
  | [] => 0
  | e :: h => (if ((get c).replay? (e :: h)).isSome then 1 else 0) + acquisitions c h

/-! ### Places -/

theorem ne_acquire_of_idle (H : World.Idle h) : ∀ e ∈ h, e.effect ≠ .acquire :=
  H.forall_mem (fun _ _ _ => nofun) (fun _ _ _ => nofun) fun _ _ _ => nofun

theorem replay?_get_of_ne {e : Event} (he : e.effect ≠ .acquire) (h : List Event) :
    (get c).replay? (e :: h) = none :=
  Program.replay?_ask_of_ne _ he h

/-- Who looks for a token does not give the cache back before looking at it. -/
theorem replay?_get_of_release (cached y : Option Token) (u : Unit) (t₁ t₂ t₃ t₄ : Nat)
    (h : List Event) :
    (get c).replay? (⟨.acquire, cached, t₁, t₂⟩ :: ⟨.release y, u, t₃, t₄⟩ :: h) = none := by
  refine (Program.replay?_ask (e := .acquire) _ cached t₁ t₂ _).trans ?_
  change (usable? c cached >>= _).replay? _ = none
  rw [Program.replay?_bind]
  cases cached with
  | some t =>
    have hlook : (usable? c (some t)).replay? (⟨.release y, u, t₃, t₄⟩ :: h) = none :=
      Program.replay?_ask_of_ne (e := .timeOfDay) _ (by simp) h
    rw [hlook, Option.bind_none]
  | none =>
    have hlook : (usable? c none).replay? (⟨.release y, u, t₃, t₄⟩ :: h) =
        some (none, ⟨.release y, u, t₃, t₄⟩ :: h) := Program.replay?_done none _
    rw [hlook, Option.bind_some]
    exact Program.replay?_ask_of_ne (e := .clock) _ (by simp) h

/-- The cache is asked for first, and not again. -/
theorem taken_of_get {r : Except Failure Token} (H : w.Runs (get c) h r w') :
    ∃ cached t taken, h = ⟨.acquire, cached, w.now, t⟩ :: taken ∧
      ∀ e ∈ taken, e.effect ≠ .acquire := by
  obtain ⟨cached, v, taken, _, rfl, H'⟩ := World.runs_ask_iff.1 H
  refine ⟨cached, v.now, taken, rfl,
    (H'.bounded (P := (· ≠ .acquire)) (n := 2 * fetchWaits c) ?_).1⟩
  refine ((bounded_usable? c cached).mono (fun _ => Effect.Aside.ne_acquire)
    (Nat.le_refl 0)).bind_le (m := 2 * fetchWaits c) ?_ (Nat.le_of_eq (Nat.zero_add _))
  rintro (_ | t)
  · refine ((bounded_renew c _).mono (fun _ => Effect.Aside.ne_acquire) (Nat.le_refl _)).bind_le
      (m := 0) ?_ (Nat.le_refl _)
    rintro (f | t) <;> exact ⟨nofun, Nat.le_refl _, fun _ => trivial⟩
  · exact ⟨nofun, Nat.zero_le _, fun _ => trivial⟩

theorem dropped_of_discard {accessToken : String} {u : Unit}
    (H : w.Runs (discard accessToken) h u w') :
    ∃ cached y t₁ t₂ t₃, h = [⟨.acquire, cached, w.now, t₁⟩, ⟨.release y, (), t₂, t₃⟩] := by
  obtain ⟨cached, v, h', _, rfl, H'⟩ := World.runs_ask_iff.1 H
  obtain ⟨_, v', h'', _, rfl, H''⟩ := World.runs_ask_iff.1 H'
  obtain ⟨rfl, _, _⟩ := World.runs_done_iff.1 H''
  exact ⟨cached, _, v.now, v.now, v'.now, rfl⟩

/-! ### Counting them -/

/-- In this history a token is got so many times, whatever comes after it. -/
def Acquires (c : Config) (n : Nat) (h : List Event) : Prop :=
  ∀ later, acquisitions c (h ++ later) = n + acquisitions c later

theorem Acquires.append {n m : Nat} {h₁ h₂ : List Event} (H₁ : Acquires c n h₁)
    (H₂ : Acquires c m h₂) : Acquires c (n + m) (h₁ ++ h₂) := by
  intro later
  rw [List.append_assoc, H₁, H₂, Nat.add_assoc]

theorem Acquires.acquisitions_eq {n : Nat} (H : Acquires c n h) : acquisitions c h = n := by
  have hnil := H []
  rwa [List.append_nil, acquisitions] at hnil

theorem acquires_of_ne (H : ∀ e ∈ h, e.effect ≠ .acquire) : Acquires c 0 h := by
  intro later
  induction h with
  | nil => exact (Nat.zero_add _).symm
  | cons e h ih =>
    obtain ⟨he, hh⟩ := List.forall_mem_cons.1 H
    rw [List.cons_append, acquisitions, replay?_get_of_ne he, ih hh]
    exact Nat.zero_add _

theorem acquires_of_idle (H : World.Idle h) : Acquires c 0 h :=
  acquires_of_ne (ne_acquire_of_idle H)

theorem acquires_get {r : Except Failure Token} (H : w.Runs (get c) h r w') : Acquires c 1 h := by
  obtain ⟨cached, t, taken, rfl, htaken⟩ := taken_of_get H
  intro later
  have hfound : ((get c).replay? (⟨.acquire, cached, w.now, t⟩ :: (taken ++ later))).isSome := by
    rw [← List.cons_append, H.replay?_append]
    rfl
  rw [List.cons_append, acquisitions, if_pos hfound, acquires_of_ne htaken, Nat.zero_add]

theorem acquires_discard {accessToken : String} {u : Unit}
    (H : w.Runs (discard accessToken) h u w') : Acquires c 0 h := by
  obtain ⟨cached, y, t₁, t₂, t₃, rfl⟩ := dropped_of_discard H
  intro later
  simp only [List.cons_append, List.nil_append, acquisitions, replay?_get_of_release]
  rw [replay?_get_of_ne (by simp)]
  simp

/-! ### What becomes of them -/

/-- What is found where a token is got was done there; and if no token could be had, that is the
result, and nothing comes after it. -/
structure Decisive (σ : Type) (c : Config) (result : Except Failure α) (e : Event)
    (later : List Event) : Prop where
  done : ∀ r after, (get c).replay? (e :: later) = some (r, after) →
    ∃ acquiring, ∃ u v : World σ, e :: later = acquiring ++ after ∧ u.Runs (get c) acquiring r v
  last : ∀ f after, (get c).replay? (e :: later) = some (.error f, after) →
    after = [] ∧ result = .error f

theorem decisive_of_none {result : Except Failure α} {e : Event} {later : List Event}
    (h : (get c).replay? (e :: later) = none) : Decisive σ c result e later := by
  refine ⟨fun r after hr => ?_, fun f after hr => ?_⟩
  · rw [h] at hr
    cases hr
  · rw [h] at hr
    cases hr

theorem decisive_of_ne {result : Except Failure α} (H : ∀ e ∈ h, e.effect ≠ .acquire)
    (rest : List Event) : Event.EachThen (Decisive σ c result) rest h :=
  Event.eachThen_of_forall fun e he later => decisive_of_none (replay?_get_of_ne (H e he) later)

theorem decisive_of_idle {result : Except Failure α} (H : World.Idle h) (rest : List Event) :
    Event.EachThen (Decisive σ c result) rest h :=
  decisive_of_ne (ne_acquire_of_idle H) rest

theorem decisive_discard {accessToken : String} {u : Unit} {result : Except Failure α}
    (H : w.Runs (discard accessToken) h u w') (rest : List Event) :
    Event.EachThen (Decisive σ c result) rest h := by
  obtain ⟨cached, y, t₁, t₂, t₃, rfl⟩ := dropped_of_discard H
  exact ⟨decisive_of_none (replay?_get_of_release _ _ _ _ _ _ _ _),
    decisive_of_none (replay?_get_of_ne (by simp) _), trivial⟩

theorem decisive_get {r : Except Failure Token} {result : Except Failure α} {rest : List Event}
    (H : w.Runs (get c) h r w') (hr : ∀ f, r = .error f → rest = [] ∧ result = .error f) :
    Event.EachThen (Decisive σ c result) rest h := by
  obtain ⟨cached, t, taken, rfl, htaken⟩ := taken_of_get H
  have hfound := H.replay?_append rest
  refine ⟨⟨fun r' after hr' => ?_, fun f after hr' => ?_⟩, decisive_of_ne htaken rest⟩
  · rw [← List.cons_append, hfound] at hr'
    cases hr'
    exact ⟨_, w, w', rfl, H⟩
  · rw [← List.cons_append, hfound] at hr'
    cases hr'
    exact hr f rfl

/-! ### Requests for tokens -/

theorem requests_of_idle (H : World.Idle h) : Event.requests h = [] :=
  H.filterMap_eq_nil (fun _ _ _ => rfl) (fun _ _ _ => rfl) fun _ _ _ => rfl

/-- A history of so many requests, all of them alike. -/
def Asks (r : Request) (n : Nat) (h : List Event) : Prop :=
  (Event.requests h).map (·.request) = List.replicate n r

theorem asks_of_idle (r : Request) (H : World.Idle h) : Asks r 0 h := by
  rw [Asks, requests_of_idle H]
  rfl

theorem Asks.append {r : Request} {n m : Nat} {h₁ h₂ : List Event} (H₁ : Asks r n h₁)
    (H₂ : Asks r m h₂) : Asks r (n + m) (h₁ ++ h₂) := by
  rw [Asks, Event.requests_append, List.map_append, H₁, H₂, List.replicate_append_replicate]

/-- One request for each repetition, and one before them. -/
theorem asking_rounds (p : RetryPolicy) (r : Request) (started : Nat) :
    World.Rounds (σ := σ) p (fun () => Error.isTransient)
      (fun () => do return (← Program.request r, ())) started
      (fun past _ q _ => q.retries ≤ p.maxRetries.toNat ∧ Asks r q.retries past)
      (fun h _ _ => ∃ n, n ≤ p.maxRetries.toNat + 1 ∧ Asks r n h) := by
  have hone {v v' : World σ} {h : List Event} {result : Except Failure Http.Response × Unit}
      (H : v.Runs (do return (← Program.request r, ())) h result v') : Asks r 1 h := by
    obtain ⟨x, rfl, _⟩ := runs_attempt_request H
    rfl
  refine .of_ends (Q := fun h _ => ∃ n, n ≤ p.maxRetries.toNat + 1 ∧ Asks r n h)
    (fun {_ _ _ _ _ _ q _ _ _} hI H hlook => ?_) fun hI H _ hlook hnext _ => ?_
  · refine ⟨q.retries + 1, Nat.succ_le_succ hI.1, ?_⟩
    exact (hI.2.append (hone H)).append (asks_of_idle r hlook.idle)
  · have hgranted := Schedule.granted_of_next hnext
    rw [hgranted.schedule]
    refine ⟨hgranted.left, ?_⟩
    exact ((hI.2.append (hone H)).append (asks_of_idle r hlook.idle)).append (m := 0) rfl

/-- A grant is asked for once, and as often again as the policy allows repetitions. -/
theorem asks_of_fetch {g : Grant} {r : Except Failure Token} (H : w.Runs (fetch c g) h r w') :
    ∃ n, n ≤ c.retry.maxRetries.toNat + 1 ∧ Asks (g.request c) n h := by
  obtain ⟨result, asking, look, rfl, H₁, hlook, _⟩ := runs_fetch H
  obtain ⟨n, hn, hasks⟩ := (asking_rounds c.retry (g.request c) w.now).repeating
    ⟨Nat.zero_le _, rfl⟩ (World.runs_retrying H₁)
  exact ⟨n, hn, hasks.append (asks_of_idle _ hlook.idle)⟩

/-- Requests on a refresh token, and then on the credentials; each of them is sent once and as often
again as the policy allows repetitions. -/
def Grants (c : Config) (h : List Event) : Prop :=
  ∃ token n m, n ≤ c.retry.maxRetries.toNat + 1 ∧ m ≤ c.retry.maxRetries.toNat + 1 ∧
    (Event.requests h).map (·.request) =
      List.replicate n ((Grant.refreshToken token).request c) ++
        List.replicate m (Grant.clientCredentials.request c)

theorem Grants.length_le (H : Grants c h) :
    (Event.requests h).length ≤ 2 * (c.retry.maxRetries.toNat + 1) := by
  obtain ⟨token, n, m, hn, hm, heq⟩ := H
  have hlength := congrArg List.length heq
  rw [List.length_map, List.length_append, List.length_replicate, List.length_replicate] at hlength
  omega

theorem grants_of_requests (hr : Event.requests h = []) : Grants c h :=
  ⟨"", 0, 0, Nat.zero_le _, Nat.zero_le _, by rw [hr]; rfl⟩

theorem grants_of_renew {refreshToken : Option String} {r : Except Failure Token}
    (H : w.Runs (renew c refreshToken) h r w') : Grants c h := by
  rcases renew_cases H with ⟨g, H, _⟩ | ⟨token, e, v, h₁, h₂, _, rfl, H₁, H₂⟩
  · obtain ⟨n, hn, hasks⟩ := asks_of_fetch H
    cases g with
    | clientCredentials => exact ⟨"", 0, n, Nat.zero_le _, hn, hasks⟩
    | refreshToken token =>
      exact ⟨token, n, 0, hn, Nat.zero_le _, hasks.trans (List.append_nil _).symm⟩
  · obtain ⟨n, hn, hfirst⟩ := asks_of_fetch H₁
    obtain ⟨m, hm, hsecond⟩ := asks_of_fetch H₂
    refine ⟨token, n, m, hn, hm, ?_⟩
    rw [Event.requests_append, List.map_append, hfirst, hsecond]

theorem grants_of_get {r : Except Failure Token} (H : w.Runs (get c) h r w') : Grants c h := by
  obtain ⟨cached, u, h₀, _, rfl, H₀⟩ := World.runs_ask_iff.1 H
  change u.Runs (usable? c cached >>= _) h₀ _ w' at H₀
  obtain ⟨found, v, h₁, h₂, rfl, H₁, H₂⟩ := World.runs_bind_iff.1 H₀
  have hlook : Event.requests h₁ = [] := requests_of_idle (runs_usable? H₁).2.1
  cases found with
  | some t =>
    obtain ⟨_, _, rfl⟩ := runs_release H₂
    refine grants_of_requests ?_
    change Event.requests (h₁ ++ _) = []
    rw [Event.requests_append, hlook]
    rfl
  | none =>
    obtain ⟨result, v', h₃, h₄, rfl, H₃, H₄⟩ := World.runs_bind_iff.1 H₂
    have hgiven : Event.requests h₄ = [] := by
      cases result with
      | ok t =>
        obtain ⟨_, _, rfl⟩ := runs_release H₄
        rfl
      | error f =>
        obtain ⟨_, _, rfl⟩ := runs_release H₄
        rfl
    have hasked : Event.requests (⟨.acquire, cached, w.now, u.now⟩ :: (h₁ ++ (h₃ ++ h₄))) =
        Event.requests h₃ := by
      change Event.requests (h₁ ++ (h₃ ++ h₄)) = _
      rw [Event.requests_append, Event.requests_append, hlook, hgiven, List.nil_append,
        List.append_nil]
    rw [Grants, hasked]
    exact grants_of_renew H₃

end TokenCache

end CloudClient
