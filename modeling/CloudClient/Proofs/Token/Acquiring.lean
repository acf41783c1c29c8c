import CloudClient.Proofs.Program.Course
import CloudClient.Proofs.Retry.Rounds
import CloudClient.Proofs.Token.Custody

/-!
Getting a token, as seen from outside: all the requests and waits that it takes happen while the
cache is held. The rest of a history is what a call does for itself.
-/

namespace CloudClient

/-- With the cache to itself, a program of this kind comes to an end. -/
theorem UsesCache.exists_runs {c : Config} {α σ : Type} {p : Program α} (hp : UsesCache c p)
    {w : World σ} (h : w.line = []) : ∃ a w', w.Runs p (w.history p) a w' := by
  refine (hp.obeys {}).exists_runs (fun s e x => ?_) h
  cases e <;> trivial

namespace Event

/-- The reply to a request that carried a token. -/
def reply? : Event → Option Reply
  | ⟨.send r, x, _, _⟩ => if r.asksForToken then none else some x
  | _ => none

/-- The replies to all requests but those for a token. -/
def replies (h : List Event) : List Reply :=
  h.filterMap reply?

theorem replies_append (h₁ h₂ : List Event) : replies (h₁ ++ h₂) = replies h₁ ++ replies h₂ :=
  List.filterMap_append

/-- The waits that were made while the cache was free. -/
def backoffs : (held : Bool) → List Event → List Duration
  | _, [] => []
  | _, ⟨.acquire, _, _, _⟩ :: h => backoffs true h
  | _, ⟨.release _, _, _, _⟩ :: h => backoffs false h
  | true, ⟨.sleep _, _, _, _⟩ :: h => backoffs true h
  | false, ⟨.sleep d, _, _, _⟩ :: h => d :: backoffs false h
  | held, _ :: h => backoffs held h

/-- These are the waits in a history that leaves the cache free. -/
def Rests (h : List Event) (delays : List Duration) : Prop :=
  ∀ h', backoffs false (h ++ h') = delays ++ backoffs false h'

theorem rests_nil : Rests [] [] :=
  fun _ => rfl

theorem Rests.append {h₁ h₂ : List Event} {d₁ d₂ : List Duration} (H₁ : Rests h₁ d₁)
    (H₂ : Rests h₂ d₂) : Rests (h₁ ++ h₂) (d₁ ++ d₂) := by
  intro h'
  rw [List.append_assoc, H₁, H₂, List.append_assoc]

theorem Rests.backoffs_eq {h : List Event} {delays : List Duration} (H : Rests h delays) :
    backoffs false h = delays := by
  have hnil := H []
  rwa [List.append_nil, backoffs, List.append_nil] at hnil

theorem rests_sleep (d : Duration) (x : Unit) (began ended : Nat) :
    Rests [⟨.sleep d, x, began, ended⟩] [d] :=
  fun _ => rfl

theorem rests_send (r : Http.Request) (x : Reply) (began ended : Nat) :
    Rests [⟨.send r, x, began, ended⟩] [] :=
  fun _ => rfl

/-- Nothing in the history is for the call itself. -/
structure Apart (h : List Event) : Prop where
  replies : replies h = []
  rests : Rests h []

theorem apart_nil : Apart [] :=
  ⟨rfl, rests_nil⟩

theorem Apart.append {h₁ h₂ : List Event} (H₁ : Apart h₁) (H₂ : Apart h₂) : Apart (h₁ ++ h₂) := by
  refine ⟨?_, H₁.rests.append H₂.rests⟩
  rw [replies_append, H₁.replies, H₂.replies, List.append_nil]

theorem apart_of_idle {h : List Event} (H : World.Idle h) : Apart h := by
  induction h with
  | nil => exact apart_nil
  | cons e h ih =>
    obtain ⟨he, hh⟩ := List.forall_mem_cons.1 H
    have hone : Apart [e] := by
      obtain ⟨effect, x, began, ended⟩ := e
      rcases he with rfl | rfl | rfl <;> exact ⟨rfl, fun _ => rfl⟩
    exact hone.append (ih hh)

end Event

/-! ### What is done with the cache in hand -/

/-- Effects on the way to a new token. -/
def Effect.Aside : Effect → Prop
  | .send r => r.asksForToken = true
  | .acquire | .release _ => False
  | .sleep _ | .clock | .timeOfDay | .sample => True

/-- All effects but requests with a token. -/
def Effect.Tokenless : Effect → Prop
  | .send r => r.asksForToken = true
  | _ => True

theorem Effect.Aside.tokenless {e : Effect} (he : e.Aside) : e.Tokenless := by
  cases e with
  | send r => exact he
  | _ => trivial

namespace Event

theorem replies_of_aside {h : List Event} (H : ∀ e ∈ h, e.effect.Aside) : replies h = [] := by
  refine List.filterMap_eq_nil_iff.2 fun e he => ?_
  obtain ⟨effect, x, began, ended⟩ := e
  have ha := H _ he
  cases effect with
  | send r => exact if_pos ha
  | _ => rfl

theorem backoffs_of_aside {h : List Event} (H : ∀ e ∈ h, e.effect.Aside) (h' : List Event) :
    backoffs true (h ++ h') = backoffs true h' := by
  induction h with
  | nil => rfl
  | cons e h ih =>
    obtain ⟨he, hh⟩ := List.forall_mem_cons.1 H
    obtain ⟨effect, x, began, ended⟩ := e
    cases effect with
    | acquire => exact he.elim
    | release x => exact he.elim
    | _ => exact ih hh

/-- The cache is taken, held for a while and given back. -/
theorem apart_of_held {h : List Event} (H : ∀ e ∈ h, e.effect.Aside) (x y : Option Token) (u : Unit)
    (t₁ t₂ t₃ t₄ : Nat) :
    Apart (⟨.acquire, x, t₁, t₂⟩ :: (h ++ [⟨.release y, u, t₃, t₄⟩])) := by
  constructor
  · have hr : replies (h ++ [⟨.release y, u, t₃, t₄⟩]) = [] := by
      rw [replies_append, replies_of_aside H]
      rfl
    exact hr
  · -- the waits in `h` are not counted, since the cache is held from its first event on
    intro h'
    rw [List.cons_append, List.append_assoc]
    exact backoffs_of_aside H _

end Event

namespace TokenCache

variable (c : Config)

/-- The waits of one request for a token and its repetitions. -/
def fetchWaits : Nat :=
  c.retry.maxRetries.toNat * 2 + 1

theorem bounded_request {P : Effect → Prop} {r : Http.Request} (h : P (.send r)) :
    (Program.request r).Bounded P 1 := by
  refine ⟨h, Nat.le_refl 1, fun x => ?_⟩
  cases x <;> trivial

theorem bounded_fetch (g : Grant) : (fetch c g).Bounded Effect.Aside (fetchWaits c) := by
  have hrequest : (Program.request (g.request c)).Bounded Effect.Aside 1 :=
    bounded_request (asksForToken_grant c g)
  refine (Program.bounded_retrying trivial trivial (fun _ => trivial) hrequest).bind_le (m := 0) ?_
    (Nat.le_refl _)
  rintro (f | response)
  · trivial
  · dsimp only
    split
    · trivial
    · exact ⟨trivial, Nat.le_refl _, fun _ => trivial⟩

theorem bounded_renew (refreshToken : Option String) :
    (renew c refreshToken).Bounded Effect.Aside (2 * fetchWaits c) := by
  cases refreshToken with
  | none => exact (bounded_fetch c _).mono (fun _ => id) (Nat.le_mul_of_pos_left _ (by decide))
  | some token =>
    refine (bounded_fetch c _).bind_le (m := fetchWaits c) ?_ (by omega)
    rintro ((e | _) | t)
    · exact bounded_fetch c _
    · trivial
    · trivial

theorem bounded_usable? (cached : Option Token) : (usable? c cached).Bounded Effect.Aside 0 := by
  cases cached with
  | none => trivial
  | some t => exact ⟨trivial, Nat.le_refl _, fun _ => trivial⟩

/-- The waits of getting a token. -/
def getWaits : Nat :=
  2 * fetchWaits c + 1

theorem bounded_get : (get c).Bounded Effect.Tokenless (getWaits c) := by
  refine ⟨trivial, Nat.le_add_left 1 _, fun cached => ?_⟩
  refine ((bounded_usable? c cached).mono (fun _ => Effect.Aside.tokenless) (Nat.le_refl 0)).bind_le
    (m := 2 * fetchWaits c) ?_ (Nat.le_of_eq (Nat.zero_add _))
  rintro (_ | t)
  · refine ((bounded_renew c _).mono (fun _ => Effect.Aside.tokenless) (Nat.le_refl _)).bind_le
      (m := 0) ?_ (Nat.le_refl _)
    rintro (f | t) <;> exact ⟨trivial, Nat.le_refl _, fun _ => trivial⟩
  · exact ⟨trivial, Nat.zero_le _, fun _ => trivial⟩

theorem bounded_peek : peek.Bounded Effect.Tokenless 1 :=
  ⟨trivial, Nat.le_refl 1, fun _ => ⟨trivial, Nat.zero_le _, fun _ => trivial⟩⟩

theorem bounded_clear : clear.Bounded Effect.Tokenless 1 :=
  ⟨trivial, Nat.le_refl 1, fun _ => ⟨trivial, Nat.zero_le _, fun _ => trivial⟩⟩

theorem bounded_discard (accessToken : String) :
    (discard accessToken).Bounded Effect.Tokenless 1 :=
  ⟨trivial, Nat.le_refl 1, fun _ => ⟨trivial, Nat.zero_le _, fun _ => trivial⟩⟩

/-! ### Runs -/

variable {c} {σ : Type} {w w' : World σ} {h : List Event}

theorem runs_request {r : Http.Request} {result : Except Failure Http.Response}
    (H : w.Runs (Program.request r) h result w') :
    ∃ x : Reply, h = [⟨.send r, x, w.now, w'.now⟩] ∧ w.answer? (.send r) = some (x, w') ∧
      result = x.mapError fun f => .error (.network f) := by
  obtain ⟨x, v, h', hx, rfl, H'⟩ := World.runs_ask_iff.1 H
  cases x with
  | ok response =>
    obtain ⟨rfl, rfl, rfl⟩ := World.runs_done_iff.1 H'
    exact ⟨_, rfl, hx, rfl⟩
  | error f =>
    obtain ⟨rfl, rfl, rfl⟩ := World.runs_done_iff.1 H'
    exact ⟨_, rfl, hx, rfl⟩

theorem runs_attempt_request {r : Http.Request} {result : Except Failure Http.Response × Unit}
    (H : w.Runs (do return (← Program.request r, ())) h result w') :
    ∃ x : Reply, h = [⟨.send r, x, w.now, w'.now⟩] ∧
      result.1 = x.mapError fun f => .error (.network f) := by
  obtain ⟨_, v, h₁, h₂, rfl, H₁, H₂⟩ := World.runs_bind_iff.1 H
  obtain ⟨rfl, rfl, rfl⟩ := World.runs_done_iff.1 H₂
  obtain ⟨x, rfl, _, rfl⟩ := runs_request H₁
  exact ⟨x, rfl, rfl⟩

/-- The errors of requests for a token come from the network, and ask for no wait of their own. -/
theorem network_of_runs {r : Http.Request} {result : Except Failure Http.Response × Unit}
    (H : w.Runs (do return (← Program.request r, ())) h result w') :
    (∃ response, result.1 = .ok response) ∨ ∃ f, result.1 = .error (.error (.network f)) := by
  obtain ⟨x, _, hr⟩ := runs_attempt_request H
  cases x with
  | ok response => exact .inl ⟨response, hr⟩
  | error f => exact .inr ⟨f, hr⟩

/-- A delay of the policy, with the last sample that was drawn, leads to a time that no duration can
hold. -/
def PolicyOverruns (p : RetryPolicy) (elapsed : Nat) (h : List Event) : Prop :=
  ∃ q : Schedule, q.previous.nanos ≤ p.maxElapsed.nanos ∧
    q.Overruns p elapsed (p.delay? q.retries (Event.lastSample h))

theorem request_rounds (p : RetryPolicy) (r : Http.Request) (started : Nat) :
    World.Rounds (σ := σ) p (fun () => Error.isTransient)
      (fun () => do return (← Program.request r, ())) started
      (fun _ _ q _ => q.previous.nanos ≤ p.maxElapsed.nanos)
      (fun h v result => result.1 = .error .overflow → PolicyOverruns p (v.now - started) h) := by
  refine ⟨fun _ H _ ho => ?_, fun _ _ _ _ _ ho => ?_, fun hI H _ hlook hnext _ => ?_,
    fun _ _ _ _ hnext _ => ?_⟩
  · rcases network_of_runs H with ⟨response, hr⟩ | ⟨f, hr⟩
    · rw [hr] at ho
      cases ho
    · rw [hr] at ho
      cases ho
  · cases ho
  · rcases network_of_runs H with ⟨response, hr⟩ | ⟨f, hr⟩
    · cases hr
    · cases hr
      rw [hlook.now]
      exact ⟨_, hI, Schedule.overruns_of_next hnext⟩
  · have hgranted := Schedule.granted_of_next hnext
    rw [hgranted.schedule]
    exact hgranted.inTime

/-- What a response to a request for a token says at a time of day. -/
def reading (now : Timestamp) (response : Http.Response) : Except Failure Token :=
  match TokenResponse.ofHttp response with
  | .error fault => .error (.error (.auth fault (some response.status)))
  | .ok t => .ok (Token.ofResponse t now)

/-- Nothing but looks at the time of day. -/
def Timed (h : List Event) : Prop :=
  ∀ e ∈ h, e.effect = .timeOfDay

theorem Timed.idle {h : List Event} (H : Timed h) : World.Idle h :=
  fun e he => .inr (.inl (H e he))

theorem Timed.unsampled {h : List Event} (H : Timed h) : h.filterMap Event.sample? = [] := by
  refine List.filterMap_eq_nil_iff.2 fun e he => ?_
  obtain ⟨effect, x, began, ended⟩ := e
  obtain rfl : effect = .timeOfDay := H _ he
  rfl

/-- A response is asked for, and read at the time at which it is there. -/
theorem runs_fetch {g : Grant} {r : Except Failure Token} (H : w.Runs (fetch c g) h r w') :
    ∃ result asking look, h = asking ++ look ∧
      w.Runs (Program.retrying c.retry Error.isTransient (Program.request (g.request c)))
        asking result w' ∧
      Timed look ∧ r = result.bind (reading (w'.timeOfDay w'.now)) := by
  obtain ⟨result, v, h₁, h₂, rfl, H₁, H₂⟩ := World.runs_bind_iff.1 H
  have hread : Timed h₂ ∧ w' = v ∧ r = result.bind (reading (w'.timeOfDay w'.now)) := by
    rcases result with f | response
    · obtain ⟨rfl, rfl, rfl⟩ := World.runs_done_iff.1 H₂
      exact ⟨List.forall_mem_nil _, rfl, rfl⟩
    · dsimp only at H₂
      change _ ∧ _ ∧ r = reading (w'.timeOfDay w'.now) response
      unfold reading
      cases ht : TokenResponse.ofHttp response with
      | error fault =>
        rw [ht] at H₂
        obtain ⟨rfl, rfl, rfl⟩ := World.runs_done_iff.1 H₂
        exact ⟨List.forall_mem_nil _, rfl, rfl⟩
      | ok t =>
        rw [ht] at H₂
        obtain ⟨x, u, h', hx, rfl, H'⟩ := World.runs_ask_iff.1 H₂
        rw [World.answer?_timeOfDay] at hx
        cases hx
        obtain ⟨rfl, rfl, rfl⟩ := World.runs_done_iff.1 H'
        exact ⟨List.forall_mem_singleton.2 rfl, rfl, rfl⟩
  obtain ⟨hlook, rfl, hr⟩ := hread
  exact ⟨result, h₁, h₂, rfl, H₁, hlook, hr⟩

theorem reading_ne_overflow (now : Timestamp) (response : Http.Response) :
    reading now response ≠ .error .overflow := by
  rw [reading]
  split <;> nofun

/-- The delays between requests for a token are those of the policy. -/
theorem overruns_of_fetch {g : Grant} (H : w.Runs (fetch c g) h (.error .overflow) w') :
    PolicyOverruns c.retry (w'.now - w.now) h := by
  obtain ⟨result, asking, look, rfl, H₁, hlook, hr⟩ := runs_fetch H
  have hover := (request_rounds c.retry (g.request c) w.now).repeating (Nat.zero_le _)
    (World.runs_retrying H₁)
  cases result with
  | error f =>
    cases hr
    rw [PolicyOverruns, Event.lastSample_append asking hlook.unsampled]
    exact hover rfl
  | ok response => exact absurd hr.symm (reading_ne_overflow _ response)

/-- The one grant that a renewal tries: the credentials where there is no refresh token, or else the
refresh token, unless that ends in an error. -/
inductive Sole : Option String → Grant → Except Failure Token → Prop where
  | credentials (r : Except Failure Token) : Sole none .clientCredentials r
  | refreshed (token : String) {r : Except Failure Token} :
      (∀ e, r ≠ .error (.error e)) → Sole (some token) (.refreshToken token) r

/-- A renewal is one request for a token, or one on a refresh token that fails and then one on the
credentials. -/
theorem renew_cases {refreshToken : Option String} {r : Except Failure Token}
    (H : w.Runs (renew c refreshToken) h r w') :
    (∃ g, w.Runs (fetch c g) h r w' ∧ Sole refreshToken g r) ∨
      ∃ token e v first second, refreshToken = some token ∧ h = first ++ second ∧
        w.Runs (fetch c (.refreshToken token)) first (.error (.error e)) v ∧
        v.Runs (fetch c .clientCredentials) second r w' := by
  cases refreshToken with
  | none => exact .inl ⟨_, H, .credentials r⟩
  | some token =>
    obtain ⟨result, v, h₁, h₂, rfl, H₁, H₂⟩ := World.runs_bind_iff.1 H
    match result, H₁, H₂ with
    | .error (.error e), H₁, H₂ => exact .inr ⟨token, e, v, h₁, h₂, rfl, rfl, H₁, H₂⟩
    | .error .overflow, H₁, H₂ =>
      obtain ⟨rfl, rfl, rfl⟩ := World.runs_done_iff.1 H₂
      rw [List.append_nil]
      exact .inl ⟨_, H₁, .refreshed token nofun⟩
    | .ok t, H₁, H₂ =>
      obtain ⟨rfl, rfl, rfl⟩ := World.runs_done_iff.1 H₂
      rw [List.append_nil]
      exact .inl ⟨_, H₁, .refreshed token nofun⟩

/-- A failure to get a token comes from the request for one. -/
theorem fetch_of_renew {refreshToken : Option String} {f : Failure}
    (H : w.Runs (renew c refreshToken) h (.error f) w') :
    ∃ g u v h', w.Later u ∧ World.Runs u (fetch c g) h' (.error f) v := by
  rcases renew_cases H with ⟨g, H, _⟩ | ⟨token, e, v, h₁, h₂, _, _, H₁, H₂⟩
  · exact ⟨g, w, w', h, .refl w, H⟩
  · exact ⟨_, v, w', h₂, H₁.later, H₂⟩

theorem runs_release {α : Type} {x : Option Token} {a b : α}
    (H : w.Runs (do Program.release x; return a) h b w') :
    b = a ∧ ∃ t, h = [⟨.release x, (), w.now, t⟩] := by
  obtain ⟨_, v, h', _, rfl, H'⟩ := World.runs_ask_iff.1 H
  obtain ⟨rfl, rfl, rfl⟩ := World.runs_done_iff.1 H'
  exact ⟨rfl, _, rfl⟩

/-- Getting a token takes the cache, holds it and gives it back. -/
theorem runs_get {r : Except Failure Token} (H : w.Runs (get c) h r w') :
    Event.Apart h ∧ ∀ f, r = .error f →
      ∃ g u v h', w.Later u ∧ World.Runs u (fetch c g) h' (.error f) v := by
  obtain ⟨cached, v, h₀, hx, rfl, H₀⟩ := World.runs_ask_iff.1 H
  have hw : w.Later v := World.later_answer? hx
  change v.Runs (usable? c cached >>= _) h₀ r w' at H₀
  obtain ⟨found, v₁, h₁, h₂, rfl, H₁, H₂⟩ := World.runs_bind_iff.1 H₀
  have hlook := (H₁.bounded (bounded_usable? c cached)).1
  cases found with
  | some t =>
    obtain ⟨rfl, u, rfl⟩ := runs_release H₂
    refine ⟨Event.apart_of_held hlook .., fun f hf => ?_⟩
    cases hf
  | none =>
    obtain ⟨result, v₂, h₃, h₄, rfl, H₃, H₄⟩ := World.runs_bind_iff.1 H₂
    have hrenew := (H₃.bounded (bounded_renew c _)).1
    have haside : ∀ e ∈ h₁ ++ h₃, e.effect.Aside := List.forall_mem_append.2 ⟨hlook, hrenew⟩
    rw [← List.append_assoc]
    cases result with
    | ok t =>
      obtain ⟨rfl, u, rfl⟩ := runs_release H₄
      refine ⟨Event.apart_of_held haside .., fun f hf => ?_⟩
      cases hf
    | error f =>
      obtain ⟨rfl, u, rfl⟩ := runs_release H₄
      refine ⟨Event.apart_of_held haside .., fun f' hf => ?_⟩
      cases hf
      obtain ⟨g, u, v', h', hl, H'⟩ := fetch_of_renew H₃
      exact ⟨g, u, v', h', (hw.trans H₁.later).trans hl, H'⟩

theorem exists_runs_get (c : Config) (hl : w.line = []) :
    ∃ r w', w.Runs (get c) (w.history (get c)) r w' :=
  (UsesCache.get_only c).exists_runs hl

theorem runs_discard {accessToken : String} {u : Unit}
    (H : w.Runs (discard accessToken) h u w') : Event.Apart h := by
  obtain ⟨cached, v, h', _, rfl, H'⟩ := World.runs_ask_iff.1 H
  obtain ⟨_, v', h'', _, rfl, H''⟩ := World.runs_ask_iff.1 H'
  obtain ⟨rfl, _, rfl⟩ := World.runs_done_iff.1 H''
  exact Event.apart_of_held (h := []) (by simp) ..

end TokenCache

end CloudClient
