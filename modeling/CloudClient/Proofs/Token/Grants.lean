import CloudClient.Proofs.Machine.Scripted
import CloudClient.Proofs.Token.Getting

/-!
Which grants are tried for a new token, in what order, and what comes of them. A grant is asked for
again only while nothing comes back; a reply ends it, and the last one decides what it comes to.
-/

namespace CloudClient

open Http (Request Response)

namespace Event

/-- A request, and what came back. -/
def exchange? : Event → Option (Request × Reply)
  | ⟨.send r, x, _, _⟩ => some (r, x)
  | _ => none

def exchanges (h : List Event) : List (Request × Reply) :=
  h.filterMap exchange?

@[simp] theorem exchanges_append (h₁ h₂ : List Event) :
    exchanges (h₁ ++ h₂) = exchanges h₁ ++ exchanges h₂ :=
  List.filterMap_append

theorem exchanges_of_idle {h : List Event} (H : World.Idle h) : exchanges h = [] :=
  H.filterMap_eq_nil (fun _ _ _ => rfl) (fun _ _ _ => rfl) fun _ _ _ => rfl

end Event

namespace TokenCache

variable {σ : Type} {c : Config} {g : Grant} {w v v' w' : World σ} {h : List Event}

/-! ### What a reply comes to -/

/-- What a grant comes to with its last reply, which is there at this time of day. -/
inductive Upshot (now : Timestamp) : Reply → Except Failure Token → Prop where
  | unreachable (f : NetworkFailure) : Upshot now (.error f) (.error (.error (.network f)))
  | rejected {r : Response} : r.isSuccess = false →
      Upshot now (.ok r) (.error (.error
        (.auth (.exchangeRejected (.ofResponse r.status r.body)) (some r.status))))
  | malformed {r : Response} {p : Json.Problem} : r.isSuccess = true →
      TokenResponse.codec.read r.body = .error p →
      Upshot now (.ok r) (.error (.error (.auth (.malformedToken p) (some r.status))))
  | empty {r : Response} {t : TokenResponse} : r.isSuccess = true →
      TokenResponse.codec.read r.body = .ok t → t.accessToken = "" →
      Upshot now (.ok r) (.error (.error (.auth .emptyToken (some r.status))))
  | granted {r : Response} {t : TokenResponse} : r.isSuccess = true →
      TokenResponse.codec.read r.body = .ok t → t.accessToken ≠ "" →
      Upshot now (.ok r) (.ok (.ofResponse t now))

theorem upshot_reading (now : Timestamp) (r : Response) : Upshot now (.ok r) (reading now r) := by
  rw [reading, TokenResponse.ofHttp]
  cases hs : r.isSuccess with
  | false => exact .rejected hs
  | true =>
    cases hread : TokenResponse.codec.read r.body with
    | error p => exact .malformed hs hread
    | ok t =>
      by_cases ht : t.accessToken = ""
      · rw [if_pos rfl]
        dsimp only
        rw [if_pos (String.isEmpty_iff.2 ht)]
        exact .empty hs hread ht
      · rw [if_pos rfl]
        dsimp only
        rw [if_neg (mt String.isEmpty_iff.1 ht)]
        exact .granted hs hread ht

/-! ### One grant -/

/-- Whether there is time for a repetition, as the waits in a history have left it. -/
def Budget (P : RetryPolicy → Schedule → Nat → Option Duration → Prop) (c : Config)
    (began ended : Nat) (h : List Event) : Prop :=
  let q := Schedule.after (Event.backoffs false h)
  P c.retry q (ended - began) (c.retry.delay? q.retries (Event.lastSample h))

/-- A grant is asked for with the same request again and again, as long as nothing comes back and
the policy allows it; what comes back at last decides. -/
structure Tried (c : Config) (g : Grant) (w : World σ) (began ended : Nat) (h : List Event)
    (result : Except Failure Token) (failures : List NetworkFailure) (last : Reply) : Prop where
  exchanges : Event.exchanges h =
    (failures.map Except.error ++ [last]).map fun x => (g.request c, x)
  retries : (Event.backoffs false h).length = failures.length
  result : Upshot (w.timeOfDay ended) last result ∧
      (∀ f, last = .error f → Budget Schedule.Exhausted c began ended h) ∨
    result = .error .overflow ∧
      ∃ f, last = .error f ∧ Budget Schedule.Overruns c began ended h

/-- Nothing has come back so far, and the waits are those of the schedule. -/
structure Unanswered (r : Request) (w : World σ) (past : List Event) (v : World σ) (q : Schedule)
    (failures : List NetworkFailure) : Prop where
  later : w.Later v
  exchanges : Event.exchanges past = (failures.map Except.error).map fun x => (r, x)
  rests : Event.Rests past (Event.backoffs false past)
  schedule : q = .after (Event.backoffs false past)
  retries : (Event.backoffs false past).length = failures.length

namespace Unanswered

variable {r : Request} {past idle : List Event} {q q' : Schedule} {failures : List NetworkFailure}

theorem start (r : Request) (w : World σ) :
    Unanswered r w [⟨.clock, w.now, w.now, w.now⟩] w {} [] :=
  ⟨.refl w, rfl, fun _ => rfl, rfl, rfl⟩

/-- One more request is sent, which takes no rest. -/
theorem sent (H : Unanswered r w past v q failures) (x : Reply) (hidle : World.Idle idle)
    (t u : Nat) :
    Event.exchanges (past ++ [⟨.send r, x, t, u⟩] ++ idle) =
        (failures.map Except.error ++ [x]).map (fun x => (r, x)) ∧
      Event.Rests (past ++ [⟨.send r, x, t, u⟩] ++ idle) (Event.backoffs false past) := by
  constructor
  · rw [Event.exchanges_append, Event.exchanges_append, H.exchanges, Event.exchanges_of_idle hidle]
    simp [Event.exchanges, Event.exchange?]
  · have hrests := (H.rests.append (Event.rests_send r x t u)).append
      (Event.apart_of_idle hidle).rests
    rwa [List.append_nil, List.append_nil] at hrests

theorem again {f : NetworkFailure} {d : Duration} {u : World σ}
    (H : Unanswered r w past v q failures) (hidle : World.Idle idle) (hl : w.Later u)
    (hq : q' = ⟨q.retries + 1, d⟩) (t₁ t₂ t₃ t₄ : Nat) :
    Unanswered r w
      (past ++ [⟨.send r, .error f, t₁, t₂⟩] ++ idle ++ [⟨.sleep d, (), t₃, t₄⟩]) u q'
      (failures ++ [f]) := by
  obtain ⟨hexchanges, hrests⟩ := H.sent (.error f) hidle t₁ t₂
  have hrests' := hrests.append (Event.rests_sleep d () t₃ t₄)
  refine ⟨hl, ?_, ?_, ?_, ?_⟩
  · have hmap : (failures ++ [f]).map Except.error =
        failures.map Except.error ++ [(.error f : Reply)] := List.map_append
    rw [Event.exchanges_append, hexchanges, hmap]
    exact List.append_nil _
  · rw [hrests'.backoffs_eq]
    exact hrests'
  · rw [hrests'.backoffs_eq, Schedule.after_append, ← H.schedule]
    exact hq
  · rw [hrests'.backoffs_eq, List.length_append, List.length_append, H.retries]
    rfl

end Unanswered

/-- A request that is not repeated any more: something has come back, or the policy allows no more
repetitions. -/
structure Repeated (c : Config) (r : Request) (w : World σ) (h : List Event) (v : World σ)
    (result : Except Failure Response) (failures : List NetworkFailure) (last : Reply) : Prop where
  exchanges : Event.exchanges h = (failures.map Except.error ++ [last]).map fun x => (r, x)
  rests : Event.Rests h (Event.backoffs false h)
  retries : (Event.backoffs false h).length = failures.length
  result : result = last.mapError (fun f => .error (.network f)) ∧
      (∀ f, last = .error f → Budget Schedule.Exhausted c w.now v.now h) ∨
    result = .error .overflow ∧
      ∃ f, last = .error f ∧ Budget Schedule.Overruns c w.now v.now h

theorem Unanswered.repeated {r : Request} {past look : List Event} {q : Schedule}
    {failures : List NetworkFailure} {u : World σ} {result : Except Failure Response}
    (H : Unanswered r w past v q failures) (x : Reply) (hlook : v'.Looked look u) (t₁ t₂ : Nat)
    (hresult :
      let proposed := c.retry.delay? q.retries
        (Event.lastSample (past ++ [⟨.send r, x, t₁, t₂⟩] ++ look))
      result = x.mapError (fun f => .error (.network f)) ∧
          (∀ f, x = .error f → q.Exhausted c.retry (v'.now - w.now) proposed) ∨
        result = .error .overflow ∧
          ∃ f, x = .error f ∧ q.Overruns c.retry (v'.now - w.now) proposed) :
    Repeated c r w (past ++ [⟨.send r, x, t₁, t₂⟩] ++ look) u result failures x := by
  obtain ⟨hexchanges, hrests⟩ := H.sent x hlook.idle t₁ t₂
  have hbackoffs := hrests.backoffs_eq
  refine ⟨hexchanges, by rwa [hbackoffs], by rw [hbackoffs, H.retries], ?_⟩
  rw [Budget, Budget, hbackoffs, ← H.schedule, hlook.now]
  exact hresult

theorem repeated_rounds (c : Config) (r : Request) (w : World σ) :
    World.Rounds c.retry (fun () => Error.isTransient)
      (fun () => do return (← Program.request r, ())) w.now
      (fun past v q _ => ∃ failures, Unanswered r w past v q failures)
      (fun h v p => w.Later v ∧ ∃ failures last, Repeated c r w h v p.1 failures last) := by
  refine ⟨fun {past h v v' q x y result} hI H hs => ?_,
    fun {past h h' v v' u q s x y e} hI H _ hlook hnext => ?_,
    fun {past h h' v v' u q s x y e} hI H _ hlook hnext => ?_,
    fun {past h h' v v' u t q q' x y e d} hI H _ hlook hnext hsleep => ?_⟩
  all_goals
    obtain ⟨failures, hI⟩ := hI
    have hl := hI.later.trans H.later
    obtain ⟨reply, rfl, hr⟩ := runs_attempt_request H
  · cases reply with
    | error f => cases hs _ hr
    | ok response =>
      have hrepeated : Repeated c r w _ v' _ failures (.ok response) :=
        hI.repeated (.ok response) (World.looked_nil v') v.now v'.now (.inl ⟨hr, nofun⟩)
      rw [List.append_nil] at hrepeated
      exact ⟨hl, failures, _, hrepeated⟩
  -- only a failure of the network calls for a repetition
  all_goals
    obtain ⟨f, rfl⟩ : ∃ f, reply = .error f := by
      cases reply with
      | ok response => cases hr
      | error f => exact ⟨f, rfl⟩
    cases hr
    have hlu := hl.trans hlook.later
  · refine ⟨hlu, failures, _, hI.repeated _ hlook _ _ (.inl ⟨rfl, fun _ _ => ?_⟩)⟩
    exact Schedule.exhausted_of_next hnext
  · refine ⟨hlu, failures, _, hI.repeated _ hlook _ _ (.inr ⟨rfl, f, rfl, ?_⟩)⟩
    exact Schedule.overruns_of_next hnext
  · have hlt := hlu.trans (World.later_answer? hsleep)
    refine ⟨failures ++ [f], hI.again hlook.idle hlt ?_ _ _ _ _⟩
    exact (Schedule.granted_of_next hnext).schedule

/-- Asking for a token tries one grant. -/
theorem tried_of_fetch {r : Except Failure Token} {base : World σ} (hl : base.Later w)
    (H : w.Runs (fetch c g) h r w') :
    ∃ failures last, Tried c g base w.now w'.now h r failures last := by
  obtain ⟨result, asking, look, rfl, H₁, hlook, rfl⟩ := runs_fetch H
  obtain ⟨_, failures, last, hrep⟩ := (repeated_rounds c (g.request c) w).repeating
    ⟨[], .start _ w⟩ (World.runs_retrying H₁)
  have hbackoffs : Event.backoffs false (asking ++ look) = Event.backoffs false asking := by
    have hrests := hrep.rests.append (Event.apart_of_idle hlook.idle).rests
    rw [hrests.backoffs_eq, List.append_nil]
  have hlater := hl.trans H.later
  refine ⟨failures, last, ?_, ?_, ?_⟩
  · rw [Event.exchanges_append, Event.exchanges_of_idle hlook.idle, List.append_nil]
    exact hrep.exchanges
  · rw [hbackoffs]
    exact hrep.retries
  · rw [Budget, Budget, hbackoffs, Event.lastSample_append asking hlook.unsampled,
      ← hlater.timeOfDay]
    rcases hrep.result with ⟨rfl, hspent⟩ | ⟨rfl, hover⟩
    · refine .inl ⟨?_, hspent⟩
      cases last with
      | error f => exact .unreachable f
      | ok response => exact upshot_reading _ response
    · exact .inr ⟨rfl, hover⟩

/-! ### A new token -/

/-- How a new token is asked for: by the credentials alone where there is no refresh token; or else
by that, and by the credentials when it ends in an error. The last reply is that of the last grant,
which decides. -/
inductive Obtained (c : Config) (w : World σ) (began ended : Nat) :
    Option String → List Event → Except Failure Token → Reply → Prop where
  | credentials {h : List Event} {r : Except Failure Token} {failures : List NetworkFailure}
      {last : Reply} :
      Tried c .clientCredentials w began ended h r failures last →
      Obtained c w began ended none h r last
  | refreshed {token : String} {h : List Event} {r : Except Failure Token}
      {failures : List NetworkFailure} {last : Reply} :
      Tried c (.refreshToken token) w began ended h r failures last →
      (∀ e, r ≠ .error (.error e)) →
      Obtained c w began ended (some token) h r last
  | replaced {token : String} {first second : List Event} {e : Error} {turn : Nat}
      {r : Except Failure Token} {failures failures' : List NetworkFailure} {last last' : Reply} :
      Tried c (.refreshToken token) w began turn first (.error (.error e)) failures last →
      Tried c .clientCredentials w turn ended second r failures' last' →
      Obtained c w began ended (some token) (first ++ second) r last'

theorem obtained_of_renew {base : World σ} {refreshToken : Option String}
    {r : Except Failure Token} (hl : base.Later w) (H : w.Runs (renew c refreshToken) h r w') :
    ∃ last, Obtained c base w.now w'.now refreshToken h r last := by
  rcases renew_cases H with ⟨g, H, hsole⟩ | ⟨token, e, v, first, second, rfl, rfl, H₁, H₂⟩
  · obtain ⟨failures, last, htried⟩ := tried_of_fetch hl H
    cases hsole with
    | credentials => exact ⟨last, .credentials htried⟩
    | refreshed token hr => exact ⟨last, .refreshed htried hr⟩
  · obtain ⟨_, _, htried⟩ := tried_of_fetch hl H₁
    obtain ⟨_, last, htried'⟩ := tried_of_fetch (hl.trans H₁.later) H₂
    exact ⟨last, .replaced htried htried'⟩

/-! ### Getting a token -/

/-- What is done to get a token, while nobody else uses the cache: the cached token is given out
with no request as long as it lives long enough; or else a new one is asked for, which is cached
when it has come, while a failure leaves the cache as it was. -/
inductive Got (c : Config) (w : World σ) (h : List Event) (r : Except Failure Token)
    (w' : World σ) : Prop where
  | reused (t : Token) :
      w.cache = some t → t.outlives (w.timeOfDay w.now) c.tokenMargin = true →
      r = .ok t → w'.cache = w.cache → Event.exchanges h = [] → Got c w h r w'
  | renewed (asking : List Event) (last : Reply) :
      (∀ t, w.cache = some t → t.outlives (w.timeOfDay w.now) c.tokenMargin = false) →
      asking <:+: h → Event.exchanges h = Event.exchanges asking →
      Obtained c w w.now w'.now (w.cache.bind (·.refreshToken)) asking r last →
      w'.cache = kept w.cache r → Got c w h r w'

theorem got_of_runs {r : Except Failure Token} (hl : w.line = []) (H : w.Runs (get c) h r w') :
    Got c w h r w' := by
  rcases runs_get_cases hl H with ⟨look, t, hreused⟩ | ⟨look, asking, v, hrenewed⟩
  · refine .reused t hreused.cached hreused.usable hreused.result ?_ ?_
    · rw [hreused.world]
    · rw [hreused.history, ← List.singleton_append, Event.exchanges_append, Event.exchanges_append,
        Event.exchanges_of_idle hreused.look]
      rfl
  · have hlater : w.Later { w with line := [0] } := ⟨rfl, rfl, rfl, rfl, Nat.le_refl _⟩
    obtain ⟨last, hobtained⟩ := obtained_of_renew hlater hrenewed.renewal
    rw [hrenewed.world]
    refine .renewed asking last hrenewed.unusable ?_ ?_ hobtained rfl
    · rw [hrenewed.history, ← List.cons_append, ← List.append_assoc]
      exact List.infix_append _ asking _
    · rw [hrenewed.history, ← List.singleton_append, Event.exchanges_append,
        Event.exchanges_append, Event.exchanges_append, Event.exchanges_of_idle hrenewed.look]
      exact List.append_nil _

end TokenCache

/-- Getting a token ends, and what was done for it is known from the cache and the replies. -/
theorem got_of_get {σ : Type} (c : Config) (w : World σ) (hl : w.line = []) :
    ∃ result w', w.solo none (TokenCache.get c) = (some result, w') ∧
      TokenCache.Got c w (w.history (TokenCache.get c)) result w' := by
  obtain ⟨result, w', H⟩ := TokenCache.exists_runs_get c hl
  exact ⟨result, w', H.solo_eq, TokenCache.got_of_runs hl H⟩

/-- A token that has come to its end. -/
def Token.outworn : Token where
  accessToken := "old"
  refreshToken := some "refresh-old"
  tokenType := "Bearer"
  expiresAt := .epoch
  scope := ""

/-- A server that does not know the refresh token that it is given. -/
def World.outworn : World Script :=
  { World.scripted {
      tokenReplies := [.failure .timeout, .ofError 400 "unknown", .failure .timeout,
        .token "new" 3600] } with
    cache := some .outworn }

theorem got_of_outworn :
    let requests := (Event.exchanges (World.outworn.history (TokenCache.get .plain))).map (·.1)
    let refresh := (Grant.refreshToken "refresh-old").request .plain
    let credentials := Grant.clientCredentials.request .plain
    World.outworn.line = [] ∧ requests = [refresh, refresh, credentials, credentials] ∧
      ∃ result w', World.outworn.solo none (TokenCache.get .plain) = (some result, w') ∧
        TokenCache.Got .plain .outworn (World.outworn.history (TokenCache.get .plain)) result w' :=
  ⟨rfl, by decide +kernel, got_of_get .plain .outworn rfl⟩

end CloudClient
