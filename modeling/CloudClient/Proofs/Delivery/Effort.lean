import CloudClient.Proofs.Delivery.Budget
import CloudClient.Proofs.Token.Acquisitions

/-!
The effort that a call makes. Each attempt gets a token and makes a request; only one attempt of a
call does so twice, since a call makes room for a new token once. So there are as many acquisitions
and as many requests as repetitions, and two more, whatever the server answers.
-/

namespace CloudClient

open Http (Request Response)

namespace Event

/-- The requests that carry a token. -/
def calls (h : List Event) : List Sent :=
  (requests h).filter fun s => !s.request.asksForToken

theorem length_calls (h : List Event) : (calls h).length = (replies h).length := by
  induction h with
  | nil => rfl
  | cons e h ih =>
    obtain ⟨effect, x, began, ended⟩ := e
    cases effect with
    | send r =>
      cases hr : r.asksForToken with
      | true => simpa [calls, requests, replies, sent?, reply?, hr] using ih
      | false => simpa [calls, requests, replies, sent?, reply?, hr] using ih
    | _ => exact ih

end Event

namespace Delivery

open TokenCache (Acquires Decisive)

variable {σ : Type} {c : Config} {r : Request} {w w' : World σ} {h : List Event}

/-! ### What becomes of acquisitions -/

theorem decisive_once {o : Outcome} {out : Except Failure Response} {rest : List Event}
    (H : w.Runs (once c r) h o w') (ho : ∀ f, o = .noToken f → rest = [] ∧ out = .error f) :
    Event.EachThen (Decisive σ c out) rest h := by
  rcases answered_of_runs H with ⟨f, rfl, hget⟩ | ⟨getting, look, token, v, x, ha⟩
  · refine TokenCache.decisive_get hget ?_
    rintro _ ⟨⟩
    exact ho f rfl
  · rw [ha.history]
    refine Event.eachThen_append.2 ⟨TokenCache.decisive_get ha.got nofun, ?_,
      TokenCache.decisive_of_idle ha.look rest⟩
    exact TokenCache.decisive_of_none (TokenCache.replay?_get_of_ne (by simp) _)

/-- Only an attempt without a token is decided by an acquisition. -/
theorem decisive_attempt {x y : Progress} {result out : Except Failure Response} {rest : List Event}
    (H : w.Runs (attempt c r x) h (result, y) w')
    (hout : y.withoutToken = true → rest = [] ∧ out = result) :
    Event.EachThen (Decisive σ c out) rest h := by
  have hlast {o : Outcome} {x : Progress} (ho : o.conclude x = (result, y)) (f : Failure)
      (hf : o = .noToken f) : rest = [] ∧ out = .error f := by
    subst hf
    cases ho
    exact hout rfl
  rcases attempt_cases H with
    ⟨o, H₁, ho, _⟩ | ⟨a, e, o, v, u, h₁, h₂, h₃, rfl, _, H₁, H₂, H₃, ho⟩
  · exact decisive_once H₁ (hlast ho)
  · refine Event.eachThen_append.2 ⟨decisive_once H₁ nofun, Event.eachThen_append.2 ⟨?_, ?_⟩⟩
    · exact TokenCache.decisive_discard H₂ _
    · exact decisive_once H₃ (hlast ho)

theorem decisive_rounds (c : Config) (r : Request) (w : World σ) :
    World.Rounds c.retry mayPass (attempt c r) w.now
      (fun past (_ : World σ) _ _ => ∀ (out : Except Failure Response) (rest : List Event),
        Event.EachThen (Decisive σ c out) rest past)
      (fun h _ p => Event.EachThen (Decisive σ c p.1) [] h) := by
  have hgoing {x y : Progress} {e : Error} {v v' : World σ} {h h' : List Event}
      (H : v.Runs (attempt c r x) h (.error (.error e), y) v') (he : mayPass y e = true)
      (hidle : World.Idle h') (out : Except Failure Response) (rest : List Event) :
      Event.EachThen (Decisive σ c out) rest (h ++ h') := by
    refine Event.eachThen_append.2 ⟨decisive_attempt H fun hy => ?_,
      TokenCache.decisive_of_idle hidle rest⟩
    simp [mayPass, hy] at he
  refine ⟨fun hI H _ => ?_, fun hI H he hlook _ => ?_, fun hI H he hlook _ => ?_,
    fun hI H he hlook _ _ out rest => ?_⟩
  · exact Event.eachThen_append.2 ⟨hI _ _, decisive_attempt H fun _ => ⟨rfl, rfl⟩⟩
  · rw [List.append_assoc]
    exact Event.eachThen_append.2 ⟨hI _ _, hgoing H he hlook.idle _ _⟩
  · rw [List.append_assoc]
    exact Event.eachThen_append.2 ⟨hI _ _, hgoing H he hlook.idle _ _⟩
  · rw [List.append_assoc, List.append_assoc, ← List.append_assoc _ _ [_]]
    refine Event.eachThen_append.2
      ⟨hI _ _, Event.eachThen_append.2 ⟨hgoing H he hlook.idle _ _, ?_⟩⟩
    exact ⟨TokenCache.decisive_of_none (TokenCache.replay?_get_of_ne (by simp) _), trivial⟩

/-- Whatever is found where a token is got in a call. -/
theorem decisive_of_runs {result : Except Failure Response} (H : w.Runs (run c r) h result w') :
    Event.EachThen (Decisive σ c result) [] h := by
  obtain ⟨_, H⟩ := attempts_of_runs H
  refine (decisive_rounds c r w).repeating (fun out rest => ?_) H
  exact TokenCache.decisive_of_ne (List.forall_mem_singleton.2 (by simp)) rest

/-! ### How many there are -/

/-- So many acquisitions, and no more requests than they and their tokens can be for. -/
structure Tries (c : Config) (n : Nat) (h : List Event) : Prop where
  acquires : Acquires c n h
  calls : (Event.replies h).length ≤ n
  requests : (Event.requests h).length ≤ n * (2 * (c.retry.maxRetries.toNat + 1) + 1)

theorem Tries.append {n m : Nat} {h₁ h₂ : List Event} (H₁ : Tries c n h₁) (H₂ : Tries c m h₂) :
    Tries c (n + m) (h₁ ++ h₂) := by
  refine ⟨H₁.acquires.append H₂.acquires, ?_, ?_⟩
  · rw [Event.replies_append, List.length_append]
    exact Nat.add_le_add H₁.calls H₂.calls
  · rw [Event.requests_append, List.length_append, Nat.add_mul]
    exact Nat.add_le_add H₁.requests H₂.requests

theorem tries_of_unsent (hacquires : Acquires c 0 h) (hr : Event.requests h = []) :
    Tries c 0 h := by
  refine ⟨hacquires, ?_, by rw [hr]; exact Nat.zero_le _⟩
  rw [← Event.length_calls, Event.calls, hr]
  exact Nat.le_refl 0

theorem tries_of_idle (H : World.Idle h) : Tries c 0 h :=
  tries_of_unsent (TokenCache.acquires_of_idle H) (TokenCache.requests_of_idle H)

theorem tries_of_discard {accessToken : String} {u : Unit}
    (H : w.Runs (TokenCache.discard accessToken) h u w') : Tries c 0 h := by
  refine tries_of_unsent (TokenCache.acquires_discard H) ?_
  obtain ⟨cached, y, t₁, t₂, t₃, rfl⟩ := TokenCache.dropped_of_discard H
  rfl

theorem tries_of_pause (d : Duration) (began ended : Nat) :
    Tries c 0 [⟨.sleep d, (), began, ended⟩] :=
  tries_of_unsent (TokenCache.acquires_of_ne (List.forall_mem_singleton.2 (by simp))) rfl

theorem tries_get {r : Except Failure Token} (H : w.Runs (TokenCache.get c) h r w') :
    Acquires c 1 h ∧ Event.replies h = [] ∧
      (Event.requests h).length ≤ 2 * (c.retry.maxRetries.toNat + 1) :=
  ⟨TokenCache.acquires_get H, (TokenCache.runs_get H).1.replies,
    (TokenCache.grants_of_get H).length_le⟩

theorem tries_once {o : Outcome} (H : w.Runs (once c r) h o w') : Tries c 1 h := by
  rcases answered_of_runs H with ⟨f, _, hget⟩ | ⟨getting, look, token, v, x, ha⟩
  · obtain ⟨hacquires, hreplies, hrequests⟩ := tries_get hget
    refine ⟨hacquires, ?_, by omega⟩
    rw [hreplies]
    exact Nat.zero_le 1
  · obtain ⟨hacquires, _, hrequests⟩ := tries_get ha.got
    refine ⟨?_, by rw [ha.replies]; exact Nat.le_refl 1, ?_⟩
    · have hsend : Acquires c 0 [⟨.send (authorized r token.accessToken), x, v.now, w'.now⟩] :=
        TokenCache.acquires_of_ne (List.forall_mem_singleton.2 (by simp))
      rw [ha.history]
      exact hacquires.append (hsend.append (TokenCache.acquires_of_idle ha.look))
    · have hsend : Event.requests
          (⟨.send (authorized r token.accessToken), x, v.now, w'.now⟩ :: look) =
            [⟨v.now, authorized r token.accessToken⟩] :=
        congrArg (List.cons _) (TokenCache.requests_of_idle ha.look)
      rw [ha.history, Event.requests_append, hsend, List.length_append, List.length_singleton]
      omega

theorem conclude_reauthenticated (o : Outcome) (x : Progress) :
    (o.conclude x).2.reauthenticated = x.reauthenticated := by
  cases o <;> rfl

/-- The second try of an attempt is for the first rejection. -/
theorem tries_attempt {x y : Progress} {result : Except Failure Response}
    (H : w.Runs (attempt c r x) h (result, y) w') :
    ∃ n, Tries c n h ∧ n + x.reauthenticated.toNat = 1 + y.reauthenticated.toNat := by
  rcases attempt_cases H with
    ⟨o, H₁, ho, _⟩ | ⟨a, e, o, v, u, h₁, h₂, h₃, rfl, hx, H₁, H₂, H₃, ho⟩
  · refine ⟨1, tries_once H₁, ?_⟩
    rw [← conclude_reauthenticated o x, ho]
  · have hy := conclude_reauthenticated o { x with reauthenticated := true }
    rw [ho] at hy
    refine ⟨1 + (0 + 1), (tries_once H₁).append ((tries_of_discard H₂).append (tries_once H₃)), ?_⟩
    rw [hx, hy]
    rfl

theorem trying_rounds (c : Config) (r : Request) (w : World σ) :
    World.Rounds c.retry mayPass (attempt c r) w.now
      (fun past (_ : World σ) q x => q.retries ≤ c.retry.maxRetries.toNat ∧
        Tries c (q.retries + x.reauthenticated.toNat) past)
      (fun h _ _ => ∃ n, n ≤ c.retry.maxRetries.toNat + 2 ∧ Tries c n h) := by
  refine .of_ends (Q := fun h _ => ∃ n, n ≤ c.retry.maxRetries.toNat + 2 ∧ Tries c n h)
    (fun {_ _ _ _ _ _ q x y _} hI H hlook => ?_)
    fun {_ _ _ _ v' _ t q q' x y _ d} hI H _ hlook hnext _ => ?_
  · obtain ⟨n, hn, hcount⟩ := tries_attempt H
    refine ⟨_, ?_, (hI.2.append hn).append (tries_of_idle hlook.idle)⟩
    have hretries := hI.1
    have hy := Bool.toNat_le y.reauthenticated
    omega
  · obtain ⟨n, hn, hcount⟩ := tries_attempt H
    have hgranted := Schedule.granted_of_next hnext
    rw [hgranted.schedule]
    refine ⟨hgranted.left, ?_⟩
    have hpause := tries_of_pause (c := c) d v'.now t.now
    have hall := ((hI.2.append hn).append (tries_of_idle hlook.idle)).append hpause
    rwa [show q.retries + x.reauthenticated.toNat + n + 0 + 0 =
      q.retries + 1 + y.reauthenticated.toNat by omega] at hall

theorem tries_of_runs {result : Except Failure Response} (H : w.Runs (run c r) h result w') :
    ∃ n, n ≤ c.retry.maxRetries.toNat + 2 ∧ Tries c n h := by
  obtain ⟨_, H⟩ := attempts_of_runs H
  refine (trying_rounds c r w).repeating ⟨Nat.zero_le _, ?_⟩ H
  exact tries_of_idle (by simp [World.Idle])

end Delivery

/-- A call is over after at most as many acquisitions, and at most as many requests that carry a
token, as its policy allows repetitions, and two more: one for the first attempt, and one for the
first rejection. An acquisition asks for a token on a refresh token and then on the credentials, for
each of them once and at most as often again as the policy allows repetitions; and no request is
made besides. -/
theorem effort_bounded {σ : Type} (c : Config) (method : Http.Method) (path : String)
    (body : Option Bytes) (w : World σ) (hl : w.line = []) :
    let call := Delivery.run c (Delivery.request c method path body)
    let repetitions := c.retry.maxRetries.toNat
    ∃ result w', w.solo none call = (some result, w') ∧
      TokenCache.acquisitions c (w.history call) ≤ repetitions + 2 ∧
      (Event.calls (w.history call)).length ≤ repetitions + 2 ∧
      (Event.requests (w.history call)).length ≤
        (repetitions + 2) * (2 * (repetitions + 1) + 1) ∧
      ∀ before rest r after, w.history call = before ++ rest →
        (TokenCache.get c).replay? rest = some (r, after) →
          ∃ acquiring, rest = acquiring ++ after ∧ TokenCache.Grants c acquiring ∧
            (Event.requests acquiring).length ≤ 2 * (repetitions + 1) := by
  intro call repetitions
  obtain ⟨result, w', H⟩ := Delivery.exists_runs (Delivery.request c method path body) hl
  obtain ⟨n, hn, htries⟩ := Delivery.tries_of_runs H
  have hdecisive := Delivery.decisive_of_runs H
  refine ⟨result, w', H.solo_eq, ?_, ?_, ?_, fun before rest r after hh hr => ?_⟩
  · rw [htries.acquires.acquisitions_eq]
    exact hn
  · rw [Event.length_calls]
    exact Nat.le_trans htries.calls hn
  · exact Nat.le_trans htries.requests (Nat.mul_le_mul_right _ hn)
  · cases rest with
    | nil => cases hr
    | cons e later =>
      rw [hh] at hdecisive
      obtain ⟨acquiring, u, v, hrest, hget⟩ := hdecisive.of_split.done r after hr
      have hgrants := TokenCache.grants_of_get hget
      exact ⟨acquiring, hrest, hgrants, hgrants.length_le⟩

/-- A call that needs as much as it may: three acquisitions, one of them with two requests for each
of its grants, and three requests of its own. -/
theorem effort_bounded_of_unsteady :
    let call := Delivery.run .hurried (Delivery.request .hurried .get "/volumes" none)
    let history := World.unsteady.history call
    let repetitions := Config.hurried.retry.maxRetries.toNat
    World.unsteady.line = [] ∧ repetitions = 1 ∧ TokenCache.acquisitions .hurried history = 3 ∧
      (Event.calls history).length = 3 ∧ (Event.requests history).length = 10 ∧
      ∃ result w', World.unsteady.solo none call = (some result, w') ∧
        TokenCache.acquisitions .hurried history ≤ repetitions + 2 ∧
        (Event.calls history).length ≤ repetitions + 2 ∧
        (Event.requests history).length ≤ (repetitions + 2) * (2 * (repetitions + 1) + 1) ∧
        ∀ before rest r after, history = before ++ rest →
          (TokenCache.get .hurried).replay? rest = some (r, after) →
            ∃ acquiring, rest = acquiring ++ after ∧ TokenCache.Grants .hurried acquiring ∧
              (Event.requests acquiring).length ≤ 2 * (repetitions + 1) := by
  intro call history repetitions
  -- in one go, so that the history is computed once
  have hmade : TokenCache.acquisitions .hurried history = 3 ∧ (Event.calls history).length = 3 ∧
      (Event.requests history).length = 10 := by
    decide +kernel
  exact ⟨rfl, by decide +kernel, hmade.1, hmade.2.1, hmade.2.2,
    effort_bounded .hurried .get "/volumes" none .unsteady rfl⟩

end CloudClient
