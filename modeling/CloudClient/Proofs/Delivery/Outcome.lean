import CloudClient.Delivery
import CloudClient.Proofs.Http.Message
import CloudClient.Proofs.Machine.Scripted
import CloudClient.Proofs.Text.Unsigned
import CloudClient.Proofs.Token.Acquiring

/-!
The outcome of a call. All replies before the last one are reasons to go on, and the last one alone
decides the result; a result that might pass comes when no repetition is left or in time.
-/

namespace CloudClient

open Http (Request Response)

namespace Reply

/-- Whether a reply rejects the token. -/
def rejects : Reply → Bool
  | .ok r => r.status = 401
  | .error _ => false

/-- Whether the same request may succeed a little later. -/
def mayPass : Reply → Bool
  | .ok r => r.status = 429 || 500 ≤ r.status
  | .error _ => true

/-- The number of seconds that a reply asks to wait. -/
def seconds? : Reply → Option Nat
  | .ok r =>
    if r.status = 429 then
      (r.header? "retry-after").bind fun value => Text.unsigned? (2 ^ 64) (Text.trim value)
    else none
  | .error _ => none

theorem seconds?_of_rejects {reply : Reply} (h : reply.rejects = true) : reply.seconds? = none := by
  cases reply with
  | error f => rfl
  | ok r =>
    have hs : r.status = 401 := of_decide_eq_true h
    rw [seconds?, hs]
    exact if_neg (by decide)

end Reply

namespace Delivery

/-- The wait that the text of a header asks for at a time of day. -/
def waitAt (now : Timestamp) (value : String) : Option Duration :=
  let value := Text.trim value
  match Text.unsigned? (2 ^ 64) value with
  | some n => some (.ofSeconds (.ofNat n))
  | none => (HttpDate.parse value).map fun date => (date.since now).toDuration?.getD .zero

/-- The result of a call whose last reply comes at this time of day. -/
def conclusion (now : Timestamp) : Reply → Except Failure Response
  | .error f => .error (.error (.network f))
  | .ok r =>
    let error := ApiError.ofResponse r.status r.body
    if r.isSuccess then .ok r
    else if r.status = 401 then .error (.error (.auth (.rejectedAfterRefresh error) (some 401)))
    else if r.status = 404 then .error (.error (.notFound error))
    else if r.status = 429 then
      .error (.error (.rateLimit error ((r.header? "retry-after").bind (waitAt now))))
    else .error (.error (.api error))

theorem conclusion_of_tooMany {now : Timestamp} {r : Response} (h : r.status = 429) :
    conclusion now (.ok r) = .error (.error (.rateLimit (.ofResponse r.status r.body)
      ((r.header? "retry-after").bind (waitAt now)))) := by
  have hf : ¬ r.isSuccess = true := by
    rw [Response.isSuccess, h]
    decide
  have h401 : ¬ r.status = 401 := by
    rw [h]
    decide
  have h404 : ¬ r.status = 404 := by
    rw [h]
    decide
  simp only [conclusion, if_neg hf, if_neg h401, if_neg h404, if_pos h]

/-- Seconds that a reply asks for are the wait that comes with the error. -/
theorem wait?_of_seconds? (now : Timestamp) {reply : Reply} {n : Nat}
    (h : reply.seconds? = some n) :
    ∃ e d, conclusion now reply = .error (.error e) ∧ e.isTransient = true ∧ e.wait? = some d ∧
      d.nanos = n * 10 ^ 9 := by
  cases reply with
  | error f => cases h
  | ok r =>
    rw [Reply.seconds?] at h
    split at h
    · rename_i hs
      obtain ⟨value, hvalue, hn⟩ := Option.bind_eq_some_iff.1 h
      have hrange : n < 2 ^ 64 := (Text.unsigned?_eq_some_iff.1 hn).2
      refine ⟨_, .ofSeconds (.ofNat n), conclusion_of_tooMany hs, rfl, ?_, ?_⟩
      · rw [hvalue, Option.bind_some, waitAt]
        simp only [hn, Error.wait?]
      · have hnat : (UInt64.ofNat n).toNat = n := UInt64.toNat_ofNat_of_lt' hrange
        exact congrArg (· * 10 ^ 9) hnat
    · cases h

/-- Programs with a result that depends on the time of day only. -/
inductive Dated {α : Type} (f : Timestamp → α) : Program α → Prop where
  | never {a : α} : (∀ now, f now = a) → Dated f (.done a)
  | once : Dated f (.ask .timeOfDay fun now => .done (f now))

namespace Dated

variable {α β σ : Type} {f : Timestamp → α} {p : Program α}

theorem map (h : Dated f p) (g : α → β) : Dated (fun now => g (f now)) (do return g (← p)) := by
  cases h with
  | never ha => exact .never fun now => congrArg g (ha now)
  | once => exact .once

theorem usesCache (h : Dated f p) (c : Config) : UsesCache c p := by
  cases h with
  | never _ => exact .done _
  | once => exact .timeOfDay fun _ => .done _

theorem bounded (h : Dated f p) {P : Effect → Prop} (hP : P .timeOfDay) : p.Bounded P 0 := by
  cases h with
  | never _ => trivial
  | once => exact ⟨hP, Nat.le_refl 0, fun _ => trivial⟩

theorem runs (h : Dated f p) {w w' : World σ} {events : List Event} {a : α}
    (H : w.Runs p events a w') :
    World.Idle events ∧ w' = w ∧ a = f (w'.timeOfDay w'.now) := by
  cases h with
  | never ha =>
    obtain ⟨rfl, rfl, rfl⟩ := World.runs_done_iff.1 H
    exact ⟨World.idle_nil, rfl, (ha _).symm⟩
  | once =>
    obtain ⟨x, v, events', hx, rfl, H'⟩ := World.runs_ask_iff.1 H
    rw [World.answer?_timeOfDay] at hx
    cases hx
    obtain ⟨rfl, rfl, rfl⟩ := World.runs_done_iff.1 H'
    exact ⟨List.forall_mem_singleton.2 (.inr (.inl rfl)), rfl, rfl⟩

end Dated

theorem dated_requestedWait (value : String) :
    Dated (fun now => waitAt now value) (requestedWait value) := by
  unfold waitAt requestedWait
  dsimp only
  cases Text.unsigned? (2 ^ 64) (Text.trim value) with
  | some n => exact .never fun _ => rfl
  | none =>
    cases HttpDate.parse (Text.trim value) with
    | none => exact .never fun _ => rfl
    | some date => exact .once

theorem dated_meaning {r : Response} (h : r.status ≠ 401) :
    Dated (fun now => conclusion now (.ok r)) (meaning r) := by
  simp only [conclusion, if_neg h]
  unfold meaning
  split
  · exact .never fun _ => rfl
  · split
    · exact .never fun _ => rfl
    · split
      · cases r.header? "retry-after" with
        | none => exact .never fun _ => rfl
        | some value =>
          simp only [Option.bind_some]
          exact (dated_requestedWait value).map fun wait =>
            Except.error (Failure.error (.rateLimit (.ofResponse r.status r.body) wait))
      · exact .never fun _ => rfl

/-! ### Calls among other users of the cache -/

theorem usesCache_once (c : Config) (r : Request) : UsesCache c (once c r) := by
  refine .get ?_
  rintro (f | token)
  · exact .done _
  · refine .send (asksForToken_authorized r token.accessToken) ?_
    rintro (f | response)
    · exact .done _
    · change UsesCache c (if response.status = 401 then _ else meaning response >>= _)
      split
      · exact .done _
      · exact ((dated_meaning ‹_›).usesCache c).bind fun _ => .done _

theorem usesCache_attempt (c : Config) (r : Request) (x : Progress) :
    UsesCache c (attempt c r x) := by
  refine (usesCache_once c r).bind ?_
  rintro (result | f | ⟨accessToken, e⟩)
  · exact .done _
  · exact .done _
  · dsimp only
    split
    · exact .done _
    · exact .discard accessToken fun _ => (usesCache_once c r).bind fun _ => .done _

/-- Calls are programs of the kind that the laws of custody are about. -/
theorem usesCache_run (c : Config) (r : Request) : UsesCache c (run c r) :=
  (UsesCache.repeating (usesCache_attempt c r) {}).bind fun _ => .done _

/-- A call with the cache to itself comes to an end. -/
theorem exists_runs {σ : Type} {c : Config} (r : Request) {w : World σ} (h : w.line = []) :
    ∃ result w', w.Runs (run c r) (w.history (run c r)) result w' :=
  (usesCache_run c r).exists_runs h

/-! ### The effects and waits of a call -/

/-- A request with a token is this one. -/
def Signs (r : Request) : Effect → Prop
  | .send q => q.asksForToken = true ∨ ∃ accessToken, q = authorized r accessToken
  | _ => True

theorem signs_of_tokenless {r : Request} {e : Effect} (he : e.Tokenless) : Signs r e := by
  cases e with
  | send q => exact .inl he
  | _ => trivial

theorem bounded_once (c : Config) (r : Request) :
    (once c r).Bounded (Signs r) (TokenCache.getWaits c + 1) := by
  refine ((TokenCache.bounded_get c).mono (fun _ => signs_of_tokenless) (Nat.le_refl _)).bind ?_
  rintro (f | token)
  · trivial
  · refine (TokenCache.bounded_request (P := Signs r) (.inr ⟨_, rfl⟩)).bind_le (m := 0) ?_
      (Nat.le_refl 1)
    rintro (f | response)
    · trivial
    · dsimp only
      split
      · trivial
      · exact ((dated_meaning ‹_›).bounded trivial).bind_le (m := 0) (fun _ => trivial)
          (Nat.le_refl 0)

/-- The waits of an attempt. -/
def attemptWaits (c : Config) : Nat :=
  2 * (TokenCache.getWaits c + 1) + 1

theorem bounded_attempt (c : Config) (r : Request) (x : Progress) :
    (attempt c r x).Bounded (Signs r) (attemptWaits c) := by
  refine (bounded_once c r).bind_le (m := TokenCache.getWaits c + 2) ?_
    (by rw [attemptWaits]; omega)
  rintro (result | f | ⟨accessToken, e⟩)
  · trivial
  · trivial
  · dsimp only
    split
    · trivial
    · refine ((TokenCache.bounded_discard accessToken).mono (fun _ => signs_of_tokenless)
        (Nat.le_refl _)).bind_le (m := TokenCache.getWaits c + 1) ?_ (by omega)
      intro _
      exact (bounded_once c r).bind_le (m := 0) (fun _ => trivial) (Nat.le_refl _)

/-- The waits of a call. -/
def runWaits (c : Config) : Nat :=
  c.retry.maxRetries.toNat * (attemptWaits c + 1) + attemptWaits c

theorem bounded_run (c : Config) (r : Request) :
    (run c r).Bounded (Signs r) (runWaits c) :=
  (Program.bounded_repeating trivial trivial (fun _ => trivial) (bounded_attempt c r) {}).bind_le
    (m := 0) (fun _ => trivial) (Nat.le_refl _)

/-! ### One request -/

variable {σ : Type} {c : Config} {r : Request} {w w' : World σ} {h : List Event}

/-- Where one request leads whose reply comes at this time of day. -/
def Outcome.ofReply (now : Timestamp) (accessToken : String) : Reply → Outcome
  | .ok r =>
    if r.status = 401 then .rejected accessToken (.ofResponse r.status r.body)
    else .settled (conclusion now (.ok r))
  | .error f => .settled (conclusion now (.error f))

/-- A request that has its token: what was done to get that, the request itself, and a look at the
time of day where the reply calls for one. -/
structure Answered (c : Config) (r : Request) (w : World σ) (h : List Event) (o : Outcome)
    (w' : World σ) (getting look : List Event) (token : Token) (v : World σ) (x : Reply) :
    Prop where
  history : h =
    getting ++ ⟨.send (authorized r token.accessToken), x, v.now, w'.now⟩ :: look
  got : w.Runs (TokenCache.get c) getting (.ok token) v
  answer : v.answer? (.send (authorized r token.accessToken)) = some (x, w')
  look : World.Idle look
  outcome : o = .ofReply (w'.timeOfDay w'.now) token.accessToken x

theorem answered_of_runs {o : Outcome} (H : w.Runs (once c r) h o w') :
    (∃ f, o = .noToken f ∧ w.Runs (TokenCache.get c) h (.error f) w') ∨
      ∃ getting look token v x, Answered c r w h o w' getting look token v x := by
  obtain ⟨result, v, h₁, h₂, rfl, H₁, H₂⟩ := World.runs_bind_iff.1 H
  cases result with
  | error f =>
    obtain ⟨rfl, rfl, rfl⟩ := World.runs_done_iff.1 H₂
    rw [List.append_nil]
    exact .inl ⟨f, rfl, H₁⟩
  | ok token =>
    obtain ⟨reply, u, h₃, h₄, rfl, H₃, H₄⟩ := World.runs_bind_iff.1 H₂
    obtain ⟨x, rfl, hx, rfl⟩ := TokenCache.runs_request H₃
    -- what is left to do takes no time, and depends on the time of day only
    have hread : World.Idle h₄ ∧ w' = u ∧
        o = .ofReply (w'.timeOfDay w'.now) token.accessToken x := by
      cases x with
      | error f =>
        obtain ⟨rfl, rfl, rfl⟩ := World.runs_done_iff.1 H₄
        exact ⟨World.idle_nil, rfl, rfl⟩
      | ok response =>
        change u.Runs (if response.status = 401 then _ else meaning response >>= _) h₄ o w' at H₄
        rw [Outcome.ofReply]
        split at H₄
        · rename_i hs
          obtain ⟨rfl, rfl, rfl⟩ := World.runs_done_iff.1 H₄
          rw [if_pos hs]
          exact ⟨World.idle_nil, rfl, rfl⟩
        · rename_i hs
          rw [if_neg hs]
          obtain ⟨result, t, h₅, h₆, rfl, H₅, H₆⟩ := World.runs_bind_iff.1 H₄
          obtain ⟨rfl, rfl, rfl⟩ := World.runs_done_iff.1 H₆
          obtain ⟨hlook, rfl, rfl⟩ := (dated_meaning hs).runs H₅
          rw [List.append_nil]
          exact ⟨hlook, rfl, rfl⟩
    obtain ⟨hlook, rfl, rfl⟩ := hread
    exact .inr ⟨h₁, h₄, token, v, x, rfl, H₁, hx, hlook, rfl⟩

section Answered

variable {o : Outcome} {getting look : List Event} {token : Token} {v : World σ} {x : Reply}

theorem Answered.replies (H : Answered c r w h o w' getting look token v x) :
    Event.replies h = [x] := by
  have hlook := (Event.apart_of_idle H.look).replies
  rw [H.history, ← List.singleton_append, Event.replies_append, Event.replies_append,
    (TokenCache.runs_get H.got).1.replies, hlook]
  simp [Event.replies, Event.reply?, asksForToken_authorized]

theorem Answered.rests (H : Answered c r w h o w' getting look token v x) : Event.Rests h [] := by
  rw [H.history, ← List.singleton_append]
  exact (TokenCache.runs_get H.got).1.rests.append
    ((Event.rests_send _ _ _ _).append (Event.apart_of_idle H.look).rests)

end Answered

theorem runs_once {o : Outcome} (H : w.Runs (once c r) h o w') :
    (∃ f, o = .noToken f ∧ w.Runs (TokenCache.get c) h (.error f) w') ∨
      ∃ accessToken x, Event.replies h = [x] ∧ Event.Rests h [] ∧
        o = .ofReply (w'.timeOfDay w'.now) accessToken x := by
  rcases answered_of_runs H with hno | ⟨_, _, token, _, x, ha⟩
  · exact .inl hno
  · exact .inr ⟨token.accessToken, x, ha.replies, ha.rests, ha.outcome⟩

/-! ### Attempts -/

/-- A token could not be had, and that is the result. -/
def NoToken (c : Config) (w : World σ) (h : List Event) (w' : World σ)
    (result : Except Failure Response) : Prop :=
  ∃ f u before acquiring, result = .error f ∧ h = before ++ acquiring ∧ w.Later u ∧
    World.Runs u (TokenCache.get c) acquiring (.error f) w'

theorem NoToken.of_append {past : List Event} {v : World σ} {result : Except Failure Response}
    (H : NoToken c v h w' result) (hw : w.Later v) : NoToken c w (past ++ h) w' result := by
  obtain ⟨f, u, before, acquiring, hr, rfl, hu, hget⟩ := H
  exact ⟨f, u, past ++ before, acquiring, hr, (List.append_assoc ..).symm, hw.trans hu, hget⟩

theorem conclude_ofReply (now : Timestamp) (accessToken : String) (reply : Reply) (x : Progress) :
    (Outcome.ofReply now accessToken reply).conclude x = (conclusion now reply, x) := by
  cases reply with
  | error f => rfl
  | ok r =>
    rw [Outcome.ofReply]
    split
    · rename_i hs
      have hf : ¬ r.isSuccess = true := fun h => r.status_ne_of_isSuccess h hs
      simp only [Outcome.conclude, conclusion, if_neg hf, if_pos hs]
    · rfl

/-- An attempt that gets its tokens: the replies before the last one reject the token. -/
structure Attempted (x y : Progress) (h : List Event) (w' : World σ)
    (result : Except Failure Response) (earlier : List Reply) (last : Reply) : Prop where
  withToken : y.withoutToken = x.withoutToken
  replies : Event.replies h = earlier ++ [last]
  rests : Event.Rests h []
  result : result = conclusion (w'.timeOfDay w'.now) last
  rejected : ∀ reply ∈ earlier, reply.rejects = true
  count : y.reauthenticated.toNat = x.reauthenticated.toNat + earlier.length
  second : last.rejects = true → y.reauthenticated = true

theorem ofReply_of_rejects {now : Timestamp} {accessToken : String} {reply : Reply}
    (h : reply.rejects = true) :
    ∃ e, Outcome.ofReply now accessToken reply = .rejected accessToken e := by
  cases reply with
  | error f => contradiction
  | ok r =>
    have hs : r.status = 401 := of_decide_eq_true h
    exact ⟨_, by rw [Outcome.ofReply, if_pos hs]⟩

theorem rejects_of_ofReply {now : Timestamp} {accessToken a : String} {reply : Reply} {e : ApiError}
    (h : Outcome.ofReply now accessToken reply = .rejected a e) :
    reply.rejects = true ∧ accessToken = a := by
  cases reply with
  | error f => cases h
  | ok r =>
    rw [Outcome.ofReply] at h
    split at h
    · rename_i hs
      cases h
      exact ⟨decide_eq_true hs, rfl⟩
    · cases h

/-- An attempt makes one request; or the first rejection makes it discard the token and ask
again. -/
theorem attempt_cases {x y : Progress} {result : Except Failure Response}
    (H : w.Runs (attempt c r x) h (result, y) w') :
    (∃ o, w.Runs (once c r) h o w' ∧ o.conclude x = (result, y) ∧
        ∀ a e, o = .rejected a e → x.reauthenticated = true) ∨
      ∃ a e o v u first dropping second, h = first ++ (dropping ++ second) ∧
        x.reauthenticated = false ∧ w.Runs (once c r) first (.rejected a e) v ∧
        v.Runs (TokenCache.discard a) dropping () u ∧ u.Runs (once c r) second o w' ∧
        o.conclude { x with reauthenticated := true } = (result, y) := by
  obtain ⟨o, v, h₁, h₂, rfl, H₁, H₂⟩ := World.runs_bind_iff.1 H
  have hone (hs : ∀ a e, o = .rejected a e → x.reauthenticated = true)
      (H₂ : v.Runs (.done (o.conclude x)) h₂ (result, y) w') :
      ∃ o, w.Runs (once c r) (h₁ ++ h₂) o w' ∧ o.conclude x = (result, y) ∧
        ∀ a e, o = .rejected a e → x.reauthenticated = true := by
    obtain ⟨rfl, hr, rfl⟩ := World.runs_done_iff.1 H₂
    rw [List.append_nil]
    exact ⟨o, H₁, hr.symm, hs⟩
  cases o with
  | settled result => exact .inl (hone nofun H₂)
  | noToken f => exact .inl (hone nofun H₂)
  | rejected a e =>
    dsimp only at H₂
    by_cases hx : x.reauthenticated = true
    · rw [if_pos hx] at H₂
      exact .inl (hone (fun _ _ _ => hx) H₂)
    · rw [if_neg hx] at H₂
      obtain ⟨_, u, h₃, h₄, rfl, H₃, H₄⟩ := World.runs_bind_iff.1 H₂
      obtain ⟨o', t, h₅, h₆, rfl, H₅, H₆⟩ := World.runs_bind_iff.1 H₄
      obtain ⟨rfl, hr, rfl⟩ := World.runs_done_iff.1 H₆
      rw [List.append_nil]
      exact .inr ⟨a, e, o', v, u, h₁, h₃, h₅, rfl, Bool.eq_false_iff.2 hx, H₁, H₃, H₅, hr.symm⟩

/-- The first reply rejects the token, and its history is that of one request. -/
theorem runs_once_rejected {a : String} {e : ApiError}
    (H : w.Runs (once c r) h (.rejected a e) w') :
    ∃ first : Reply, Event.replies h = [first] ∧ Event.Rests h [] ∧ first.rejects = true := by
  rcases runs_once H with ⟨f, ho, _⟩ | ⟨accessToken, first, hreplies, hrests, ho⟩
  · cases ho
  · exact ⟨first, hreplies, hrests, (rejects_of_ofReply ho.symm).1⟩

theorem runs_attempt {x y : Progress} {result : Except Failure Response}
    (H : w.Runs (attempt c r x) h (result, y) w') :
    (y.withoutToken = true ∧ NoToken c w h w' result ∧
        ∀ reply ∈ Event.replies h, reply.rejects = true) ∨
      ∃ earlier last, Attempted x y h w' result earlier last := by
  rcases attempt_cases H with
    ⟨o, H₁, hc, hs⟩ | ⟨a, e, o, v, u, h₁, h₂, h₃, rfl, hx, H₁, H₂, H₃, hc⟩
  · rcases runs_once H₁ with ⟨f, rfl, hget⟩ | ⟨accessToken, reply, hreplies, hrests, rfl⟩
    · cases hc
      rw [(TokenCache.runs_get hget).1.replies]
      exact .inl ⟨rfl, ⟨f, w, [], h, rfl, rfl, .refl w, hget⟩, nofun⟩
    · rw [conclude_ofReply] at hc
      cases hc
      refine .inr ⟨[], reply, rfl, hreplies, hrests, rfl, by simp, rfl, fun hrej => ?_⟩
      obtain ⟨e, he⟩ := ofReply_of_rejects hrej
      exact hs _ e he
  · obtain ⟨first, hfirst, hrests₁, hrej⟩ := runs_once_rejected H₁
    have hdiscard : Event.Apart h₂ := TokenCache.runs_discard H₂
    rcases runs_once H₃ with ⟨f, rfl, hget⟩ | ⟨accessToken, last, hlast, hrests₃, rfl⟩
    · cases hc
      refine .inl ⟨rfl, ⟨f, u, h₁ ++ h₂, h₃, rfl, (List.append_assoc ..).symm, ?_, hget⟩, ?_⟩
      · exact H₁.later.trans H₂.later
      · rw [Event.replies_append, Event.replies_append, hfirst, hdiscard.replies,
          (TokenCache.runs_get hget).1.replies]
        exact List.forall_mem_singleton.2 hrej
    · rw [conclude_ofReply] at hc
      cases hc
      refine .inr ⟨[first], last, rfl, ?_, ?_, rfl, ?_, ?_, fun _ => rfl⟩
      · rw [Event.replies_append, Event.replies_append, hfirst, hdiscard.replies, hlast]
        rfl
      · exact hrests₁.append (hdiscard.rests.append hrests₃)
      · exact List.forall_mem_singleton.2 hrej
      · simp [hx]

/-! ### The whole call -/

/-- Waits in seconds that were asked for were within the time that a call may take. -/
def Heeded (c : Config) (replies : List Reply) : Prop :=
  ∀ reply ∈ replies, ∀ n, reply.seconds? = some n → n * 10 ^ 9 ≤ c.retry.maxElapsed.nanos

theorem heeded_of_rejected {replies : List Reply} (h : ∀ reply ∈ replies, reply.rejects = true) :
    Heeded c replies := by
  intro reply hr n hn
  rw [Reply.seconds?_of_rejects (h reply hr)] at hn
  contradiction

/-- What is known of the replies so far, after these delays. -/
structure Going (c : Config) (x : Progress) (delays : List Duration) (replies : List Reply) :
    Prop where
  passing : ∀ reply ∈ replies, reply.mayPass = true ∨ reply.rejects = true
  rejections : replies.countP (·.rejects) = x.reauthenticated.toNat
  retries : delays.length = replies.countP fun reply => !reply.rejects
  inTime : ∀ d ∈ delays, d.nanos ≤ c.retry.maxElapsed.nanos
  heeded : Heeded c replies

theorem Going.attempted {x y : Progress} {delays : List Duration} {replies earlier : List Reply}
    (H : Going c x delays replies) (hrejected : ∀ reply ∈ earlier, reply.rejects = true)
    (hcount : y.reauthenticated.toNat = x.reauthenticated.toNat + earlier.length) :
    Going c y delays (replies ++ earlier) := by
  refine ⟨List.forall_mem_append.2 ⟨H.passing, fun reply hr => .inr (hrejected reply hr)⟩, ?_, ?_,
    H.inTime, List.forall_mem_append.2 ⟨H.heeded, heeded_of_rejected hrejected⟩⟩
  · have hall : earlier.countP (·.rejects) = earlier.length := List.countP_eq_length.2 hrejected
    rw [List.countP_append, H.rejections, hall, hcount]
  · have hnone : (earlier.countP fun reply => !reply.rejects) = 0 :=
      List.countP_eq_zero.2 fun reply hr => by simp [hrejected reply hr]
    rw [List.countP_append, hnone, H.retries, Nat.add_zero]

theorem Going.again {x : Progress} {delays : List Duration} {replies : List Reply} {last : Reply}
    {d : Duration} (H : Going c x delays replies) (hp : last.mayPass = true)
    (hr : last.rejects = false) (hd : d.nanos ≤ c.retry.maxElapsed.nanos)
    (hn : ∀ n, last.seconds? = some n → n * 10 ^ 9 ≤ d.nanos) :
    Going c x (delays ++ [d]) (replies ++ [last]) := by
  refine ⟨List.forall_mem_append.2 ⟨H.passing, List.forall_mem_singleton.2 (.inl hp)⟩, ?_, ?_,
    List.forall_mem_append.2 ⟨H.inTime, List.forall_mem_singleton.2 hd⟩,
    List.forall_mem_append.2 ⟨H.heeded, List.forall_mem_singleton.2 fun n hl => ?_⟩⟩
  · rw [List.countP_append, H.rejections, List.countP_singleton, hr]
    rfl
  · rw [List.countP_append, List.length_append, H.retries, List.countP_singleton, hr]
    rfl
  · exact Nat.le_trans (hn n hl) hd

/-- Before an attempt that is not the first one, or the first one. -/
structure Underway (c : Config) (w : World σ) (past : List Event) (v : World σ) (q : Schedule)
    (x : Progress) : Prop where
  later : w.Later v
  withToken : x.withoutToken = false
  going : Going c x (Event.backoffs false past) (Event.replies past)
  rests : Event.Rests past (Event.backoffs false past)
  schedule : q = .after (Event.backoffs false past)

/-- Whether there is time for a repetition after an error, as the waits so far have left it. -/
def Budget (P : RetryPolicy → Schedule → Nat → Option Duration → Prop) (c : Config) (w : World σ)
    (h : List Event) (w' : World σ) (e : Error) : Prop :=
  let q := Schedule.after (Event.backoffs false h)
  P c.retry q (w'.now - w.now) (q.proposal c.retry h e.wait?)

/-- All replies before the last one are reasons to go on, and the last one decides the result. -/
structure Concluded (c : Config) (w : World σ) (h : List Event) (w' : World σ)
    (result : Except Failure Response) (earlier : List Reply) (last : Reply) : Prop where
  replies : Event.replies h = earlier ++ [last]
  passing : ∀ reply ∈ earlier, reply.mayPass = true ∨ reply.rejects = true
  once : earlier.countP (·.rejects) ≤ 1
  second : last.rejects = true → ∃ reply ∈ earlier, reply.rejects = true
  retries : (Event.backoffs false h).length = earlier.countP fun reply => !reply.rejects
  inTime : ∀ d ∈ Event.backoffs false h, d.nanos ≤ c.retry.maxElapsed.nanos
  result : result = conclusion (w'.timeOfDay w'.now) last ∧
      (∀ e, result = .error (.error e) → e.isTransient = true →
        Budget Schedule.Exhausted c w h w' e) ∨
    result = .error .overflow ∧
      ∃ e, conclusion (w'.timeOfDay w'.now) last = .error (.error e) ∧ e.isTransient = true ∧
        Budget Schedule.Overruns c w h w' e

/-- Errors that may pass come of replies that may, and those do not reject the token. -/
theorem mayPass_of_conclusion {now : Timestamp} {reply : Reply} {e : Error}
    (H : conclusion now reply = .error (.error e)) (he : e.isTransient = true) :
    reply.mayPass = true ∧ reply.rejects = false := by
  cases reply with
  | error f => exact ⟨rfl, rfl⟩
  | ok r =>
    rw [conclusion] at H
    split at H
    · cases H
    · split at H
      · cases H
        contradiction
      · have hrejects : Reply.rejects (.ok r) = false := decide_eq_false ‹_›
        refine ⟨?_, hrejects⟩
        split at H
        · cases H
          contradiction
        · split at H
          · simp [Reply.mayPass, ‹r.status = 429›]
          · cases H
            have hs : (500 : UInt16) ≤ r.status := of_decide_eq_true he
            simp [Reply.mayPass, hs]

theorem Underway.start : Underway c w [⟨.clock, w.now, w.now, w.now⟩] w {} {} :=
  ⟨.refl w, rfl, ⟨nofun, rfl, rfl, nofun, nofun⟩, fun _ => rfl, rfl⟩

section Round

variable {past h' : List Event} {v v' u : World σ} {q : Schedule} {x y : Progress}
  {result : Except Failure Response} {earlier : List Reply} {last : Reply}

theorem Underway.replies_eq (ha : Attempted x y h v' result earlier last) (hh : Event.Apart h') :
    Event.replies (past ++ h ++ h') = Event.replies past ++ earlier ++ [last] := by
  rw [Event.replies_append, Event.replies_append, ha.replies, hh.replies, List.append_nil,
    List.append_assoc]

theorem Underway.rests_append (H : Underway c w past v q x)
    (ha : Attempted x y h v' result earlier last) (hh : Event.Apart h') :
    Event.Rests (past ++ h ++ h') (Event.backoffs false past) := by
  have hrests := (H.rests.append ha.rests).append hh.rests
  rwa [List.append_nil, List.append_nil] at hrests

/-- The schedule of the round is the one that the history tells of. -/
theorem Underway.budget {P : RetryPolicy → Schedule → Nat → Option Duration → Prop} {e : Error}
    (H : Underway c w past v q x) (ha : Attempted x y h v' result earlier last)
    (hlook : v'.Looked h' u)
    (hP : P c.retry q (v'.now - w.now) (q.proposal c.retry (past ++ h ++ h') e.wait?)) :
    Budget P c w (past ++ h ++ h') u e := by
  have hrests := H.rests_append ha (Event.apart_of_idle hlook.idle)
  rw [Budget, hrests.backoffs_eq, ← H.schedule, hlook.now]
  exact hP

theorem Underway.concluded (H : Underway c w past v q x)
    (ha : Attempted x y h v' result earlier last) (hlook : v'.Looked h' u)
    {out : Except Failure Response}
    (hout : out = conclusion (v'.timeOfDay v'.now) last ∧
        (∀ e, out = .error (.error e) → e.isTransient = true →
          Budget Schedule.Exhausted c w (past ++ h ++ h') u e) ∨
      out = .error .overflow ∧
        ∃ e, conclusion (v'.timeOfDay v'.now) last = .error (.error e) ∧ e.isTransient = true ∧
          Budget Schedule.Overruns c w (past ++ h ++ h') u e) :
    Concluded c w (past ++ h ++ h') u out (Event.replies past ++ earlier) last := by
  obtain ⟨drawn, hidle⟩ := hlook
  have hh : Event.Apart h' := Event.apart_of_idle hidle
  have hgoing : Going c y (Event.backoffs false past) (Event.replies past ++ earlier) :=
    H.going.attempted ha.rejected ha.count
  have hbackoffs := (H.rests_append ha hh).backoffs_eq
  refine ⟨Underway.replies_eq ha hh, hgoing.passing, ?_, fun hl => ?_, ?_, ?_, hout⟩
  · rw [hgoing.rejections]
    exact Bool.toNat_le y.reauthenticated
  · have hcount : 0 < (Event.replies past ++ earlier).countP (·.rejects) := by
      rw [hgoing.rejections, ha.second hl]
      decide
    exact List.countP_pos_iff.1 hcount
  · rw [hbackoffs]
    exact hgoing.retries
  · rw [hbackoffs]
    exact hgoing.inTime

/-- An attempt that failed for a reason that may pass is followed by a wait and the next one. -/
theorem Underway.again {e : Error} {d : Duration} {q' : Schedule} (H : Underway c w past v q x)
    (ha : Attempted x y h v' (.error (.error e)) earlier last) (hh : Event.Apart h')
    (he : e.isTransient = true) (hl : w.Later u)
    (hd : q.Granted c.retry (q.proposal c.retry (past ++ h ++ h') e.wait?) d q')
    (t₁ t₂ : Nat) :
    Underway c w (past ++ h ++ h' ++ [⟨.sleep d, (), t₁, t₂⟩]) u q' y := by
  have hrests := (H.rests_append ha hh).append (Event.rests_sleep d () t₁ t₂)
  have hreplies : Event.replies (past ++ h ++ h' ++ [⟨.sleep d, (), t₁, t₂⟩]) =
      Event.replies past ++ earlier ++ [last] := by
    rw [Event.replies_append, Underway.replies_eq ha hh]
    exact List.append_nil _
  -- the wait is as long as the reply asked for, and was granted because there is time for it
  obtain ⟨hpass, hrejects⟩ := mayPass_of_conclusion ha.result.symm he
  have hasked (n : Nat) (hn : last.seconds? = some n) : n * 10 ^ 9 ≤ d.nanos := by
    obtain ⟨e', d', he', _, hwait, hnanos⟩ := wait?_of_seconds? (v'.timeOfDay v'.now) hn
    rw [← ha.result] at he'
    cases he'
    rw [← hnanos]
    refine hd.proposed d' ?_
    rw [hwait]
    rfl
  refine ⟨hl, ha.withToken.trans H.withToken, ?_, ?_, ?_⟩
  · rw [hreplies, hrests.backoffs_eq]
    exact (H.going.attempted ha.rejected ha.count).again hpass hrejects hd.inTime hasked
  · rw [hrests.backoffs_eq]
    exact hrests
  · rw [hrests.backoffs_eq, Schedule.after_append, ← H.schedule]
    exact hd.schedule

end Round

/-- A call ends without a token, or as its last reply says. -/
theorem rounds (c : Config) (r : Request) (w : World σ) :
    World.Rounds c.retry mayPass (attempt c r) w.now (Underway c w) fun h w' p =>
      (NoToken c w h w' p.1 ∧ Heeded c (Event.replies h)) ∨
        ∃ earlier last, Concluded c w h w' p.1 earlier last := by
  have hagain {x : Progress} {e : Error} (h : mayPass x e = true) :
      e.isTransient = true ∧ x.withoutToken = false := by
    simpa [mayPass] using h
  refine ⟨fun {past h v v' q x y result} H ha hs => ?_,
    fun {past h h' v v' u q s x y e} H ha he hlook hnext => ?_,
    fun {past h h' v v' u q s x y e} H ha he hlook hnext => ?_,
    fun {past h h' v v' u t q q' x y e d} H ha he hlook hnext hsleep => ?_⟩
  · rcases runs_attempt ha with ⟨_, hno, hrejected⟩ | ⟨earlier, last, hatt⟩
    · refine .inl ⟨hno.of_append H.later, ?_⟩
      rw [Event.replies_append]
      exact List.forall_mem_append.2 ⟨H.going.heeded, heeded_of_rejected hrejected⟩
    · have hy : y.withoutToken = false := hatt.withToken.trans H.withToken
      have hfinal (e : Error) (he : result = .error (.error e)) (ht : e.isTransient = true) :
          Budget Schedule.Exhausted c w (past ++ h ++ []) v' e := by
        have hm := hs e he
        rw [mayPass, ht, hy] at hm
        contradiction
      have hconcl := H.concluded hatt (World.looked_nil v') (.inl ⟨hatt.result, hfinal⟩)
      rw [List.append_nil] at hconcl
      exact .inr ⟨_, last, hconcl⟩
  -- an error that calls for a repetition is the conclusion of an attempt with its tokens
  all_goals
    obtain ⟨ht, hy⟩ := hagain he
    obtain ⟨hno, _⟩ | ⟨earlier, last, hatt⟩ := runs_attempt ha
    · rw [hy] at hno
      contradiction
    have hh : Event.Apart h' := Event.apart_of_idle hlook.idle
  · refine .inr ⟨_, last, H.concluded hatt hlook (.inl ⟨hatt.result, fun e' he' _ => ?_⟩)⟩
    cases he'
    exact H.budget hatt hlook (Schedule.exhausted_of_next hnext)
  · refine .inr ⟨_, last, H.concluded hatt hlook (.inr ⟨rfl, e, hatt.result.symm, ht, ?_⟩)⟩
    exact H.budget hatt hlook (Schedule.overruns_of_next hnext)
  · have hl : w.Later u := (H.later.trans ha.later).trans hlook.later
    have hlater : w.Later t := hl.trans (World.later_answer? hsleep)
    exact H.again hatt hh ht hlater (Schedule.granted_of_next hnext) _ _

/-- What a call does are its attempts; how far it has come is of no use when it is over. -/
theorem attempts_of_runs {result : Except Failure Response} (H : w.Runs (run c r) h result w') :
    ∃ y, w.Runs (Program.repeating c.retry mayPass (attempt c r) {}) h (result, y) w' := by
  obtain ⟨⟨_, y⟩, v, h₁, h₂, rfl, H₁, H₂⟩ := World.runs_bind_iff.1 H
  obtain ⟨rfl, rfl, rfl⟩ := World.runs_done_iff.1 H₂
  rw [List.append_nil]
  exact ⟨y, H₁⟩

theorem concluded_of_runs {result : Except Failure Response} (H : w.Runs (run c r) h result w') :
    (NoToken c w h w' result ∧ Heeded c (Event.replies h)) ∨
      ∃ earlier last, Concluded c w h w' result earlier last := by
  obtain ⟨_, H⟩ := attempts_of_runs H
  exact (rounds c r w).repeating Underway.start H

end Delivery

/-- A call whose client has the cache to itself comes to an end. When every token that it needs can
be had, all replies before the last one are reasons to go on, one at most of them a rejection of the
token, and the last one decides the result; an error that may pass is the result only when the
repetitions are used up or there is no time for one more. -/
theorem outcome_of_last_reply {σ : Type} (c : Config) (method : Http.Method) (path : String)
    (body : Option Bytes) (w : World σ) (h : w.line = []) :
    let call := Delivery.run c (Delivery.request c method path body)
    ∃ result w', w.solo none call = (some result, w') ∧
      (Delivery.NoToken c w (w.history call) w' result ∨
        ∃ earlier last, Delivery.Concluded c w (w.history call) w' result earlier last) := by
  intro call
  obtain ⟨result, w', H⟩ := Delivery.exists_runs (Delivery.request c method path body) h
  exact ⟨result, w', H.solo_eq, (Delivery.concluded_of_runs H).imp_left And.left⟩

/-- A call that meets with an outage and a rejection before it succeeds. -/
def World.troubled : World Script :=
  .scripted {
    replies := [.ofError 503 "down", .ofError 401 "expired", .ofText 200 "done"]
    defaultToken := some (.token "fresh" 3600)
    delay := some (.ofSeconds 1) }

theorem outcome_of_troubled :
    let call := Delivery.run .plain (Delivery.request .plain .get "/volumes" none)
    World.troubled.line = [] ∧
      ((World.troubled.solo none call).1.bind (·.toOption)).map (·.body) =
        some (Utf8.encode "done") ∧
      Event.backoffs false (World.troubled.history call) = [.ofMillis 500] ∧
      ∃ result w', World.troubled.solo none call = (some result, w') ∧
        (Delivery.NoToken .plain World.troubled (World.troubled.history call) w' result ∨
          ∃ earlier last, Delivery.Concluded .plain World.troubled (World.troubled.history call) w'
            result earlier last) :=
  ⟨rfl, by decide +kernel, by decide +kernel,
    outcome_of_last_reply .plain .get "/volumes" none .troubled rfl⟩

end CloudClient
