import CloudClient.Proofs.Delivery.Effort

/-!
What a failure of the network means for a call. If it is the failure of an acquisition, whatever has
happened before, the call is over and has that for its result. If it is that of a request with a
token, the call goes on with a wait and another attempt, unless there is no repetition left or no
time for one.
-/

namespace CloudClient

namespace Delivery

open Http (Request Response)

variable {σ : Type} {c : Config} {r : Request} {w w' : World σ} {h : List Event}

/-- An attempt: a token is got, and if there is one the request is sent with it. -/
def Resumes (c : Config) (r : Request) (h : List Event) : Prop :=
  ∃ result after, (TokenCache.get c).replay? h = some (result, after) ∧
    ∀ token, result = .ok token → ∃ x began ended more,
      after = ⟨.send (authorized r token.accessToken), x, began, ended⟩ :: more

theorem resumes_of_once {o : Outcome} (H : w.Runs (once c r) h o w') (rest : List Event) :
    Resumes c r (h ++ rest) := by
  rcases answered_of_runs H with ⟨f, _, hget⟩ | ⟨getting, look, token, v, x, ha⟩
  · refine ⟨.error f, rest, hget.replay?_append rest, ?_⟩
    rintro _ ⟨⟩
  · rw [ha.history, List.append_assoc]
    refine ⟨.ok token, _, ha.got.replay?_append _, ?_⟩
    rintro _ ⟨⟩
    exact ⟨x, v.now, w'.now, look ++ rest, rfl⟩

theorem resumes_of_attempt {x : Progress} {out : Except Failure Response × Progress}
    (H : w.Runs (attempt c r x) h out w') (rest : List Event) : Resumes c r (h ++ rest) := by
  obtain ⟨o, v, h₁, h₂, rfl, H₁, _⟩ := World.runs_bind_iff.1 H
  rw [List.append_assoc]
  exact resumes_of_once H₁ _

/-- After a failure at some time a call that began in this world waits, within the time that it may
take, and makes another attempt. -/
def Retried (c : Config) (r : Request) (w : World σ) (failed : Nat) (later : List Event) : Prop :=
  ∃ look d next more, World.Idle look ∧ later = look ++ ⟨.sleep d, (), failed, next⟩ :: more ∧
    failed - w.now + d.nanos ≤ c.retry.maxElapsed.nanos ∧ Resumes c r more

/-- What becomes of a failure of the network that a request with a token meets with. -/
def Persists (c : Config) (r : Request) (w : World σ) (final : NetworkFailure → Prop) (e : Event)
    (later : List Event) : Prop :=
  ∀ f, e.reply? = some (.error f) →
    Retried c r w e.ended later ∨ World.Idle later ∧ final f

section

variable {final : NetworkFailure → Prop} {rest : List Event}

theorem persists_of_replies (hr : Event.replies h = []) :
    Event.EachThen (Persists c r w final) rest h := by
  refine Event.eachThen_of_forall fun e he later f hf => ?_
  rw [List.filterMap_eq_nil_iff.1 hr e he] at hf
  cases hf

theorem persists_of_idle (H : World.Idle h) : Event.EachThen (Persists c r w final) rest h :=
  persists_of_replies (Event.apart_of_idle H).replies

/-- The look at the clock after a reply belongs to what comes later. -/
theorem later_of_idle {look : List Event} {failed : Nat} {P : Prop} (hlook : World.Idle look)
    (H : Retried c r w failed rest ∨ World.Idle rest ∧ P) :
    Retried c r w failed (look ++ rest) ∨ World.Idle (look ++ rest) ∧ P := by
  rcases H with ⟨look', d, next, more, hlook', rfl, hd, hmore⟩ | ⟨hrest, hP⟩
  · refine .inl ⟨look ++ look', d, next, more, hlook.append hlook', ?_, hd, hmore⟩
    rw [List.append_assoc]
  · exact .inr ⟨hlook.append hrest, hP⟩

theorem persists_once {v : World σ} {o : Outcome} (H : v.Runs (once c r) h o w')
    (hrest : ∀ f, o = .settled (.error (.error (.network f))) →
      Retried c r w w'.now rest ∨ World.Idle rest ∧ final f) :
    Event.EachThen (Persists c r w final) rest h := by
  rcases answered_of_runs H with ⟨_, _, hget⟩ | ⟨getting, look, token, u, x, ha⟩
  · exact persists_of_replies (TokenCache.runs_get hget).1.replies
  · rw [ha.history]
    refine Event.eachThen_append.2
      ⟨persists_of_replies (TokenCache.runs_get ha.got).1.replies, ?_, persists_of_idle ha.look⟩
    intro f hf
    simp only [Event.reply?, asksForToken_authorized, Bool.false_eq_true, if_false,
      Option.some.injEq] at hf
    subst hf
    exact later_of_idle ha.look (hrest f ha.outcome)

theorem persists_attempt {v : World σ} {x y : Progress} {result : Except Failure Response}
    (H : v.Runs (attempt c r x) h (result, y) w')
    (hrest : ∀ f, result = .error (.error (.network f)) → y.withoutToken = x.withoutToken →
      Retried c r w w'.now rest ∨ World.Idle rest ∧ final f) :
    Event.EachThen (Persists c r w final) rest h := by
  have hlast {o : Outcome} {z : Progress} (ho : o.conclude z = (result, y))
      (hz : z.withoutToken = x.withoutToken) (f : NetworkFailure)
      (hf : o = .settled (.error (.error (.network f)))) :
      Retried c r w w'.now rest ∨ World.Idle rest ∧ final f := by
    subst hf
    cases ho
    exact hrest f rfl hz
  rcases attempt_cases H with
    ⟨o, H₁, ho, _⟩ | ⟨a, e, o, v, u, h₁, h₂, h₃, rfl, _, H₁, H₂, H₃, ho⟩
  · exact persists_once H₁ (hlast ho rfl)
  · exact Event.eachThen_append.2 ⟨persists_once H₁ nofun, Event.eachThen_append.2
      ⟨persists_of_replies (TokenCache.runs_discard H₂).replies, persists_once H₃ (hlast ho rfl)⟩⟩

end

/-! ### The whole call -/

/-- A failure of the network is the result, or what stands for it when no duration can hold the time
of a repetition. -/
def Final (c : Config) (w : World σ) (h : List Event) (w' : World σ)
    (result : Except Failure Response) (f : NetworkFailure) : Prop :=
  result = .error (.error (.network f)) ∧
      Budget Schedule.Exhausted c w h w' (.network f) ∨
    result = .error .overflow ∧ Budget Schedule.Overruns c w h w' (.network f)

theorem rests_attempt {x : Progress} {out : Except Failure Response × Progress}
    (H : w.Runs (attempt c r x) h out w') : Event.Rests h [] := by
  have hrests {v v' : World σ} {h : List Event} {o : Outcome} (H : v.Runs (once c r) h o v') :
      Event.Rests h [] := by
    rcases answered_of_runs H with ⟨_, _, hget⟩ | ⟨_, _, _, _, _, ha⟩
    · exact (TokenCache.runs_get hget).1.rests
    · exact ha.rests
  rcases attempt_cases H with
    ⟨_, H₁, _, _⟩ | ⟨_, _, _, _, _, h₁, h₂, h₃, rfl, _, H₁, H₂, H₃, _⟩
  · exact hrests H₁
  · exact (hrests H₁).append ((TokenCache.runs_discard H₂).rests.append (hrests H₃))

/-- What is known before an attempt: what becomes of the failures so far is known if an attempt is
what comes next. -/
structure Persisting (c : Config) (r : Request) (w : World σ) (past : List Event) (v : World σ)
    (q : Schedule) (x : Progress) : Prop where
  underway : Underway c w past v q x
  retries : q.retries ≤ c.retry.maxRetries.toNat
  persists : ∀ final rest, Resumes c r rest → Event.EachThen (Persists c r w final) rest past

theorem persisting_rounds (c : Config) (r : Request) (w : World σ) :
    World.Rounds c.retry mayPass (attempt c r) w.now (Persisting c r w)
      (fun h w' p => (Event.backoffs false h).length ≤ c.retry.maxRetries.toNat ∧
        Event.EachThen (Persists c r w (Final c w h w' p.1)) [] h) := by
  have hcount {past h h' : List Event} {v v' : World σ} {q : Schedule} {x : Progress}
      {out : Except Failure Response × Progress} (hI : Persisting c r w past v q x)
      (H : v.Runs (attempt c r x) h out v') (hidle : World.Idle h') :
      (Event.backoffs false (past ++ h ++ h')).length ≤ c.retry.maxRetries.toNat := by
    have hrests := (hI.underway.rests.append (rests_attempt H)).append
      (Event.apart_of_idle hidle).rests
    rw [hrests.backoffs_eq, List.append_nil, List.append_nil]
    have hretries := hI.retries
    rwa [hI.underway.schedule] at hretries
  have hends {past h h' : List Event} {v v' u : World σ} {q : Schedule} {x y : Progress}
      {result o : Except Failure Response} (hI : Persisting c r w past v q x)
      (H : v.Runs (attempt c r x) h (result, y) v') (hidle : World.Idle h')
      (hfinal : ∀ f, result = .error (.error (.network f)) → y.withoutToken = x.withoutToken →
        Final c w (past ++ h ++ h') u o f) :
      Event.EachThen (Persists c r w (Final c w (past ++ h ++ h') u o)) [] (past ++ h ++ h') := by
    rw [List.append_assoc]
    refine Event.eachThen_append.2 ⟨?_, Event.eachThen_append.2 ⟨?_, persists_of_idle hidle⟩⟩
    · refine hI.persists _ _ ?_
      rw [List.append_nil]
      exact resumes_of_attempt H h'
    · rw [← List.append_assoc, List.append_nil]
      exact persists_attempt H fun f hf hy => .inr ⟨hidle, hfinal f hf hy⟩
  refine ⟨fun {past h v v' q x y result} hI H hs => ?_,
    fun {past h h' v v' u q s x y e} hI H he hlook hnext => ?_,
    fun {past h h' v v' u q s x y e} hI H he hlook hnext => ?_,
    fun {past h h' v v' u t q q' x y e d} hI H he hlook hnext hsleep => ?_⟩
  · have hcounted := hcount hI H World.idle_nil
    have hresult := hends (u := v') (o := result) hI H World.idle_nil fun f hf hy => ?_
    · rw [List.append_nil] at hcounted hresult
      exact ⟨hcounted, hresult⟩
    · -- a failure of a request with a token is one that may pass
      have hno := hs (.network f) hf
      rw [mayPass, hy, hI.underway.withToken] at hno
      cases hno
  -- an error that calls for a repetition is the conclusion of an attempt with its tokens
  all_goals
    obtain ⟨hy, _⟩ | ⟨earlier, last, hatt⟩ := runs_attempt H
    · rw [mayPass, hy, Bool.not_true, Bool.and_false] at he
      cases he
    have hidle : World.Idle h' := hlook.idle
  · refine ⟨hcount hI H hidle, hends hI H hidle fun f hf _ => .inl ⟨hf, ?_⟩⟩
    cases hf
    exact hI.underway.budget hatt hlook (Schedule.exhausted_of_next hnext)
  · refine ⟨hcount hI H hidle, hends hI H hidle fun f hf _ => .inr ⟨rfl, ?_⟩⟩
    cases hf
    exact hI.underway.budget hatt hlook (Schedule.overruns_of_next hnext)
  · obtain ⟨hleft, hq', htime, _⟩ := Schedule.wait_of_next hnext
    refine ⟨(rounds c r w).wait hI.underway H he hlook hnext hsleep, ?_, fun final rest hrest => ?_⟩
    · rw [hq']
      exact hleft
    · rw [List.append_assoc, List.append_assoc]
      refine Event.eachThen_append.2 ⟨?_, Event.eachThen_append.2 ⟨?_, ?_⟩⟩
      · refine hI.persists _ _ ?_
        rw [List.append_assoc]
        exact resumes_of_attempt H _
      · refine persists_attempt H fun f _ _ => .inl ?_
        rw [List.append_assoc]
        exact ⟨h', d, t.now, rest, hidle, rfl, htime, hrest⟩
      · exact Event.eachThen_append.2 ⟨persists_of_idle hidle, persists_of_replies rfl⟩

theorem persists_of_runs {result : Except Failure Response} (H : w.Runs (run c r) h result w') :
    (Event.backoffs false h).length ≤ c.retry.maxRetries.toNat ∧
      Event.EachThen (Persists c r w (Final c w h w' result)) [] h := by
  obtain ⟨_, H⟩ := attempts_of_runs H
  refine (persisting_rounds c r w).repeating ⟨.start, Nat.zero_le _, fun _ _ _ => ?_⟩ H
  exact persists_of_replies rfl

end Delivery

/-- An acquisition that fails is the last thing that a call does, however many attempts and
rejections came before it, and its failure is the result, even one that may pass. A failure of the
network that a request with a token meets with is another matter: a wait and another attempt follow
it, unless the repetitions are used up or there is no time for one more. -/
theorem token_failure_final {σ : Type} (c : Config) (method : Http.Method) (path : String)
    (body : Option Bytes) (w : World σ) (hl : w.line = []) :
    let r := Delivery.request c method path body
    let call := Delivery.run c r
    ∃ result w', w.solo none call = (some result, w') ∧
      (∀ before rest f after, w.history call = before ++ rest →
        (TokenCache.get c).replay? rest = some (.error f, after) →
          after = [] ∧ result = .error f) ∧
      (Event.backoffs false (w.history call)).length ≤ c.retry.maxRetries.toNat ∧
      ∀ before s f began ended later,
        w.history call = before ++ ⟨.send s, .error f, began, ended⟩ :: later →
        s.asksForToken = false →
          Delivery.Retried c r w ended later ∨
            World.Idle later ∧ Delivery.Final c w (w.history call) w' result f := by
  intro r call
  obtain ⟨result, w', H⟩ := Delivery.exists_runs r hl
  obtain ⟨hcount, hpersists⟩ := Delivery.persists_of_runs H
  refine ⟨result, w', H.solo_eq, fun before rest f after hh hf => ?_, hcount,
    fun before s f began ended later hh hs => ?_⟩
  · have hdecisive := Delivery.decisive_of_runs H
    rw [hh] at hdecisive
    cases rest with
    | nil => cases hf
    | cons e later => exact hdecisive.of_split.last f after hf
  · have hsplit : Event.EachThen (Delivery.Persists c r w
        (Delivery.Final c w (w.history call) w' result)) []
        (before ++ ⟨.send s, .error f, began, ended⟩ :: later) := by
      rw [← hh]
      exact hpersists
    refine hsplit.of_split f ?_
    rw [Event.reply?, hs]
    rfl

/-- Both servers fail: the one that is called once, and the one for tokens when a new one is needed
after a rejection. -/
def World.forsaken : World Script :=
  .scripted {
    tokenReplies := [.token "first" 3600, .failure .timeout, .failure .timeout]
    replies := [.failure .timeout, .ofError 401 "expired", .ofText 200 "done"] }

theorem token_failure_final_of_forsaken :
    let r := Delivery.request .hurried .get "/volumes" none
    let call := Delivery.run .hurried r
    let history := World.forsaken.history call
    World.forsaken.line = [] ∧
      (World.forsaken.solo none call).1.map (·.isOk) = some false ∧
      (Event.requests history).map (·.request.asksForToken) = [true, false, false, true, true] ∧
      ∃ result w', World.forsaken.solo none call = (some result, w') ∧
        (∀ before rest f after, history = before ++ rest →
          (TokenCache.get .hurried).replay? rest = some (.error f, after) →
            after = [] ∧ result = .error f) ∧
        (Event.backoffs false history).length ≤ Config.hurried.retry.maxRetries.toNat ∧
        ∀ before s f began ended later,
          history = before ++ ⟨.send s, .error f, began, ended⟩ :: later →
          s.asksForToken = false →
            Delivery.Retried .hurried r .forsaken ended later ∨
              World.Idle later ∧ Delivery.Final .hurried .forsaken history w' result f :=
  ⟨rfl, by decide +kernel, by decide +kernel,
    token_failure_final .hurried .get "/volumes" none .forsaken rfl⟩

end CloudClient
