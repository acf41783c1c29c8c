import CloudClient.Proofs.Token.Getting

/-!
Waits in seconds that the token endpoint asks for. A request for a token is not repeated after a
reply, whatever the reply asks for; so a token is had after that only where a refresh token was
refused.
-/

namespace CloudClient

open Http (Request Response)

namespace Reply

/-- The number of seconds that a reply asks to wait, however large it is. -/
def asked? : Reply → Option Nat
  | .ok r =>
    if r.status = 429 then
      (r.header? "retry-after").bind fun value => Text.digits? (Text.trim value).toList
    else none
  | .error _ => none

theorem asked?_of_ne {r : Response} (h : r.status ≠ 429) : asked? (.ok r) = none :=
  if_neg h

end Reply

namespace Event

/-- The number of seconds that the reply to a request asks to wait. -/
def asked? : Event → Option Nat
  | ⟨.send _, x, _, _⟩ => Reply.asked? x
  | _ => none

/-- No reply asks for a wait. -/
def Unasked (h : List Event) : Prop :=
  ∀ e ∈ h, e.asked? = none

theorem unasked_of_idle {h : List Event} (H : World.Idle h) : Unasked h :=
  H.forall_mem (fun _ _ _ => rfl) (fun _ _ _ => rfl) fun _ _ _ => rfl

theorem Unasked.append {h₁ h₂ : List Event} (H₁ : Unasked h₁) (H₂ : Unasked h₂) :
    Unasked (h₁ ++ h₂) :=
  List.forall_mem_append.2 ⟨H₁, H₂⟩

end Event

namespace TokenCache

variable {σ : Type} {c : Config} {w w' : World σ} {h : List Event}

/-! ### Requests for tokens -/

/-- Waits are asked for by replies to this request only. -/
def AskedOf (r : Request) (h : List Event) : Prop :=
  ∀ e ∈ h, e.asked? = none ∨ e.effect = .send r

theorem askedOf_of_unasked {r : Request} (H : Event.Unasked h) : AskedOf r h :=
  fun e he => .inl (H e he)

theorem AskedOf.append {r : Request} {h₁ h₂ : List Event} (H₁ : AskedOf r h₁)
    (H₂ : AskedOf r h₂) : AskedOf r (h₁ ++ h₂) :=
  List.forall_mem_append.2 ⟨H₁, H₂⟩

/-- No request for a token is repeated after a reply, whatever that asks for. -/
theorem asked_rounds (p : RetryPolicy) (r : Request) (started : Nat) :
    World.Rounds (σ := σ) p (fun () => Error.isTransient)
      (fun () => do return (← Program.request r, ())) started
      (fun past _ _ _ => Event.Unasked past)
      (fun h _ result => AskedOf r h ∧
        ∀ response, result.1 = .ok response → response.status ≠ 429 → Event.Unasked h) := by
  have hone {v v' : World σ} {h : List Event} {result : Except Failure Response × Unit}
      (H : v.Runs (do return (← Program.request r, ())) h result v') :
      AskedOf r h ∧ ((∀ response, result.1 = .ok response → response.status ≠ 429) →
        Event.Unasked h) := by
    obtain ⟨x, rfl, hr⟩ := runs_attempt_request H
    refine ⟨List.forall_mem_singleton.2 (.inr rfl), fun hs => List.forall_mem_singleton.2 ?_⟩
    cases x with
    | error f => rfl
    | ok response => exact Reply.asked?_of_ne (hs response hr)
  refine ⟨fun {past h _ _ _ _ _ result} hI H _ => ?_, fun hI H _ hlook _ => ?_,
    fun hI H _ hlook _ => ?_, fun hI H _ hlook _ _ => ?_⟩
  · refine ⟨(askedOf_of_unasked hI).append (hone H).1, fun response hr hs => ?_⟩
    refine hI.append ((hone H).2 fun response' hr' => ?_)
    rw [hr] at hr'
    cases hr'
    exact hs
  -- an attempt that fails has had no response
  all_goals
    have hfailed := (hone H).2 nofun
    have hpast := (hI.append hfailed).append (Event.unasked_of_idle hlook.idle)
  · exact ⟨askedOf_of_unasked hpast, nofun⟩
  · exact ⟨askedOf_of_unasked hpast, nofun⟩
  · exact hpast.append (List.forall_mem_singleton.2 rfl)

/-- A response with a token in it is a success. -/
theorem status_ne_of_reading {now : Timestamp} {response : Response} {t : Token}
    (h : reading now response = .ok t) : response.status ≠ 429 := by
  intro hs
  have hfail : TokenResponse.ofHttp response =
      .error (.exchangeRejected (.ofResponse response.status response.body)) := by
    rw [TokenResponse.ofHttp, Response.isSuccess, hs]
    exact if_neg (by decide)
  rw [reading, hfail] at h
  cases h

theorem asked_of_fetch {g : Grant} {r : Except Failure Token} (H : w.Runs (fetch c g) h r w') :
    AskedOf (g.request c) h ∧ ∀ t, r = .ok t → Event.Unasked h := by
  obtain ⟨result, asking, look, rfl, H₁, hlook, rfl⟩ := runs_fetch H
  obtain ⟨hasked, hunasked⟩ := (asked_rounds c.retry (g.request c) w.now).repeating
    (List.forall_mem_singleton.2 rfl) (World.runs_retrying H₁)
  have hidle : Event.Unasked look := Event.unasked_of_idle hlook.idle
  refine ⟨hasked.append (askedOf_of_unasked hidle), fun t ht => ?_⟩
  cases result with
  | error f => cases ht
  | ok response => exact (hunasked response rfl (status_ne_of_reading ht)).append hidle

/-- Waits are asked for by replies to requests on a refresh token only. -/
def Refused (c : Config) (h : List Event) : Prop :=
  ∀ e ∈ h, e.asked? = none ∨ ∃ token, e.effect = .send ((Grant.refreshToken token).request c)

theorem refused_of_unasked (H : Event.Unasked h) : Refused c h :=
  fun e he => .inl (H e he)

theorem refused_of_askedOf {token : String}
    (H : AskedOf ((Grant.refreshToken token).request c) h) : Refused c h :=
  fun e he => (H e he).imp_right fun hs => ⟨token, hs⟩

theorem Refused.append {h₁ h₂ : List Event} (H₁ : Refused c h₁) (H₂ : Refused c h₂) :
    Refused c (h₁ ++ h₂) :=
  List.forall_mem_append.2 ⟨H₁, H₂⟩

theorem refused_of_renew {refreshToken : Option String} {t : Token}
    (H : w.Runs (renew c refreshToken) h (.ok t) w') : Refused c h := by
  rcases renew_cases H with ⟨g, H, _⟩ | ⟨token, e, v, h₁, h₂, _, rfl, H₁, H₂⟩
  · exact refused_of_unasked ((asked_of_fetch H).2 t rfl)
  · have hfirst : Refused c h₁ := refused_of_askedOf (asked_of_fetch H₁).1
    exact hfirst.append (refused_of_unasked ((asked_of_fetch H₂).2 t rfl))

theorem refused_of_get {t : Token} (H : w.Runs (get c) h (.ok t) w') : Refused c h := by
  obtain ⟨cached, u, h₀, _, rfl, H₀⟩ := World.runs_ask_iff.1 H
  have htaken : Refused c [⟨.acquire, cached, w.now, u.now⟩] :=
    refused_of_unasked (List.forall_mem_singleton.2 rfl)
  have hgiven (kept : Option Token) (t₁ t₂ : Nat) : Refused c [⟨.release kept, (), t₁, t₂⟩] :=
    refused_of_unasked (List.forall_mem_singleton.2 rfl)
  change u.Runs (usable? c cached >>= _) h₀ _ w' at H₀
  obtain ⟨found, v, h₁, h₂, rfl, H₁, H₂⟩ := World.runs_bind_iff.1 H₀
  have hlook : Refused c h₁ := refused_of_unasked (Event.unasked_of_idle (runs_usable? H₁).2.1)
  refine htaken.append (hlook.append ?_)
  cases found with
  | some t =>
    obtain ⟨_, _, rfl⟩ := runs_release H₂
    exact hgiven _ _ _
  | none =>
    obtain ⟨result, v, h₃, h₄, rfl, H₃, H₄⟩ := World.runs_bind_iff.1 H₂
    cases result with
    | ok t =>
      obtain ⟨_, _, rfl⟩ := runs_release H₄
      exact (refused_of_renew H₃).append (hgiven _ _ _)
    | error f => cases (runs_release H₄).1

end TokenCache

end CloudClient
