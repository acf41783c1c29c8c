import CloudClient.Proofs.Delivery.Outcome
import CloudClient.Proofs.Token.Lineage

/-!
Rejected tokens. A call whose token was rejected goes on with a newer one, whatever others do to the
cache in the meantime: it gives the cache back without the rejected token before it sends anything
else, and from then on that token is gone.
-/

namespace CloudClient

open Http (Request Response)

namespace Delivery

open Bearings (Free)

variable {c : Config} {r : Request} {s : Account × Bearings}

/-- A task after a request: its token was rejected, or it may go on. -/
def Followed (s : Account × Bearings) : Outcome → Prop
  | .rejected accessToken _ => s.1 = {} ∧ s.2.suspect = some accessToken
  | _ => Free s

/-- A look at the time of day changes nothing for a task without the cache. -/
theorem bearings_dated {α : Type} {f : Timestamp → α} {p : Program α} (hp : Dated f p)
    (hs : s.1 = {}) : Bearings.conduct.Obeys (fun s' _ => s' = s) p s := by
  cases hp with
  | never _ => rfl
  | once =>
    obtain ⟨a, b⟩ := s
    obtain rfl : a = {} := hs
    exact ⟨⟨trivial, trivial⟩, fun _ _ => rfl⟩

theorem bearings_once (hs : Free s) :
    Bearings.conduct.Obeys Followed (once c r) s := by
  refine (Bearings.obeys_get hs).bind ?_
  rintro s₁ (f | token) ⟨⟨hblank, hclear⟩, hgave⟩
  · exact ⟨hblank, hclear⟩
  · have hpermits : Bearings.conduct.Permits s₁ (.send (authorized r token.accessToken)) := by
      refine ⟨trivial, fun a ha => ⟨hclear, token, hgave token rfl, ?_⟩⟩
      rw [bearer?_authorized] at ha
      exact Option.some.inj ha
    refine ⟨hpermits, fun x _ => ?_⟩
    have hafter : Bearings.conduct.after s₁ (.send (authorized r token.accessToken)) x =
        ({}, { s₁.2 with suspect := Notes.rejection token.accessToken x }) := by
      obtain ⟨a, b⟩ := s₁
      obtain rfl : a = {} := hblank
      simp only [Conduct.after, Conduct.step, Account.step, asksForToken_authorized,
        Bearings.conduct, Bearings.step, Deed.rejects?, bearer?_authorized, Option.bind_some]
      rfl
    rw [hafter]
    cases x with
    | error f => exact ⟨rfl, rfl⟩
    | ok response =>
      change Bearings.conduct.Obeys _ (if response.status = 401 then _ else _) _
      by_cases h401 : response.status = 401
      · rw [if_pos h401]
        exact ⟨rfl, if_pos h401⟩
      · rw [if_neg h401]
        refine (bearings_dated (dated_meaning h401) rfl).bind ?_
        rintro _ result rfl
        exact ⟨rfl, if_neg h401⟩

/-- A second rejection is the end of the call. -/
theorem bearings_attempt {x : Progress} (hs : Free s) :
    Bearings.conduct.Obeys (fun s' p => s'.1 = {} ∧ (s'.2.suspect = none ∨
        ∃ e, p.1 = .error (.error (.auth (.rejectedAfterRefresh e) (some 401)))))
      (attempt c r x) s := by
  have hconclude {s' : Account × Bearings} {o : Outcome} (x : Progress) (ho : Followed s' o) :
      s'.1 = {} ∧ (s'.2.suspect = none ∨
        ∃ e, (o.conclude x).1 = .error (.error (.auth (.rejectedAfterRefresh e) (some 401)))) := by
    cases o with
    | settled result => exact ⟨ho.1, .inl ho.2⟩
    | noToken f => exact ⟨ho.1, .inl ho.2⟩
    | rejected a e => exact ⟨ho.1, .inr ⟨e, rfl⟩⟩
  refine (bearings_once hs).bind ?_
  rintro s₁ (result | f | ⟨a, e⟩) h₁
  · exact hconclude x h₁
  · exact hconclude x h₁
  · dsimp only
    split
    · exact hconclude x h₁
    · refine (Bearings.obeys_discard h₁.1 fun b hb => ?_).bind fun s₂ _ h₂ => ?_
      · exact (Option.some.inj (h₁.2.symm.trans hb)).symm
      · refine (bearings_once h₂).bind fun s₃ o h₃ => ?_
        exact hconclude { x with reauthenticated := true } h₃

theorem bearings_run (hs : Free s) : Bearings.conduct.Obeys (fun _ _ => True) (run c r) s := by
  have hquiet {s : Account × Bearings} (hs : s.1 = {}) : Bearings.conduct.Quiet s := by
    obtain ⟨a, b⟩ := s
    obtain rfl : a = {} := hs
    exact ⟨⟨⟨trivial, trivial⟩, fun _ => rfl⟩, ⟨⟨trivial, trivial⟩, fun _ => rfl⟩,
      fun _ => ⟨⟨trivial, trivial⟩, fun _ => rfl⟩⟩
  refine (Conduct.obeys_repeating (I := fun _ s => Free s) (Q := fun _ _ => True) ?_ hs
    (hquiet hs.1).clock).bind fun _ _ _ => trivial
  intro x s hs
  refine (bearings_attempt hs).mono fun s' p h => ⟨trivial, fun e he hagain => ?_⟩
  rcases h.2 with hclear | ⟨e', he'⟩
  · exact ⟨⟨h.1, hclear⟩, hquiet h.1, trivial⟩
  · rw [he] at he'
    cases he'
    cases hagain

end Delivery

/-- What may be done with a client: a call, or one of the functions of its token cache, and
something with the outcome. -/
inductive Dealing (c : Config) {α : Type} : Program α → Prop where
  | call (method : Http.Method) (path : String) (body : Option Bytes)
      (f : Except Failure Response → α) :
      Dealing c (do return f (← Delivery.run c (Delivery.request c method path body)))
  | get (f : Except Failure Token → α) : Dealing c (do return f (← TokenCache.get c))
  | peek (f : Option Token → α) : Dealing c (do return f (← TokenCache.peek))
  | clear (f : Unit → α) : Dealing c (do return f (← TokenCache.clear))
  | discard (accessToken : String) (f : Unit → α) :
      Dealing c (do return f (← TokenCache.discard accessToken))

namespace Dealing

variable {c : Config} {α : Type} {p : Program α}

theorem usesCache (hp : Dealing c p) : UsesCache c p := by
  cases hp with
  | call method path body f => exact (Delivery.usesCache_run c _).bind fun _ => .done _
  | get f => exact .get fun _ => .done _
  | peek f => exact .peek fun _ => .done _
  | clear f => exact .clear fun _ => .done _
  | discard accessToken f => exact .discard accessToken fun _ => .done _

theorem bearings (hp : Dealing c p) :
    Bearings.conduct.Obeys (fun _ _ => True) p ({}, {}) := by
  have hfree : Bearings.Free ({}, {}) := ⟨rfl, rfl⟩
  cases hp with
  | call method path body f => exact (Delivery.bearings_run hfree).bind fun _ _ _ => trivial
  | get f => exact (Bearings.obeys_get hfree).bind fun _ _ _ => trivial
  | peek f => exact (Bearings.obeys_peek hfree).bind fun _ _ _ => trivial
  | clear f => exact (Bearings.obeys_clear hfree).bind fun _ _ _ => trivial
  | discard accessToken f =>
    refine (Bearings.obeys_discard rfl fun a ha => ?_).bind fun _ _ _ => trivial
    cases ha

end Dealing

/-- However calls and other users of the cache come in, take turns and are given up: when no access
token is issued twice, a task never sends a token again that was rejected for it, and what it sends
instead has come into the cache by an exchange that was completed when the rejected one had been
issued. -/
theorem rejected_never_replayed {σ α : Type} (c : Config) (w : World σ) (hline : w.line = [])
    {s : Scene σ α} {h : Chronicle} (H : Scene.Reach ⟨Dealing c, True⟩ w s h)
    (hissued : (h.issued w.cache).Nodup) :
    h.Every fun o before => ∀ r a t, o.deed = .starts (.send r) → r.bearer? = some a →
      before.Rejected o.task t → a ≠ t ∧ before.Newer w.cache a t := by
  have hS : ((Terms.free.conduct c).both Bearings.conduct).Sound w True (fun _ _ => True)
      (fun cache _ h => Lineage c w.cache cache h) s h := by
    refine Conduct.sound_of_reach (upholds_lineage c w True) (fun o h hA => ?_) (fun p hp => ?_)
      hline (.nil c w.cache) H hissued
    · exact (List.nodup_append.1 hA).2.1
    · exact ((hp.usesCache.obeys {}).both hp.bearings).mono fun _ _ h => ⟨h.1, trivial⟩
  exact hS.law.never

/-- A server that takes back the first token that it grants. -/
def World.revoking : World Script :=
  .scripted {
    tokenReplies := [.token "a" 3600, .token "b" 3600]
    replies := [.ofError 401 "revoked", .ofError 401 "revoked", .ofText 200 "one",
      .ofText 200 "two"] }

/-- Two calls have the same token rejected before one of them gets a new one. The other one finds
that in the cache when it comes to discard the old one. -/
theorem rejected_never_replayed_of_two_calls :
    ∃ (s : Scene Script (Except Failure Response)) (h : Chronicle),
      Scene.Reach ⟨Dealing .plain, True⟩ .revoking s h ∧ s.Over ∧
      h.issued World.revoking.cache = ["b", "a"] ∧ h.Rejected 0 "a" ∧ h.Rejected 1 "a" ∧
      h.Every fun o before => ∀ r a t, o.deed = .starts (.send r) → r.bearer? = some a →
        before.Rejected o.task t → a ≠ t ∧ before.Newer World.revoking.cache a t := by
  let p : Program (Except Failure Response) := do
    return id (← Delivery.run .plain (Delivery.request .plain .get "/instances" none))
  let turns := List.replicate 7 0 ++ List.replicate 5 1 ++ List.replicate 7 0 ++
    List.replicate 5 1 ++ [0, 1]
  have hall : (Scene.play? (turns.flatMap fun i => [.start i, .finish i])
      (⟨[] ++ (List.replicate 2 p).map .ofProgram, .revoking⟩, [])).any (fun r =>
        decide (r.1.Over ∧ r.2.issued World.revoking.cache = ["b", "a"] ∧ r.2.Rejected 0 "a" ∧
          r.2.Rejected 1 "a")) = true := by
    decide +kernel
  obtain ⟨⟨s, h⟩, hp, hr⟩ := Option.any_eq_true _ _ |>.1 hall
  obtain ⟨hover, hissued, hfirst, hsecond⟩ := of_decide_eq_true hr
  have H : Scene.Reach ⟨Dealing .plain, True⟩ .revoking s h :=
    Scene.reach_play? (Scene.reach_enter .opening fun q hq => by
      obtain rfl := List.eq_of_mem_replicate hq
      exact .call .get "/instances" none id) hp
  refine ⟨s, h, H, hover, hissued, hfirst, hsecond,
    rejected_never_replayed .plain .revoking rfl H ?_⟩
  rw [show h.issued World.revoking.cache = ["b", "a"] from hissued]
  decide

end CloudClient
