import CloudClient.Proofs.Delivery.Rejection
import CloudClient.Proofs.Token.Provenance
import CloudClient.Service

/-!
What calls send. However often a call sends its request and whatever token that carries, all else
stays as it was at first; and the token is one that the server has granted.
-/

namespace CloudClient

open Http (Headers Method Request Response)

/-! ### Signed requests -/

namespace Http

/-- Names of headers that differ in case are names of the same header. -/
def Headers.isNamed (name : String) (header : String × String) : Bool :=
  header.1.toList.map Char.toLower = name.toList.map Char.toLower

/-- The headers of a name. -/
def Headers.named (name : String) (h : Headers) : Headers :=
  h.filter (isNamed name)

/-- A request without the headers that carry a token. -/
def Request.unsigned (r : Request) : Request :=
  { r with headers := r.headers.filter (!Headers.isNamed "Authorization" ·) }

end Http

/-- The token is the last header of a call's request. -/
theorem Delivery.headers_authorized (c : Config) (method : Method) (path : String)
    (body : Option Bytes) (accessToken : String) :
    (authorized (request c method path body) accessToken).headers =
      (request c method path body).headers ++ [("Authorization", "Bearer " ++ accessToken)] := by
  cases body <;> rfl

theorem Delivery.unsigned_authorized (c : Config) (method : Method) (path : String)
    (body : Option Bytes) (accessToken : String) :
    (authorized (request c method path body) accessToken).unsigned =
      request c method path body := by
  have hheaders : ((request c method path body).headers ++
      [("Authorization", "Bearer " ++ accessToken)]).filter
        (!Headers.isNamed "Authorization" ·) = (request c method path body).headers := by
    cases body <;> simp [request, Headers.isNamed]
  rw [Request.unsigned, headers_authorized, hheaders]
  rfl

/-- A request as calls send it: it is signed with one token, and says of which kind its body is when
it has one. -/
structure Http.Request.Signed (r : Request) (accessToken : String) : Prop where
  authorization : r.headers.named "Authorization" = [("Authorization", "Bearer " ++ accessToken)]
  contentType : r.headers.named "Content-Type" =
    if r.body.isSome then [("Content-Type", "application/json")] else []

theorem Delivery.signed_authorized (c : Config) (method : Method) (path : String)
    (body : Option Bytes) (accessToken : String) :
    (authorized (request c method path body) accessToken).Signed accessToken := by
  refine ⟨?_, ?_⟩
  · rw [headers_authorized]
    cases body <;> simp [request, Headers.named, Headers.isNamed]
  · rw [headers_authorized]
    cases body <;> simp [request, authorized, Request.header, Headers.named, Headers.isNamed]

/-! ### One request for each task -/

/-- A request with a token is signed, and the same as all those before it but for its token. -/
def Fidelity.conduct : Conduct (Option Request) where
  blank := none
  note
    | s, .starts (.send r) => if r.asksForToken then s.2 else some r.unsigned
    | s, _ => s.2
  may
    | s, .send r => r.asksForToken = false →
        (∀ a, r.bearer? = some a → r.Signed a) ∧ ∀ q, s.2 = some q → r.unsigned = q
    | _, _ => True
  expects _ _ _ := True

namespace Fidelity

variable {c : Config} {α : Type} {p : Program α}

/-- Effects of a call, or of somebody who only uses the cache. -/
theorem obeys_of_signs {n : Nat} {method : Method} {path : String} {body : Option Bytes}
    (hp : UsesCache c p)
    (hsigns : p.Bounded (Delivery.Signs (Delivery.request c method path body)) n) :
    conduct.Obeys (fun s _ => s.1 = {}) p ({}, none) := by
  let base := Delivery.request c method path body
  have hcounts (s : Account × Notes) (e : Effect) (x : e.Answer) :
      (Terms.free.conduct c).expects s e x := by
    cases e <;> trivial
  have hnone : ∀ q, (none : Option Request) = some q → q = base := nofun
  refine (Conduct.Obeys.of_bounded (I := fun u => ∀ q, u = some q → q = base) hcounts ?_ ?_
    (hp.obeys {}) hsigns hnone).mono fun s _ ⟨_, h⟩ => h
  · rintro a u e hu he
    cases e with
    | send r =>
      intro hr
      obtain ⟨token, rfl⟩ := he.resolve_left (by simp [hr])
      refine ⟨fun b hb => ?_, fun q hq => ?_⟩
      · rw [bearer?_authorized] at hb
        cases hb
        exact Delivery.signed_authorized c method path body token
      · rw [hu q hq]
        exact Delivery.unsigned_authorized c method path body token
    | _ => trivial
  · rintro a u e x hu he q hq
    cases e with
    | send r =>
      change (if r.asksForToken = true then u else some r.unsigned) = some q at hq
      rcases he with hr | ⟨token, rfl⟩
      · rw [if_pos hr] at hq
        exact hu q hq
      · rw [if_neg (by simp), Delivery.unsigned_authorized] at hq
        exact (Option.some.inj hq).symm
    | _ => exact hu q hq

/-- What is sent with a token is signed, and the same as all that the task has sent before but for
its token. -/
def Faithful (o : Occurrence) (before : Chronicle) : Prop :=
  ∀ r, o.deed = .starts (.send r) → r.asksForToken = false →
    (∀ a, r.bearer? = some a → r.Signed a) ∧
      ∀ o' ∈ before, ∀ r', o'.task = o.task → o'.deed = .starts (.send r') →
        r'.asksForToken = false → r'.unsigned = r.unsigned

/-- The notes of a task say what it has sent. -/
structure Recorded (h : Chronicle) : Prop where
  noted : ∀ o ∈ h, ∀ r, o.deed = .starts (.send r) → r.asksForToken = false →
    (conduct.state o.task h).2 = some r.unsigned
  sent : h.Every Faithful

namespace Recorded

variable {h : Chronicle} {i now : Nat} {cache : Option Token} {d : Deed}

theorem nil : Recorded [] where
  noted _ ho := absurd ho List.not_mem_nil
  sent := Chronicle.every_nil _

/-- Deeds that leave notes as they are, but for those of the first request with a token. -/
theorem cons (H : Recorded h)
    (hkept : ∀ q, (conduct.state i h).2 = some q →
      conduct.note (conduct.state i h) d = some q)
    (hnew : ∀ r, d = .starts (.send r) → r.asksForToken = false →
      conduct.note (conduct.state i h) d = some r.unsigned)
    (hsent : Faithful ⟨i, now, cache, d⟩ h) : Recorded (⟨i, now, cache, d⟩ :: h) := by
  refine ⟨fun o ho r hd hr => ?_, Chronicle.every_cons.2 ⟨hsent, H.sent⟩⟩
  rcases List.mem_cons.1 ho with rfl | ho
  · rw [conduct.state_same ⟨i, now, cache, d⟩]
    exact hnew r hd hr
  · have hnoted := H.noted o ho r hd hr
    by_cases hi : i = o.task
    · subst hi
      rw [conduct.state_same ⟨o.task, now, cache, d⟩]
      exact hkept _ hnoted
    · rw [conduct.state_other (o := ⟨i, now, cache, d⟩) hi]
      exact hnoted

/-- Deeds that send nothing. -/
theorem cons_of_ne (H : Recorded h) (hd : ∀ r, d ≠ .starts (.send r)) :
    Recorded (⟨i, now, cache, d⟩ :: h) := by
  refine H.cons (fun q hq => ?_) (fun r hr => absurd hr (hd r)) fun r hr => absurd hr (hd r)
  cases d with
  | starts e =>
    cases e with
    | send r => exact absurd rfl (hd r)
    | _ => exact hq
  | _ => exact hq

theorem start (H : Recorded h) {e : Effect} (hp : conduct.Permits (conduct.state i h) e) :
    Recorded (⟨i, now, cache, .starts e⟩ :: h) := by
  cases e with
  | send r =>
    have hnote : conduct.note (conduct.state i h) (.starts (.send r)) =
        if r.asksForToken then (conduct.state i h).2 else some r.unsigned := rfl
    refine H.cons (fun q hq => ?_) ?_ ?_
    · rw [hnote]
      split
      · exact hq
      · rename_i hr
        rw [(hp.2 (Bool.eq_false_iff.2 hr)).2 q hq]
    · rintro _ ⟨⟩ hr
      rw [hnote, hr]
      rfl
    · rintro _ ⟨⟩ hr
      obtain ⟨hsigned, hsame⟩ := hp.2 hr
      refine ⟨hsigned, fun o ho r' hi hd hr' => ?_⟩
      have hnoted := H.noted o ho r' hd hr'
      rw [show o.task = i from hi] at hnoted
      exact (hsame _ hnoted).symm
  | _ => exact H.cons_of_ne (by simp)

end Recorded

theorem upholds_recorded {σ : Type} (w : World σ) (cancels : Prop) (A : Chronicle → Prop) :
    conduct.Upholds w cancels A fun _ _ h => Recorded h where
  start H _ hp _ := H.start hp
  finish {_ _ _ _ e _ _} H _ _ _ _ _ _ := by
    refine ⟨?_, H.cons_of_ne (by simp)⟩
    cases e <;> trivial
  leave _ H _ := H.cons_of_ne (by simp)
  pass H _ _ := H

end Fidelity

namespace Dealing

variable {c : Config} {α : Type} {p : Program α}

/-- What is done with a client sends one request of its own at most, however often. -/
theorem fidelity (hp : Dealing c p) :
    Fidelity.conduct.Obeys (fun s _ => s.1 = {}) p ({}, none) := by
  have huses : UsesCache c p := hp.usesCache
  have htokenless {n : Nat} (h : p.Bounded Effect.Tokenless n) :
      Fidelity.conduct.Obeys (fun s _ => s.1 = {}) p ({}, none) := by
    have hsigns : p.Bounded (Delivery.Signs (Delivery.request c .get "" none)) n :=
      h.mono (fun _ => Delivery.signs_of_tokenless) (Nat.le_refl n)
    exact Fidelity.obeys_of_signs huses hsigns
  cases hp with
  | call method path body f =>
    exact Fidelity.obeys_of_signs huses
      ((Delivery.bounded_run c _).bind (m := 0) fun _ => trivial)
  | get f => exact htokenless ((TokenCache.bounded_get c).bind (m := 0) fun _ => trivial)
  | peek f => exact htokenless (TokenCache.bounded_peek.bind (m := 0) fun _ => trivial)
  | clear f => exact htokenless (TokenCache.bounded_clear.bind (m := 0) fun _ => trivial)
  | discard accessToken f =>
    exact htokenless ((TokenCache.bounded_discard accessToken).bind (m := 0) fun _ => trivial)

/-- An operation, and something with its outcome. -/
theorem operation {β : Type} (o : Operation β) (f : Except Failure β → α) :
    Dealing c (do return f (← o.run c)) := by
  let read (result : Except Failure Response) : Except Failure β :=
    result.bind fun response => (o.content.read response.body).mapError .error
  have hread : o.run c = (do
      return read (← Delivery.run c
        (Delivery.request c o.method o.path (o.body.map Json.encode)))) := by
    rw [Operation.run, Delivery.call]
    refine congrArg (_ >>= ·) (funext fun result => ?_)
    cases result <;> rfl
  rw [hread, Program.bind_assoc]
  exact .call o.method o.path (o.body.map Json.encode) fun result => f (read result)

end Dealing

/-- However operations and other users of the cache come in, take turns and are given up from a
fresh client on, all that they send are requests for tokens, and requests that are signed with a
token which the server has granted before. The latter are all alike in one operation, but for the
token. -/
theorem sent_as_granted {σ α : Type} (c : Config) (w : World σ) (hcache : w.cache = none)
    (hline : w.line = []) {s : Scene σ α} {h : Chronicle}
    (H : Scene.Reach ⟨Dealing c, True⟩ w s h) :
    h.Every fun o before => ∀ r, o.deed = .starts (.send r) → (∀ g, r ≠ Grant.request c g) →
      (∃ a, before.Granted c a ∧ r.Signed a) ∧
        ∀ o' ∈ before, ∀ r', o'.task = o.task → o'.deed = .starts (.send r') →
          (∀ g, r' ≠ Grant.request c g) → r'.unsigned = r.unsigned := by
  have hlineage : Provenance c s.world.cache h := by
    let D := (Terms.free.conduct c).both Bearings.conduct
    have hobeys (p : Program α) (hp : Dealing c p) :
        D.Obeys (fun s _ => s.1 = {} ∧ True) p ({}, D.blank) :=
      ((hp.usesCache.obeys {}).both hp.bearings).mono fun _ _ h => ⟨h.1, trivial⟩
    refine (Conduct.sound_of_reach (upholds_provenance c w True fun _ => True) (fun _ _ h => h)
      hobeys hline ?_ H trivial).law
    rw [hcache]
    exact .nil c
  have hrecorded : Fidelity.Recorded h := by
    have hobeys (p : Program α) (hp : Dealing c p) :
        Fidelity.conduct.Obeys (fun s _ => s.1 = {} ∧ True) p ({}, Fidelity.conduct.blank) :=
      hp.fidelity.mono fun _ _ h => ⟨h, trivial⟩
    exact (Conduct.sound_of_reach (Fidelity.upholds_recorded w True fun _ => True)
      (fun _ _ h => h) hobeys hline .nil H trivial).law
  intro o before hs r hr hgrant
  -- whatever is no request for a token bears one
  have hbears {o : Occurrence} {b : Chronicle} (hs : o :: b <:+ h) {r : Request}
      (hr : o.deed = .starts (.send r)) (hg : ∀ g, r ≠ Grant.request c g) :
      r.asksForToken = false ∧ ∃ a, r.bearer? = some a ∧ b.Granted c a := by
    rcases hlineage.sent o b hs r hr with ⟨g, rfl⟩ | ⟨a, ha, hgranted⟩
    · exact absurd rfl (hg g)
    · exact ⟨by rw [Request.asksForToken, ha]; rfl, a, ha, hgranted⟩
  obtain ⟨hasks, a, ha, hgranted⟩ := hbears hs hr hgrant
  obtain ⟨hsigned, hsame⟩ := hrecorded.sent o before hs r hr hasks
  refine ⟨⟨a, hgranted, hsigned a ha⟩, fun o' ho' r' hi hr' hgrant' => ?_⟩
  obtain ⟨l, m, rfl⟩ := List.append_of_mem ho'
  have hs' : o' :: m <:+ h := (List.suffix_append (o :: l) (o' :: m)).trans hs
  exact hsame o' ho' r' hi hr' (hbears hs' hr' hgrant').1

/-- Two operations, one with a body and one without, send their requests with a token that is
rejected, and then again with a second one. -/
theorem sent_as_granted_of_two_operations :
    ∃ (s : Scene Script (Except Failure Unit)) (h : Chronicle),
      World.revoking.cache = none ∧ World.revoking.line = [] ∧
      Scene.Reach ⟨Dealing .plain, True⟩ .revoking s h ∧ s.Over ∧
      (s.world.sent.filter (!·.request.asksForToken)).map
          (fun x => (x.request.bearer?, x.request.body.isSome)) =
        [(some "a", true), (some "a", false), (some "b", true), (some "b", false)] ∧
      h.Every fun o before => ∀ r, o.deed = .starts (.send r) →
        (∀ g, r ≠ Grant.request .plain g) →
        (∃ a, before.Granted .plain a ∧ r.Signed a) ∧
          ∀ o' ∈ before, ∀ r', o'.task = o.task → o'.deed = .starts (.send r') →
            (∀ g, r' ≠ Grant.request .plain g) → r'.unsigned = r.unsigned := by
  let p : Program (Except Failure Unit) := do
    return id (← (VolumeCall.operation (.delete "vol-1" true)).run .plain)
  let q : Program (Except Failure Unit) := do
    return id (← (SshKeyCall.operation (.delete "key-1")).run .plain)
  let turns := List.replicate 7 0 ++ List.replicate 5 1 ++ List.replicate 7 0 ++
    List.replicate 5 1 ++ [0, 1]
  have hall : (Scene.play? (turns.flatMap fun i => [.start i, .finish i])
      (⟨[] ++ [p, q].map .ofProgram, .revoking⟩, [])).any (fun r =>
        decide (r.1.Over ∧ (r.1.world.sent.filter (!·.request.asksForToken)).map
            (fun x => (x.request.bearer?, x.request.body.isSome)) =
          [(some "a", true), (some "a", false), (some "b", true), (some "b", false)])) = true := by
    decide +kernel
  obtain ⟨⟨s, h⟩, hp, hr⟩ := Option.any_eq_true _ _ |>.1 hall
  obtain ⟨hover, hsent⟩ := of_decide_eq_true hr
  have hdealing : ∀ r ∈ [p, q], Dealing .plain r :=
    List.forall_mem_cons.2 ⟨.operation _ id, List.forall_mem_singleton.2 (.operation _ id)⟩
  have H : Scene.Reach ⟨Dealing .plain, True⟩ .revoking s h :=
    Scene.reach_play? (Scene.reach_enter .opening hdealing) hp
  exact ⟨s, h, rfl, rfl, H, hover, hsent, sent_as_granted .plain .revoking rfl rfl H⟩

end CloudClient
