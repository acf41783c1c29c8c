import CloudClient.Proofs.Delivery.Fidelity
import CloudClient.Proofs.Service.Endpoints
import CloudClient.Proofs.Token.Secret
import Mathlib.Data.List.ReduceOption

/-!
Scripted replies. A script has replies to requests for tokens and replies to all others, each in a
queue of its own; whatever is done with a client, and in whatever order, no request gets a reply
from the queue of the other kind, and each queue is given out from its front, one reply at a time.
-/

namespace CloudClient

open Http (Request)

/-! ### Requests -/

/-- The requests for tokens are those that go to the URL for them. -/
structure Http.Request.Routed (c : Config) (r : Request) : Prop where
  grant : r.asksForToken = true ↔ ∃ g, r = Grant.request c g
  url : Script.isTokenUrl r.url = r.asksForToken

def Effect.Routed (c : Config) : Effect → Prop
  | .send r => r.Routed c
  | _ => True

/-- No request with a token goes to the URL for tokens. -/
def Effect.Elsewhere : Effect → Prop
  | .send r => r.asksForToken = false → Script.isTokenUrl r.url = false
  | _ => True

theorem routed_grant (c : Config) (g : Grant) : (Grant.request c g).Routed c where
  grant := ⟨fun _ => ⟨g, rfl⟩, fun _ => asksForToken_grant c g⟩
  url := by
    rw [asksForToken_grant]
    exact Script.isTokenUrl_tokenUrl c

theorem Effect.Tokenless.elsewhere {e : Effect} (he : e.Tokenless) : e.Elsewhere := by
  cases e with
  | send r => exact fun hr => absurd he (Bool.eq_false_iff.1 hr)
  | _ => trivial

theorem Delivery.Signs.elsewhere {r : Request} (hr : Script.isTokenUrl r.url = false) {e : Effect}
    (he : Signs r e) : e.Elsewhere := by
  cases e with
  | send q =>
    intro hq
    obtain ⟨accessToken, rfl⟩ := he.resolve_left (Bool.eq_false_iff.1 hq)
    exact hr
  | _ => trivial

/-- Who uses the cache asks for tokens with grants only. -/
theorem UsesCache.routed {c : Config} {α : Type} {p : Program α} {n : Nat} (hp : UsesCache c p)
    (helse : p.Bounded Effect.Elsewhere n) : p.Bounded (Effect.Routed c) n := by
  refine (hp.obeys {}).bounded (fun _ e _ => by cases e <;> trivial) (fun s e hmay he => ?_) helse
  cases e with
  | send r =>
    cases hasks : r.asksForToken with
    | true =>
      obtain ⟨cached, g, hg⟩ := hmay hasks
      rw [hg.request]
      exact routed_grant c g
    | false =>
      refine ⟨⟨fun h => absurd h (Bool.eq_false_iff.1 hasks), ?_⟩, (he hasks).trans hasks.symm⟩
      rintro ⟨g, rfl⟩
      exact asksForToken_grant c g
  | _ => trivial

/-! ### Visits -/

/-- What is done in a session: an operation of the service, and something with its outcome; or what
only uses the cache and sends no request with a token. -/
inductive Visit (c : Config) {α : Type} : Program α → Prop where
  | operation (k : Call) (f : Except Failure k.Answer → α) :
      Visit c (do return f (← k.operation.run c))
  | tokens {p : Program α} {n : Nat} :
      UsesCache c p → p.Bounded Effect.Tokenless n → Visit c p

/-- An operation whose URL is not that for tokens sends no request with a token there. -/
theorem Operation.bounded_run {β : Type} {o : Operation β} {c : Config}
    (ho : Script.isTokenUrl (o.url c) = false) :
    (o.run c).Bounded Effect.Elsewhere (Delivery.runWaits c) := by
  let r := Delivery.request c o.method o.path (o.body.map Json.encode)
  have hrun : (Delivery.run c r).Bounded Effect.Elsewhere (Delivery.runWaits c) :=
    (Delivery.bounded_run c r).mono (fun _ => Delivery.Signs.elsewhere (r := r) ho) (Nat.le_refl _)
  refine hrun.bind_le (m := 0) (fun result => ?_) (Nat.le_refl _)
  cases result <;> trivial

theorem Visit.routed {c : Config} {α : Type} {p : Program α} (hp : Visit c p) :
    ∃ n, p.Bounded (Effect.Routed c) n := by
  cases hp with
  | operation k f =>
    have hcache := (Dealing.operation (c := c) k.operation f).usesCache
    have helse := Operation.bounded_run (Script.isTokenUrl_url c k)
    exact ⟨_, hcache.routed (helse.bind (m := 0) fun _ => trivial)⟩
  | tokens hcache htokenless =>
    have helse := htokenless.mono (fun _ => Effect.Tokenless.elsewhere) (Nat.le_refl _)
    exact ⟨_, hcache.routed helse⟩

/-! ### Queues -/

/-- Replies that are given out from a queue, one after the other, while more may be put into it: the
front one, or a spare one when none is left. -/
inductive HandsOut (spare : List Reply) : (queued left given : List Reply) → Prop where
  | start (queued : List Reply) : HandsOut spare queued queued []
  | front {queued left given : List Reply} {x : Reply} :
      HandsOut spare queued (x :: left) given → HandsOut spare queued left (given ++ [x])
  | spare {queued given : List Reply} {x : Reply} :
      HandsOut spare queued [] given → x ∈ spare → HandsOut spare queued [] (given ++ [x])
  | queue {queued left given : List Reply} (more : List Reply) :
      HandsOut spare queued left given → HandsOut spare (queued ++ more) (left ++ more) given

/-- A reply from a place in a queue, or a spare one. -/
def ComesFrom (spare queued : List Reply) : Option Nat → Reply → Prop
  | some i, x => queued[i]? = some x
  | none, x => x ∈ spare

/-- Each reply that is given comes from a place in the queue, or is a spare one. The places are the
first ones, in their order and each once, and the replies at all others are left. -/
def InOrder (spare queued left given : List Reply) : Prop :=
  ∃ (places : List (Option Nat)) (taken : List Reply),
    places.reduceOption = List.range taken.length ∧ queued = taken ++ left ∧
      List.Forall₂ (ComesFrom spare queued) places given

namespace HandsOut

variable {spare spare' queued left given : List Reply} {x fallback : Reply}

theorem mono (H : HandsOut spare queued left given) (hspare : spare ⊆ spare') :
    HandsOut spare' queued left given := by
  induction H with
  | start queued => exact .start queued
  | front _ ih => exact .front ih
  | spare _ hx ih => exact .spare ih (hspare hx)
  | queue more _ ih => exact .queue more ih

theorem next (H : HandsOut spare queued left given) (hx : x = left.head?.getD fallback)
    (hfallback : fallback ∈ spare) : HandsOut spare queued left.tail (given ++ [x]) := by
  cases left with
  | nil =>
    obtain rfl : x = fallback := hx
    exact .spare H hfallback
  | cons first rest =>
    obtain rfl : x = first := hx
    exact .front H

theorem inOrder (H : HandsOut spare queued left given) : InOrder spare queued left given := by
  induction H with
  | start queued => exact ⟨[], [], rfl, rfl, .nil⟩
  | @front queued left given x _ ih =>
    obtain ⟨places, taken, hplaces, rfl, hgiven⟩ := ih
    have hx : (taken ++ x :: left)[taken.length]? = some x := by simp
    refine ⟨places ++ [some taken.length], taken ++ [x], ?_, ?_,
      List.rel_append hgiven (.cons hx .nil)⟩
    · rw [List.reduceOption_append, hplaces, List.length_append, List.length_singleton,
        List.range_succ]
      rfl
    · rw [List.append_assoc]
      rfl
  | spare _ hx ih =>
    obtain ⟨places, taken, hplaces, hqueued, hgiven⟩ := ih
    refine ⟨places ++ [none], taken, ?_, hqueued, List.rel_append hgiven (.cons hx .nil)⟩
    rw [List.reduceOption_append, hplaces]
    exact List.append_nil _
  | queue more _ ih =>
    obtain ⟨places, taken, hplaces, hqueued, hgiven⟩ := ih
    refine ⟨places, taken, hplaces, by rw [hqueued, List.append_assoc], hgiven.imp ?_⟩
    -- what is put in comes behind all places so far
    rintro (_ | i) x hx
    · exact hx
    · obtain ⟨hi, -⟩ := List.getElem?_eq_some_iff.1 hx
      exact (List.getElem?_append_left hi).trans hx

end HandsOut

/-! ### Scripts -/

namespace Script

/-- The replies that are queued for requests for tokens, or for all others. -/
def queue (asks : Bool) (s : Script) : List Reply :=
  if asks then s.tokenReplies else s.replies

/-- The reply when that queue is empty, if one is set. -/
def spare? (asks : Bool) (s : Script) : Option Reply :=
  if asks then s.defaultToken else none

/-- What can be replied when that queue is empty, with all that has been written. -/
def spares (asks : Bool) (written : List Script) : List Reply :=
  .missing :: written.filterMap (spare? asks)

/-- A reply comes from the front of the queue for its URL; all else stays as it is. -/
structure Replies (s : Script) (asks : Bool) (x : Reply) (s' : Script) : Prop where
  reply : x = (s.queue asks).head?.getD ((s.spare? asks).getD .missing)
  queue : s'.queue asks = (s.queue asks).tail
  other : ∀ asks', asks' ≠ asks → s'.queue asks' = s.queue asks'
  spare : ∀ asks', s'.spare? asks' = s.spare? asks'

theorem replies_reply (s : Script) (url : String) :
    s.Replies (isTokenUrl url) (s.reply url).1 (s.reply url).2 := by
  rw [reply]
  cases isTokenUrl url with
  | true =>
    rw [if_pos rfl]
    cases hq : s.tokenReplies with
    | nil => exact ⟨by simp [queue, spare?, hq], by simp [queue, hq], by simp, fun _ => rfl⟩
    | cons x rest => exact ⟨by simp [queue, hq], by simp [queue, hq], by simp [queue], fun _ => rfl⟩
  | false =>
    rw [if_neg Bool.false_ne_true]
    cases hq : s.replies with
    | nil => exact ⟨by simp [queue, spare?, hq], by simp [queue, hq], by simp, fun _ => rfl⟩
    | cons x rest => exact ⟨by simp [queue, hq], by simp [queue, hq], by simp [queue], fun _ => rfl⟩

theorem queue_followedBy (asks : Bool) (s more : Script) :
    (s.followedBy more).queue asks = s.queue asks ++ more.queue asks := by
  cases asks <;> rfl

theorem spare?_followedBy (asks : Bool) (s more : Script) :
    (s.followedBy more).spare? asks = (more.spare? asks).or (s.spare? asks) := by
  cases asks <;> rfl

end Script

/-! ### Sessions -/

namespace Deed

/-- The request that is sent, or that a reply has come to. -/
def request? : Deed → Option Request
  | .starts (.send r) => some r
  | .ends (.send r) _ => some r
  | _ => none

/-- What came back for a request for a token, or for another one. -/
def answer? (asks : Bool) : Deed → Option Reply
  | .ends (.send r) x => if r.asksForToken = asks then some x else none
  | _ => none

end Deed

/-- What came back for requests for tokens, or for all others, in order. -/
def Chronicle.answers (asks : Bool) (h : Chronicle) : List Reply :=
  (h.filterMap (·.deed.answer? asks)).reverse

theorem Chronicle.answers_cons (asks : Bool) (o : Occurrence) (h : Chronicle) :
    answers asks (o :: h) = h.answers asks ++ (o.deed.answer? asks).toList := by
  rw [answers, List.filterMap_cons]
  cases o.deed.answer? asks with
  | none => exact (List.append_nil _).symm
  | some x => exact List.reverse_cons

/-- A scene with more written to the script of its server. -/
def Scene.write {α : Type} (s : Scene Script α) (more : Script) : Scene Script α :=
  { s with world := { s.world with state := s.world.state.followedBy more } }

/-- What visits and their server can come to, with all that has been written to its script: at any
point more can be. -/
inductive ScriptedSession (c : Config) {α : Type} :
    List Script → Scene Script α → Chronicle → Prop where
  | opening {w : World Script} (t : Timer) :
      w.server = Script.server t → ScriptedSession c [w.state] ⟨[], w⟩ []
  | step {written : List Script} {s s' : Scene Script α} {h : Chronicle} {o : List Occurrence} :
      ScriptedSession c written s h → Scene.Step ⟨Visit c, True⟩ s o s' →
      ScriptedSession c written s' (o ++ h)
  | write {written : List Script} {s : Scene Script α} {h : Chronicle} (more : Script) :
      ScriptedSession c written s h → ScriptedSession c (written ++ [more]) (s.write more) h

/-- All that is so in a session: requests go where they belong, and both queues are given out in
their order. -/
structure Traffic (c : Config) {α : Type} (written : List Script) (s : Scene Script α)
    (h : Chronicle) : Prop where
  server : ∃ t, s.world.server = Script.server t
  routed : ∀ a ∈ s.actors, ∃ n, a.rest.Bounded (Effect.Routed c) n
  sent : ∀ o ∈ h, ∀ r, o.deed.request? = some r → r.Routed c
  spare : ∀ asks x, s.world.state.spare? asks = some x → x ∈ Script.spares asks written
  given : ∀ asks, HandsOut (Script.spares asks written) (written.flatMap (Script.queue asks))
    (s.world.state.queue asks) (h.answers asks)

namespace Traffic

variable {c : Config} {α : Type} {written : List Script} {s s' : Scene Script α} {h : Chronicle}
  {o : List Occurrence} {i : Nat} {a : Actor α} {d : Deed} {v : World Script}

theorem opening {w : World Script} {t : Timer} (hw : w.server = Script.server t) :
    Traffic c [w.state] (⟨[], w⟩ : Scene Script α) [] where
  server := ⟨t, hw⟩
  routed a ha := absurd ha List.not_mem_nil
  sent o ho := absurd ho List.not_mem_nil
  spare asks x hx := List.mem_cons_of_mem _ (List.mem_filterMap.2 ⟨_, List.mem_cons_self, hx⟩)
  given asks := by
    rw [List.flatMap_singleton]
    exact .start _

theorem fallback_mem (H : Traffic c written s h) (asks : Bool) :
    (s.world.state.spare? asks).getD .missing ∈ Script.spares asks written := by
  cases hspare : s.world.state.spare? asks with
  | none => exact List.mem_cons_self
  | some x => exact H.spare asks x hspare

theorem become (H : Traffic c written s h) (ha : ∃ n, a.rest.Bounded (Effect.Routed c) n)
    (hserver : v.server = s.world.server) (hrequest : ∀ r, d.request? = some r → r.Routed c)
    (hspare : ∀ asks, v.state.spare? asks = s.world.state.spare? asks)
    (hgiven : ∀ asks, HandsOut (Script.spares asks written) (written.flatMap (Script.queue asks))
      (v.state.queue asks) (h.answers asks ++ (d.answer? asks).toList)) :
    Traffic c written (s.become i a v) (s.note i d :: h) where
  server := hserver ▸ H.server
  routed b hb := by
    rcases List.mem_or_eq_of_mem_set hb with hb | rfl
    · exact H.routed b hb
    · exact ha
  sent := List.forall_mem_cons.2 ⟨hrequest, H.sent⟩
  spare asks x hx := H.spare asks x ((hspare asks).symm.trans hx)
  given asks := by
    rw [Chronicle.answers_cons]
    exact hgiven asks

/-- Only a reply that has come changes the script. -/
theorem become_unanswered (H : Traffic c written s h)
    (ha : ∃ n, a.rest.Bounded (Effect.Routed c) n) (hserver : v.server = s.world.server)
    (hstate : v.state = s.world.state) (hrequest : ∀ r, d.request? = some r → r.Routed c)
    (hanswer : ∀ asks, d.answer? asks = none) :
    Traffic c written (s.become i a v) (s.note i d :: h) := by
  refine H.become ha hserver hrequest (fun asks => by rw [hstate]) fun asks => ?_
  rw [hstate, hanswer asks, Option.toList_none, List.append_nil]
  exact H.given asks

theorem become_answered (H : Traffic c written s h) {r : Request} {x : Reply}
    (ha : ∃ n, a.rest.Bounded (Effect.Routed c) n) (hserver : v.server = s.world.server)
    (hr : r.Routed c) (hreply : s.world.server.reply s.world.state r = (x, v.state)) :
    Traffic c written (s.become i a v) (s.note i (.ends (.send r) x) :: h) := by
  have hreplies := s.world.state.replies_reply r.url
  have hscript : s.world.state.reply r.url = (x, v.state) := by
    obtain ⟨t, ht⟩ := H.server
    rw [← hreply, ht]
    rfl
  rw [hscript, hr.url] at hreplies
  refine H.become ha hserver ?_ hreplies.spare fun asks => ?_
  · rintro _ ⟨⟩
    exact hr
  · by_cases hasks : r.asksForToken = asks
    · subst hasks
      have hanswer : (Deed.ends (.send r) x).answer? r.asksForToken = some x := if_pos rfl
      rw [hanswer, hreplies.queue]
      exact (H.given _).next hreplies.reply (H.fallback_mem _)
    · have hanswer : (Deed.ends (.send r) x).answer? asks = none := if_neg hasks
      rw [hanswer, hreplies.other asks (Ne.symm hasks), Option.toList_none, List.append_nil]
      exact H.given asks

/-- One step, whichever it is. -/
theorem step (H : Traffic c written s h) (hs : Scene.Step ⟨Visit c, True⟩ s o s') :
    Traffic c written s' (o ++ h) := by
  have hrest {i : Nat} {a : Actor α} (hi : s.actors[i]? = some a) :
      ∃ n, a.rest.Bounded (Effect.Routed c) n := H.routed a (List.mem_of_getElem? hi)
  cases hs with
  | @join p hp =>
    obtain ⟨n, hn⟩ := Visit.routed hp
    refine ⟨H.server, fun a ha => ?_, H.sent, H.spare, H.given⟩
    rcases List.mem_append.1 ha with ha | ha
    · exact H.routed a ha
    · rw [List.mem_singleton.1 ha]
      exact ⟨n, hn.bind (m := 0) fun _ => trivial⟩
  | @start i e k hi =>
    obtain ⟨n, hn⟩ := hrest hi
    refine H.become_unanswered ⟨n, hn⟩ (World.later_start ..).server (World.start_state ..)
      (fun r hr => ?_) fun _ => rfl
    cases e with
    | send q =>
      cases hr
      exact hn.1
    | _ => cases hr
  | @finish i wake e k x w hi hx =>
    obtain ⟨n, he, -, hk⟩ := hrest hi
    have hserver := (World.finishes_of_finish? hx).later.server
    cases e with
    | send r => exact H.become_answered ⟨_, hk x⟩ hserver he (World.finish?_send hx)
    | _ =>
      exact H.become_unanswered ⟨_, hk x⟩ hserver (World.finish?_state (by simp) hx) nofun
        fun _ => rfl
  | drop _ hi => exact H.become_unanswered ⟨0, trivial⟩ rfl rfl nofun fun _ => rfl
  | pass _ _ => exact ⟨H.server, H.routed, H.sent, H.spare, H.given⟩

/-- What is written to the script comes behind all that is left of it. -/
theorem write (H : Traffic c written s h) (more : Script) :
    Traffic c (written ++ [more]) (s.write more) h where
  server := H.server
  routed := H.routed
  sent := H.sent
  spare asks x hx := by
    rw [Scene.write, Script.spare?_followedBy] at hx
    rw [Script.spares, List.filterMap_append, ← List.cons_append]
    rcases Option.or_eq_some_iff.1 hx with hx | ⟨-, hx⟩
    · exact List.mem_append_right _ (List.mem_filterMap.2 ⟨_, List.mem_cons_self, hx⟩)
    · exact List.mem_append_left _ (H.spare asks x hx)
  given asks := by
    rw [Scene.write, Script.queue_followedBy, List.flatMap_append, List.flatMap_singleton,
      Script.spares, List.filterMap_append, ← List.cons_append]
    exact ((H.given asks).mono (List.subset_append_left _ _)).queue _

end Traffic

theorem ScriptedSession.traffic {c : Config} {α : Type} {written : List Script}
    {s : Scene Script α} {h : Chronicle} (H : ScriptedSession c written s h) :
    Traffic c written s h := by
  induction H with
  | opening t hw => exact .opening hw
  | step _ hs ih => exact ih.step hs
  | write more _ ih => exact ih.write more

/-- A call and what it came to. -/
abbrev Called := (k : Call) × Except Failure k.Answer

/-- Sessions of calls are sessions of visits. -/
theorem ScriptedSession.session? {c : Config} {written : List Script}
    {s s' : Scene Script Called} {h h' : Chronicle} {cues : List (Cue Call)}
    (H : ScriptedSession c written s h)
    (hs : Scene.session? (Call.program c) cues (s, h) = some (s', h')) :
    ScriptedSession c written s' h' := by
  have hvisit (p : Program Called) (hp : ∃ k, p = Call.program c k) : Visit c p := by
    obtain ⟨k, rfl⟩ := hp
    exact .operation k fun result => (⟨k, result⟩ : Called)
  exact Scene.session?_keeps (fun H hstep => H.step (hstep.mono hvisit id)) H hs

/-- Whatever the base, the URL for tokens is taken for one, and that of no call is, with any names
and parameters. So however operations and users of the cache come in, take turns and are given up,
and whatever more is written to the script in the meantime, the requests for tokens are those that
go to the URL for tokens. The replies that are written for them and those for all other requests are
two queues: a request gets the front one of its own queue, so that the first ones have been given in
their order and each once, and all others are left. -/
theorem traffic_apart (c : Config) :
    Script.isTokenUrl c.tokenUrl = true ∧
    (∀ k : Call, Script.isTokenUrl (k.operation.url c) = false) ∧
    ∀ {α : Type} {written : List Script} {s : Scene Script α} {h : Chronicle},
      ScriptedSession c written s h →
        (∀ o ∈ h, ∀ r, o.deed.request? = some r →
          (r.asksForToken = true ↔ ∃ g, r = Grant.request c g) ∧
            Script.isTokenUrl r.url = r.asksForToken) ∧
        ∀ asks,
          let spare := Script.spares asks written
          let queued := written.flatMap (Script.queue asks)
          HandsOut spare queued (s.world.state.queue asks) (h.answers asks) ∧
            InOrder spare queued (s.world.state.queue asks) (h.answers asks) := by
  refine ⟨Script.isTokenUrl_tokenUrl c, Script.isTokenUrl_url c, fun H => ?_⟩
  have htraffic := H.traffic
  refine ⟨fun o ho r hr => ?_, fun asks => ⟨htraffic.given asks, (htraffic.given asks).inOrder⟩⟩
  have hrouted := htraffic.sent o ho r hr
  exact ⟨hrouted.grant, hrouted.url⟩

/-- A configuration whose base URL ends in the way in which that for tokens goes on. -/
def Config.misleading : Config :=
  { Config.plain with baseUrl := "https://localhost/oauth2" }

/-- A call that is given up while its request is under way leaves the reply to the next one. The
names are those of the URL for tokens. -/
theorem traffic_apart_of_misleading :
    let script : Script := {
      tokenReplies := [.token "a" 3600]
      replies := [.ofText 200 "one"]
      delay := some (.ofSeconds 1) }
    let more : Script := { replies := [.ofText 200 "two"], defaultToken := some (.token "b" 3600) }
    ∃ (s : Scene Script Called) (h : Chronicle),
      ScriptedSession .misleading [script, more] s h ∧ s.Over ∧
      s.world.sent.map (·.request.url) = ["https://localhost/oauth2/oauth2/token",
        "https://localhost/oauth2/sshkeys/token",
        "https://localhost/oauth2/scripts/oauth2%2Ftoken"] ∧
      (h.answers true = [.token "a" 3600] ∧ s.world.state.queue true = []) ∧
      (h.answers false = [.ofText 200 "one"] ∧ s.world.state.queue false = [.ofText 200 "two"]) ∧
      ∀ asks, InOrder (Script.spares asks [script, more])
        ([script, more].flatMap (Script.queue asks)) (s.world.state.queue asks)
        (h.answers asks) := by
  intro script more
  let turn (i : Nat) : List (Cue Call) := [.move (.start i), .move (.finish i)]
  let delayed (i t : Nat) : List (Cue Call) :=
    [.move (.start i), .move (.pass t), .move (.finish i)]
  let first : List (Cue Call) :=
    .enter (.sshKeys (.delete "token")) :: (turn 0 ++ turn 0 ++ turn 0 ++ delayed 0 1000000000 ++
      turn 0 ++ turn 0 ++ [.move (.start 0), .drop 0])
  let second : List (Cue Call) :=
    .enter (.startupScripts (.delete "oauth2/token")) ::
      (turn 1 ++ turn 1 ++ turn 1 ++ turn 1 ++ delayed 1 2000000000)
  let w : World Script := .scripted script
  have hall : ((Scene.session? (Call.program .misleading) first (⟨[], w⟩, [])).any fun p =>
      (Scene.session? (Call.program .misleading) second (p.1.write more, p.2)).any fun q =>
        decide (q.1.Over ∧ q.1.world.sent.map (·.request.url) =
          ["https://localhost/oauth2/oauth2/token", "https://localhost/oauth2/sshkeys/token",
            "https://localhost/oauth2/scripts/oauth2%2Ftoken"] ∧
          (q.2.answers true = [.token "a" 3600] ∧ q.1.world.state.queue true = []) ∧
          (q.2.answers false = [.ofText 200 "one"] ∧
            q.1.world.state.queue false = [.ofText 200 "two"]))) = true := by
    decide +kernel
  obtain ⟨⟨s₁, h₁⟩, hfirst, hall⟩ := Option.any_eq_true _ _ |>.1 hall
  obtain ⟨⟨s, h⟩, hsecond, hall⟩ := Option.any_eq_true _ _ |>.1 hall
  obtain ⟨hover, hsent, htokens, hreplies⟩ := of_decide_eq_true hall
  have hopening : ScriptedSession (α := Called) .misleading [script] ⟨[], w⟩ [] :=
    .opening (w := w) .standard rfl
  have H := ((hopening.session? hfirst).write more).session? hsecond
  have hqueues := ((traffic_apart .misleading).2.2 H).2
  exact ⟨s, h, H, hover, hsent, htokens, hreplies, fun asks => (hqueues asks).2⟩

end CloudClient
