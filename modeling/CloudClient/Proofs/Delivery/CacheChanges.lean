import CloudClient.Proofs.Delivery.Cancellation
import CloudClient.Proofs.Delivery.Effort
import CloudClient.Proofs.Token.Grants
import Mathlib.Data.List.Induction

/-!
What a call does to the cache that all calls share. Where it gives the cache back, that is as it was
before, but for two cases: a new token was asked for, because there was none or it was about to end,
and has come; or the token was rejected, for the first time in this call. A call on which neither
happens leaves no trace in the cache. Every attempt looks anew whether the token is about to end, so
one that has long enough to live when the call starts may be replaced before the call is over.
-/

namespace CloudClient

open Http (Request Response)

/-! ### The content of the cache -/

namespace Event

@[simp] theorem cacheAfter_append (cache : Option Token) (h₁ h₂ : List Event) :
    cacheAfter cache (h₁ ++ h₂) = cacheAfter (cacheAfter cache h₁) h₂ :=
  List.foldl_append

/-- How often a token is taken out of the cache, and none put in its place. -/
def emptyings (cache : Option Token) : List Event → Nat
  | [] => 0
  | e :: h =>
    (if cache.isSome ∧ e.effect.leaving cache = none then 1 else 0) +
      emptyings (e.effect.leaving cache) h

theorem emptyings_append (cache : Option Token) (h₁ h₂ : List Event) :
    emptyings cache (h₁ ++ h₂) = emptyings cache h₁ + emptyings (cacheAfter cache h₁) h₂ := by
  induction h₁ generalizing cache with
  | nil => exact (Nat.zero_add _).symm
  | cons e h₁ ih =>
    rw [List.cons_append, emptyings, emptyings, ih, Nat.add_assoc]
    rfl

/-- The cache is not given back in these events. -/
def Keeping (h : List Event) : Prop :=
  ∀ e ∈ h, ∀ y, e.effect ≠ .release y

theorem Keeping.append {h₁ h₂ : List Event} (H₁ : Keeping h₁) (H₂ : Keeping h₂) :
    Keeping (h₁ ++ h₂) :=
  List.forall_mem_append.2 ⟨H₁, H₂⟩

theorem Keeping.cons {e : Event} {h : List Event} (H : Keeping h)
    (he : ∀ y, e.effect ≠ .release y) : Keeping (e :: h) :=
  List.forall_mem_cons.2 ⟨he, H⟩

theorem keeping_of_idle {h : List Event} (H : World.Idle h) : Keeping h :=
  H.forall_mem (fun _ _ _ _ => nofun) (fun _ _ _ _ => nofun) fun _ _ _ _ => nofun

theorem keeping_of_aside {h : List Event} (H : ∀ e ∈ h, e.effect.Aside) : Keeping h := by
  intro e he y hy
  have haside := H e he
  rw [hy] at haside
  exact haside

theorem Keeping.cacheAfter_eq {h : List Event} (H : Keeping h) (cache : Option Token) :
    cacheAfter cache h = cache := by
  induction h with
  | nil => rfl
  | cons e h ih =>
    obtain ⟨he, hh⟩ := List.forall_mem_cons.1 H
    rw [cacheAfter, List.foldl_cons, Effect.leaving_of_ne he]
    exact ih hh

theorem Keeping.emptyings_eq {h : List Event} (H : Keeping h) (cache : Option Token) :
    emptyings cache h = 0 := by
  induction h with
  | nil => rfl
  | cons e h ih =>
    obtain ⟨he, hh⟩ := List.forall_mem_cons.1 H
    rw [emptyings, Effect.leaving_of_ne he, ih hh, if_neg]
    rintro ⟨hsome, rfl⟩
    cases hsome

end Event

theorem World.Runs.cacheAfter_eq {σ α : Type} {w w' : World σ} {p : Program α} {h : List Event}
    {a : α} (H : w.Runs p h a w') : w'.cache = Event.cacheAfter w.cache h := by
  induction H with
  | done w a => rfl
  | ask hx _ ih =>
    rw [ih, World.cache_answer? hx]
    rfl

namespace Delivery

/-! ### What one event does to it -/

/-- What an event of a call does to the cache that the call found in the first world, after all that
the call has done before. -/
inductive Touch {σ : Type} (c : Config) (r : Request) (w : World σ) (before : List Event)
    (e : Event) : Prop where
  | kept :
      e.effect.leaving (Event.cacheAfter w.cache before) = Event.cacheAfter w.cache before →
      Touch c r w before e
  /-- There was no token, or it did not live long enough when the call looked at it, and the one
  that was asked for takes its place. -/
  | renewed {past look asking : List Event} {cached : Option Token} {t : Token} {began : Nat}
      {last : Reply} :
      before = past ++ ⟨.acquire, cached, began, began⟩ :: (look ++ asking) →
      World.Idle look → Event.cacheAfter w.cache before = cached →
      (∀ t, cached = some t → t.outlives (w.timeOfDay began) c.tokenMargin = false) →
      TokenCache.Obtained c w began e.began (cached.bind (·.refreshToken)) asking (.ok t) last →
      e.effect = .release (some t) → Touch c r w before e
  /-- The token that is still there was rejected, and none has been so far. -/
  | emptied {past look : List Event} {t : Token} {response : Response} {t₁ t₂ t₃ t₄ : Nat} :
      before = past ++ ⟨.send (authorized r t.accessToken), .ok response, t₁, t₂⟩ ::
        (look ++ [⟨.acquire, some t, t₃, t₄⟩]) →
      World.Idle look → response.status = 401 →
      (∀ reply ∈ Event.replies past, reply.rejects = false) →
      Event.cacheAfter w.cache before = some t → e.effect = .release none → Touch c r w before e

variable {σ : Type} {c : Config} {r : Request} {base w w' v : World σ} {past h : List Event}

theorem touches_of_keeping (H : Event.Keeping h) (past : List Event) :
    Event.EachAfter (Touch c r base) past h :=
  Event.eachAfter_of_forall fun e he _ => .kept (Effect.leaving_of_ne (H e he) _)

/-- A part of a call, in which the cache is emptied so many times. -/
structure Keeps (c : Config) (r : Request) (base : World σ) (past h : List Event) (w' : World σ)
    (n : Nat) : Prop where
  touches : Event.EachAfter (Touch c r base) past h
  emptyings : Event.emptyings (Event.cacheAfter base.cache past) h = n
  cache : w'.cache = Event.cacheAfter base.cache (past ++ h)
  line : w'.line = []

theorem Keeps.append {h₁ h₂ : List Event} {n m : Nat} (H₁ : Keeps c r base past h₁ v n)
    (H₂ : Keeps c r base (past ++ h₁) h₂ w' m) : Keeps c r base past (h₁ ++ h₂) w' (n + m) := by
  refine ⟨Event.eachAfter_append.2 ⟨H₁.touches, H₂.touches⟩, ?_, ?_, H₂.line⟩
  · have hsecond := H₂.emptyings
    rw [Event.cacheAfter_append] at hsecond
    rw [Event.emptyings_append, H₁.emptyings, hsecond]
  · rw [← List.append_assoc]
    exact H₂.cache

theorem keeps_of_keeping (H : Event.Keeping h) (hc : w'.cache = Event.cacheAfter base.cache past)
    (hl : w'.line = []) : Keeps c r base past h w' 0 := by
  refine ⟨touches_of_keeping H past, H.emptyings_eq _, ?_, hl⟩
  rw [hc, Event.cacheAfter_append, H.cacheAfter_eq]

theorem Keeps.keeping {h' : List Event} {n : Nat} (H : Keeps c r base past h v n)
    (hh : Event.Keeping h') (hc : w'.cache = v.cache) (hl : w'.line = v.line) :
    Keeps c r base past (h ++ h') w' n :=
  H.append (keeps_of_keeping hh (hc.trans H.cache) (hl.trans H.line))

/-- The cache is taken, held for a while and given back. -/
theorem keeps_of_held {mid : List Event} {cached y : Option Token} {u : Unit} {t₁ t₂ t₃ t₄ n : Nat}
    (hmid : Event.Keeping mid)
    (htouch : Touch c r base (past ++ ⟨.acquire, cached, t₁, t₂⟩ :: mid) ⟨.release y, u, t₃, t₄⟩)
    (hn : (if (Event.cacheAfter base.cache past).isSome ∧ y = none then 1 else 0) = n)
    (hc : w'.cache = y) (hl : w'.line = []) :
    Keeps c r base past (⟨.acquire, cached, t₁, t₂⟩ :: (mid ++ [⟨.release y, u, t₃, t₄⟩])) w'
      n := by
  have hheld : Event.Keeping (⟨.acquire, cached, t₁, t₂⟩ :: mid) := hmid.cons (by simp)
  rw [← List.cons_append]
  refine ⟨Event.eachAfter_append.2 ⟨touches_of_keeping hheld past, htouch, trivial⟩, ?_, ?_, hl⟩
  · rw [Event.emptyings_append, hheld.emptyings_eq, hheld.cacheAfter_eq, Nat.zero_add]
    exact hn
  · rw [hc, ← List.append_assoc, Event.cacheAfter_append]
    rfl

/-! ### One part of a call after another -/

theorem keeps_get {result : Except Failure Token} (hb : base.Later w) (hl : w.line = [])
    (hc : w.cache = Event.cacheAfter base.cache past) (H : w.Runs (TokenCache.get c) h result w') :
    Keeps c r base past h w' 0 ∧ ∀ t, result = .ok t → w'.cache = some t := by
  have hheld {mid : List Event} {t : Nat} (hmid : Event.Keeping mid) :
      Event.cacheAfter base.cache (past ++ ⟨.acquire, w.cache, t, t⟩ :: mid) = w.cache := by
    have hkeeping : Event.Keeping (⟨.acquire, w.cache, t, t⟩ :: mid) := hmid.cons (by simp)
    rw [Event.cacheAfter_append, hkeeping.cacheAfter_eq, hc]
  -- what is given back as it was found is not emptied
  have hsame : (if w.cache.isSome ∧ w.cache = none then 1 else 0) = 0 := by
    rw [if_neg]
    rintro ⟨hsome, hnone⟩
    simp [hnone] at hsome
  rcases TokenCache.runs_get_cases hl H with ⟨look, t, hreused⟩ | ⟨look, asking, v, hrenewed⟩
  · have hlook := Event.keeping_of_idle hreused.look
    rw [hreused.history, hreused.world, hreused.result]
    refine ⟨keeps_of_held hlook (.kept (hheld hlook).symm) (by rw [← hc, hsame]) rfl hl, ?_⟩
    rintro _ ⟨⟩
    exact hreused.cached
  · have haside := (hrenewed.renewal.bounded (TokenCache.bounded_renew c _)).1
    have hmid := (Event.keeping_of_idle hrenewed.look).append (Event.keeping_of_aside haside)
    have hlater : base.Later { w with line := [0] } := hb.trans (w.later_line [0])
    obtain ⟨last, hobtained⟩ := TokenCache.obtained_of_renew hlater hrenewed.renewal
    rw [hrenewed.history, ← List.append_assoc, hrenewed.world]
    cases result with
    | error f =>
      refine ⟨keeps_of_held hmid (.kept (hheld hmid).symm) ?_ rfl rfl, fun _ hr => by cases hr⟩
      rw [← hc]
      exact hsame
    | ok t =>
      refine ⟨keeps_of_held hmid ?_ (if_neg (by simp [TokenCache.kept])) rfl rfl, ?_⟩
      · refine .renewed rfl hrenewed.look (hheld hmid) ?_ hobtained rfl
        rw [hb.timeOfDay.symm]
        exact hrenewed.unusable
      · rintro _ ⟨⟩
        rfl

theorem keeps_answered {o : Outcome} {getting look : List Event} {token : Token} {x : Reply}
    (hb : base.Later w) (hl : w.line = []) (hc : w.cache = Event.cacheAfter base.cache past)
    (H : Answered c r w h o w' getting look token v x) :
    Keeps c r base past h w' 0 ∧ w'.cache = some token := by
  obtain ⟨hkeeps, hgot⟩ := keeps_get (r := r) hb hl hc H.got
  obtain ⟨hcache, hline⟩ := send_frame H.answer
  rw [H.history]
  refine ⟨hkeeps.keeping ?_ hcache hline, hcache.trans (hgot token rfl)⟩
  exact (Event.keeping_of_idle H.look).cons (by simp)

theorem keeps_once {o : Outcome} (hb : base.Later w) (hl : w.line = [])
    (hc : w.cache = Event.cacheAfter base.cache past) (H : w.Runs (once c r) h o w') :
    Keeps c r base past h w' 0 := by
  rcases answered_of_runs H with ⟨f, _, hget⟩ | ⟨getting, look, token, v, x, ha⟩
  · exact (keeps_get hb hl hc hget).1
  · exact (keeps_answered hb hl hc ha).1

/-- Whether one request is rejected shows in its reply. -/
theorem any_rejects_once {o : Outcome} (H : w.Runs (once c r) h o w') :
    (Event.replies h).any (·.rejects) = true ↔ ∃ a e, o = .rejected a e := by
  rcases runs_once H with ⟨f, rfl, hget⟩ | ⟨accessToken, x, hreplies, _, rfl⟩
  · rw [(TokenCache.runs_get hget).1.replies]
    simp
  · rw [hreplies]
    constructor
    · intro hx
      have hrejects : x.rejects = true := by simpa using hx
      obtain ⟨e, he⟩ := ofReply_of_rejects hrejects
      exact ⟨_, e, he⟩
    · rintro ⟨a, e, he⟩
      simpa using (rejects_of_ofReply he).1

/-- The token that was rejected is the one that is still in the cache. -/
theorem keeps_discard {o : Outcome} {getting look first : List Event} {token : Token}
    {u : World σ} {response : Response} (hno : ∀ reply ∈ Event.replies past, reply.rejects = false)
    (hs : response.status = 401)
    (ha : Answered c r w first o v getting look token u (.ok response))
    (hkeeps : Keeps c r base past first v 0) (hcache : v.cache = some token)
    (H : v.Runs (TokenCache.discard token.accessToken) h () w') :
    Keeps c r base (past ++ first) h w' 1 := by
  obtain ⟨hh, rfl⟩ := TokenCache.discarded_of_runs hkeeps.line H
  rw [hcache, if_pos (by simp)] at hh ⊢
  have hcached : Event.cacheAfter base.cache (past ++ first) = some token :=
    hkeeps.cache.symm.trans hcache
  rw [hh]
  refine keeps_of_held (List.forall_mem_nil _) ?_ ?_ rfl rfl
  · have hbefore : past ++ first ++ [⟨.acquire, some token, v.now, v.now⟩] = past ++ getting ++
        ⟨.send (authorized r token.accessToken), .ok response, u.now, v.now⟩ ::
          (look ++ [⟨.acquire, some token, v.now, v.now⟩]) := by
      rw [ha.history]
      simp only [List.append_assoc, List.cons_append]
    refine .emptied hbefore ha.look hs ?_ ?_ rfl
    · rw [Event.replies_append, (TokenCache.runs_get ha.got).1.replies, List.append_nil]
      exact hno
    · rw [Event.cacheAfter_append, hcached]
      rfl
  · rw [hcached]
    exact if_pos (by simp)

/-- An attempt takes the token out of the cache when it is the first to have one rejected. -/
theorem keeps_attempt {x y : Progress} {result : Except Failure Response} (hb : base.Later w)
    (hl : w.line = []) (hc : w.cache = Event.cacheAfter base.cache past)
    (hx : x.reauthenticated = (Event.replies past).any (·.rejects))
    (H : w.Runs (attempt c r x) h (result, y) w') :
    y.reauthenticated = (Event.replies (past ++ h)).any (·.rejects) ∧
      ∃ n, Keeps c r base past h w' n ∧ x.reauthenticated.toNat + n = y.reauthenticated.toNat := by
  rw [Event.replies_append, List.any_append, ← hx]
  rcases attempt_cases H with
    ⟨o, H₁, ho, hagain⟩ | ⟨a, e, o, v, u, first, dropping, second, rfl, hfirst, H₁, H₂, H₃, ho⟩
  · have hy : y.reauthenticated = x.reauthenticated := by
      rw [← conclude_reauthenticated o x, ho]
    refine ⟨?_, 0, keeps_once hb hl hc H₁, by rw [hy]; rfl⟩
    cases hrejects : (Event.replies h).any (·.rejects) with
    | false => rw [hy, Bool.or_false]
    | true =>
      obtain ⟨a, e, rfl⟩ := (any_rejects_once H₁).1 hrejects
      rw [hy, hagain a e rfl, Bool.or_true]
  · have hy : y.reauthenticated = true := by
      have hconcluded := conclude_reauthenticated o { x with reauthenticated := true }
      rwa [ho] at hconcluded
    have hrejects : (Event.replies first).any (·.rejects) = true :=
      (any_rejects_once H₁).2 ⟨a, e, rfl⟩
    refine ⟨by rw [hy, Event.replies_append, List.any_append, hrejects]; simp, 1, ?_, ?_⟩
    · rcases answered_of_runs H₁ with ⟨_, hnot, _⟩ | ⟨getting, look, token, t, reply, ha⟩
      · cases hnot
      obtain ⟨hkeeps, hcache⟩ := keeps_answered hb hl hc ha
      obtain ⟨hreply, rfl⟩ := rejects_of_ofReply ha.outcome.symm
      cases reply with
      | error f => cases hreply
      | ok response =>
        have hno : ∀ reply ∈ Event.replies past, reply.rejects = false := by
          simpa [hfirst] using hx
        have hdropped := keeps_discard hno (of_decide_eq_true hreply) ha hkeeps hcache H₂
        have hsecond := keeps_once (r := r) ((hb.trans H₁.later).trans H₂.later) hdropped.line
          hdropped.cache H₃
        rw [List.append_assoc] at hsecond
        rw [← List.append_assoc]
        exact (hkeeps.append hdropped).append hsecond
    · rw [hfirst, hy]
      rfl

/-! ### The whole call -/

/-- The cache before an attempt: what has been done to it, and that it was emptied once if a token
was rejected. -/
structure Tracked (c : Config) (r : Request) (w : World σ) (past : List Event) (v : World σ)
    (x : Progress) : Prop where
  later : w.Later v
  keeps : Keeps c r w [] past v x.reauthenticated.toNat
  rejected : x.reauthenticated = (Event.replies past).any (·.rejects)

/-- What a call has done to the cache when it is over. -/
structure Accounted (c : Config) (r : Request) (w : World σ) (h : List Event) (w' : World σ) :
    Prop where
  touches : Event.EachAfter (Touch c r w) [] h
  emptyings : Event.emptyings w.cache h = ((Event.replies h).any (·.rejects)).toNat
  line : w'.line = []

theorem Tracked.attempted {x y : Progress} {result : Except Failure Response} {h' : List Event}
    (H : Tracked c r base past w x) (ha : w.Runs (attempt c r x) h (result, y) v)
    (hlook : v.Looked h' u) : Tracked c r base (past ++ h ++ h') u y := by
  obtain ⟨hy, n, hkeeps, hn⟩ := keeps_attempt (c := c) (r := r) H.later H.keeps.line H.keeps.cache
    H.rejected ha
  have hall : Keeps c r base [] (past ++ h) v _ := H.keeps.append hkeeps
  rw [hn] at hall
  refine ⟨(H.later.trans ha.later).trans hlook.later, ?_, ?_⟩
  · exact hall.keeping (Event.keeping_of_idle hlook.idle) hlook.cache hlook.line
  · rw [Event.replies_append, (Event.apart_of_idle hlook.idle).replies, List.append_nil]
    exact hy

theorem Tracked.accounted {x : Progress} (H : Tracked c r base past w x) :
    Accounted c r base past w := by
  refine ⟨H.keeps.touches, ?_, H.keeps.line⟩
  rw [← H.rejected]
  exact H.keeps.emptyings

theorem tracking_rounds (c : Config) (r : Request) (w : World σ) :
    World.Rounds c.retry mayPass (attempt c r) w.now (fun past v _ x => Tracked c r w past v x)
      (fun h v _ => Accounted c r w h v) := by
  refine .of_ends (Q := fun h v => Accounted c r w h v)
    (fun hI H hlook => (hI.attempted H hlook).accounted)
    fun {past h h' v v' u t q q' x y e d} hI H _ hlook _ hsleep => ?_
  have htracked := hI.attempted H hlook
  obtain ⟨hcache, hline⟩ := World.frame_answer? (e := .sleep d) trivial hsleep
  refine ⟨htracked.later.trans (World.later_answer? hsleep), ?_, ?_⟩
  · refine htracked.keeps.keeping ?_ hcache hline
    exact List.forall_mem_singleton.2 (by simp)
  · rw [Event.replies_append, List.any_append, ← htracked.rejected]
    exact (Bool.or_false _).symm

theorem accounted_of_runs {result : Except Failure Response} (hl : w.line = [])
    (H : w.Runs (run c r) h result w') : Accounted c r w h w' := by
  obtain ⟨_, H⟩ := attempts_of_runs H
  refine (tracking_rounds c r w).repeating ⟨.refl w, ?_, rfl⟩ H
  exact keeps_of_keeping (List.forall_mem_singleton.2 (by simp)) rfl hl

theorem Accounted.touch {before later : List Event} {e : Event} (H : Accounted c r w h w')
    (hh : h = before ++ e :: later) : Touch c r w before e := by
  have htouches := H.touches
  rw [hh] at htouches
  exact htouches.of_split

/-- The token lives long enough whenever the call takes the cache and finds it there. -/
def StaysUsable {σ : Type} (c : Config) (w : World σ) (h : List Event) (t : Token) : Prop :=
  ∀ past began rest, h = past ++ ⟨.acquire, some t, began, began⟩ :: rest →
    t.outlives (w.timeOfDay began) c.tokenMargin = true

/-- Nothing is done to the cache while its token lives long enough and none is rejected. -/
theorem unchanged_of_staysUsable {t : Token} (ht : w.cache = some t)
    (hlives : StaysUsable c w h t) (hno : ∀ reply ∈ Event.replies h, reply.rejects = false)
    (H : Accounted c r w h w') (before later : List Event) (hh : h = before ++ later) :
    Event.cacheAfter w.cache before = w.cache := by
  induction before using List.reverseRecOn generalizing later with
  | nil => rfl
  | append_singleton before e ih =>
    rw [List.append_assoc, List.singleton_append] at hh
    have hsame := ih (e :: later) hh
    cases H.touch hh with
    | kept hkept =>
      rw [Event.cacheAfter_append]
      exact hkept.trans hsame
    | @renewed past look asking cached t' began last hbefore _ hcached hstale =>
      obtain rfl : cached = some t := hcached.symm.trans (hsame.trans ht)
      have hlasts := hlives past began (look ++ asking ++ e :: later) (by
        rw [hh, hbefore, List.append_assoc, List.cons_append])
      exact absurd ((hstale t rfl).symm.trans hlasts) nofun
    | @emptied past look t' response t₁ t₂ t₃ t₄ hbefore _ h401 =>
      -- the rejection is one of the replies
      have hreply : .ok response ∈ Event.replies h := by
        rw [hh, Event.replies_append, hbefore, Event.replies_append]
        refine List.mem_append_left _ (List.mem_append_right _ ?_)
        simp [Event.replies, Event.reply?, asksForToken_authorized]
      have hrejects := hno _ hreply
      simp [Reply.rejects, h401] at hrejects

/-- The error of a request for a token is not that of a call whose tokens were rejected. -/
theorem ne_rejected_of_get {f : Failure} {e : ApiError} {status : Option UInt16}
    (H : w.Runs (TokenCache.get c) h (.error f) w') :
    f ≠ .error (.auth (.rejectedAfterRefresh e) status) := by
  obtain ⟨g, u, v, h', _, hfetch⟩ := (TokenCache.runs_get H).2 f rfl
  obtain ⟨failures, last, htried⟩ := TokenCache.tried_of_fetch (.refl u) hfetch
  rintro rfl
  rcases htried.result with ⟨hupshot, _⟩ | ⟨hover, _⟩
  · cases hupshot
  · cases hover

theorem rejects_of_conclusion {now : Timestamp} {reply : Reply} {e : ApiError}
    {status : Option UInt16}
    (H : conclusion now reply = .error (.error (.auth (.rejectedAfterRefresh e) status))) :
    reply.rejects = true := by
  cases reply with
  | error f => cases H
  | ok r =>
    rw [conclusion] at H
    split at H
    · cases H
    · split at H
      · exact decide_eq_true ‹_›
      · split at H
        · cases H
        · split at H <;> cases H

/-- A call that ends because its tokens were rejected has had a token rejected. -/
theorem any_rejects_of_runs {e : ApiError} {status : Option UInt16}
    (H : w.Runs (run c r) h (.error (.error (.auth (.rejectedAfterRefresh e) status))) w') :
    (Event.replies h).any (·.rejects) = true := by
  rcases concluded_of_runs H with ⟨⟨f, u, before, acquiring, hf, _, _, hget⟩, _⟩ |
    ⟨earlier, last, hconcluded⟩
  · cases hf
    exact absurd rfl (ne_rejected_of_get hget)
  · rcases hconcluded.result with ⟨hresult, _⟩ | ⟨hover, _⟩
    · rw [hconcluded.replies, List.any_append]
      simp [rejects_of_conclusion hresult.symm]
    · cases hover

/-- All that a call does to the cache. -/
structure CacheUse (c : Config) (r : Request) (w : World σ) (h : List Event)
    (result : Except Failure Response) (w' : World σ) : Prop where
  cache : w'.cache = Event.cacheAfter w.cache h
  touches : ∀ before e later, h = before ++ e :: later → Touch c r w before e
  /-- Without a rejection the cache stays as it was at all times, if the token in it lives long
  enough whenever the call looks at it. -/
  unchanged : ∀ t, w.cache = some t → StaysUsable c w h t →
    (∀ reply ∈ Event.replies h, reply.rejects = false) →
    ∀ before later, h = before ++ later → Event.cacheAfter w.cache before = w.cache
  emptyings : Event.emptyings w.cache h = ((Event.replies h).any (·.rejects)).toNat
  /-- A second rejection, which ends the call, leaves it at that. -/
  second : ∀ e status, result = .error (.error (.auth (.rejectedAfterRefresh e) status)) →
    Event.emptyings w.cache h = 1

theorem cacheUse_of_runs {result : Except Failure Response} (hl : w.line = [])
    (H : w.Runs (run c r) h result w') : CacheUse c r w h result w' := by
  have hacc := accounted_of_runs hl H
  refine ⟨H.cacheAfter_eq, fun before e later hh => hacc.touch hh,
    fun t ht hlives hno => unchanged_of_staysUsable ht hlives hno hacc, hacc.emptyings, ?_⟩
  rintro e status rfl
  rw [hacc.emptyings, any_rejects_of_runs H]
  rfl

end Delivery

/-- All that a call does to the cache is to put a token in it that it has asked for because there
was none, or none that lived long enough, and to take one out of it that was rejected when none was
before; it does the latter once if a token is rejected at all. -/
theorem cacheUse_of_call {σ : Type} (c : Config) (method : Http.Method) (path : String)
    (body : Option Bytes) (w : World σ) (hl : w.line = []) :
    let r := Delivery.request c method path body
    let call := Delivery.run c r
    ∃ result w', w.solo none call = (some result, w') ∧
      Delivery.CacheUse c r w (w.history call) result w' := by
  intro r call
  obtain ⟨result, w', H⟩ := Delivery.exists_runs r hl
  exact ⟨result, w', H.solo_eq, Delivery.cacheUse_of_runs hl H⟩

/-- A token that has come to its end, and a server that accepts none of those that it grants. -/
def World.distrustful : World Script :=
  { World.scripted {
      tokenReplies := [.ofError 400 "unknown", .token "first" 3600, .token "second" 3600]
      replies := [.ofError 503 "down", .ofError 401 "expired", .ofError 401 "revoked"] } with
    cache := some .outworn }

/-- The old token gives way to the first one that is granted, and that one to nothing; the second
one stays, although it is rejected as well. -/
theorem cacheUse_of_distrustful :
    let r := Delivery.request .plain .get "/volumes" none
    let call := Delivery.run .plain r
    let h := World.distrustful.history call
    World.distrustful.line = [] ∧ (Event.replies h).map (·.rejects) = [false, true, true] ∧
      Event.emptyings World.distrustful.cache h = 1 ∧
      (Event.cacheAfter World.distrustful.cache h).map (·.accessToken) = some "second" ∧
      ∃ result w', World.distrustful.solo none call = (some result, w') ∧
        Delivery.CacheUse .plain r .distrustful h result w' := by
  intro r call h
  have hdone : (Event.replies h).map (·.rejects) = [false, true, true] ∧
      Event.emptyings World.distrustful.cache h = 1 ∧
      (Event.cacheAfter World.distrustful.cache h).map (·.accessToken) = some "second" := by
    decide +kernel
  exact ⟨rfl, hdone.1, hdone.2.1, hdone.2.2,
    cacheUse_of_call .plain .get "/volumes" none .distrustful rfl⟩

/-- A token that lives long enough for another three tenths of a second, and a server that is down
at first. -/
def World.waning : World Script :=
  { World.scripted {
      replies := [.ofError 503 "down", .ofText 200 "done"]
      defaultToken := some (.token "fresh" 3600) } with
    cache := some { Token.outworn with expiresAt := ⟨60300 * 10 ^ 6, by decide⟩ }
    timeOfDay := fun t => (Timestamp.ofNanos? t).getD .max }

/-- A call that starts with a token that lives long enough should leave the cache as it is unless a
token is rejected, but this one does not. -/
theorem cache_changed_of_waning :
    let call := Delivery.run .plain (Delivery.request .plain .get "/volumes" none)
    let lives (t : Token) :=
      t.outlives (World.waning.timeOfDay World.waning.now) Config.plain.tokenMargin
    World.waning.line = [] ∧ World.waning.cache.any lives = true ∧
      (Event.replies (World.waning.history call)).map (·.rejects) = [false, false] ∧
      ∃ result w', World.waning.solo none call = (some result, w') ∧
        w'.cache ≠ World.waning.cache := by
  intro call lives
  have hchanged : (World.waning.solo none call).2.cache ≠ World.waning.cache := by
    decide +kernel
  obtain ⟨result, w', H⟩ := Delivery.exists_runs (c := .plain)
    (Delivery.request .plain .get "/volumes" none) (w := World.waning) rfl
  rw [H.solo_eq] at hchanged
  exact ⟨rfl, by decide +kernel, by decide +kernel, result, w', H.solo_eq, hchanged⟩

end CloudClient
