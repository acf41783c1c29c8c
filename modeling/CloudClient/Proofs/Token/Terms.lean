import CloudClient.Proofs.Http.Message
import CloudClient.Proofs.Program.Together

/-!
How the token cache may be used. A token is only asked for by who has the cache and found nothing in
it that will do; the cache is given back as it was found, with a new token, or emptied of a token
that is not wanted any more. All functions of the cache keep to this.
-/

namespace CloudClient

open Http (Request)

/-- What a task remembers of its dealings with the cache and with the server. -/
structure Notes where
  /-- What it left in the cache when it last gave it back. -/
  gave : Option (Option Token) := none
  /-- The token with which its last request was rejected. -/
  rejected : Option String := none

/-- The token of a request that was rejected for it. -/
def Notes.rejection (accessToken : String) : Reply → Option String
  | .ok response => if response.status = 401 then some accessToken else none
  | .error _ => none

def Notes.step (n : Notes) : Deed → Notes
  | .ends (.release x) _ => { n with gave := some x }
  | .ends (.send r) x =>
    match r.bearer? with
    | some accessToken => { n with rejected := rejection accessToken x }
    | none => n
  | _ => n

theorem Notes.gave_ends {e : Effect} (x : e.Answer) (he : ∀ y, e ≠ .release y) (n : Notes) :
    (n.step (.ends e x)).gave = n.gave := by
  cases e with
  | release y => exact absurd rfl (he y)
  | send r =>
    simp only [Notes.step]
    split <;> rfl
  | _ => rfl

/-- Who may take which token out of the cache, and what answers the tasks count on. -/
structure Terms where
  drops : Notes → Token → Prop
  found : Notes → Option Token → Prop
  replies : Request → Reply → Prop
  reads : Account → Timestamp → Prop

/-- A task may ask for a token with this request: it has found out that it needs one, or the last
reply brought none. -/
structure Account.MayAsk (c : Config) (a : Account) (r : Request) (cached : Option Token)
    (g : Grant) : Prop where
  held : a.held = some cached
  request : r = g.request c
  first : cached.bind (·.refreshToken) = none → g = .clientCredentials
  fresh : a.asked = none →
    ∀ t, cached = some t → ∃ now, a.checked = some now ∧ t.outlives now c.tokenMargin = false
  again : a.asked ≠ none → a.answered = some none

theorem Account.asked_starts (a : Account) {e : Effect}
    (he : ∀ r, e = .send r → r.asksForToken = false) : (a.step (.starts e)).asked = a.asked := by
  cases e with
  | send r => simp [Account.step, he r rfl]
  | _ => rfl

theorem Account.asked_ends {a : Account} {e : Effect} (x : e.Answer) (he : ∀ y, e ≠ .release y)
    (ha : e = .acquire → a.asked = none) : (a.step (.ends e x)).asked = a.asked := by
  cases e with
  | release y => exact absurd rfl (he y)
  | acquire => exact (ha rfl).symm
  | send r =>
    simp only [Account.step]
    split <;> rfl
  | timeOfDay =>
    simp only [Account.step, Account.readsTime]
    split <;> rfl
  | _ => rfl

theorem Chronicle.asked_cons {h : Chronicle} {i now : Nat} {cache : Option Token} {d : Deed}
    (hd : ((h.account i).step d).asked = (h.account i).asked) (j : Nat) :
    (Chronicle.account j (⟨i, now, cache, d⟩ :: h)).asked = (h.account j).asked :=
  Chronicle.forall_account_cons (P := fun j a => a.asked = (h.account j).asked)
    (fun _ => rfl) hd j

/-- Answers and tokens come after requests, and a token that has been looked at will do if it is
one of these. -/
structure Account.Coherent (c : Config) (P : Token → Prop) (a : Account) : Prop where
  asked : a.asked ≠ none → a.held ≠ none
  answered : a.answered ≠ none → a.asked ≠ none
  obtained : a.obtained ≠ none → a.asked ≠ none
  checked : ∀ n t, a.checked = some n → a.held = some (some t) → P t →
    t.outlives n c.tokenMargin = true

namespace Account.Coherent

variable {σ : Type} {c : Config} {P : Token → Prop} {a : Account} {w : World σ}

theorem blank : Coherent c P {} :=
  ⟨absurd rfl, absurd rfl, absurd rfl, by simp⟩

theorem rest (h : a.Coherent c P) : Coherent c P { a with checked := none } :=
  ⟨h.asked, h.answered, h.obtained, by simp⟩

theorem asked_of_held (h : a.Coherent c P) (hn : a.held = none) : a.asked = none := by
  cases ha : a.asked with
  | none => rfl
  | some r => exact absurd hn (h.asked (by simp [ha]))

theorem start (h : a.Coherent c P) {e : Effect}
    (he : ∀ r, e = .send r → r.asksForToken = true → a.held ≠ none) :
    Coherent c P (a.step (.starts e)) := by
  cases e with
  | send r =>
    simp only [Account.step]
    split
    · rename_i hr
      exact ⟨fun _ => he r rfl hr, fun h => absurd rfl h, fun _ => by simp, by simp⟩
    · exact h.rest
  | sleep d => exact h.rest
  | acquire => exact h.rest
  | _ => exact h

theorem finish (h : a.Coherent c P) {cache : Option Token} {now : Nat} {e : Effect} {x : e.Answer}
    (hs : ∀ r, e = .send r → r.asksForToken = true → a.asked ≠ none)
    (hx : w.Answers cache now e x)
    (hl : ∀ t, a.held = some (some t) → P t → t.outlives (w.timeOfDay now) c.tokenMargin = true) :
    Coherent c P (a.step (.ends e x)) := by
  cases e with
  | send r =>
    simp only [Account.step]
    split
    · rename_i hr
      exact ⟨h.asked, fun _ => hs r rfl hr, h.obtained, h.checked⟩
    · exact h
  | acquire => exact ⟨absurd rfl, absurd rfl, absurd rfl, by simp [Account.step]⟩
  | release x => exact blank
  | timeOfDay =>
    simp only [Account.step, Account.readsTime]
    split
    · exact h
    · rename_i ha
      have hn : a.asked ≠ none := h.answered (by simp [ha])
      exact ⟨h.asked, fun h => absurd rfl h, fun _ => hn, h.checked⟩
    · refine ⟨h.asked, h.answered, h.obtained, fun n t hn ht hP => ?_⟩
      rw [← Option.some.inj hn, show x = w.timeOfDay now from hx]
      exact hl t ht hP
  | _ => exact h

end Account.Coherent

/-- Who asks for a token has the cache, so when it is given back nobody does. -/
theorem Chronicle.asked_release {c : Config} {P : Token → Prop} {h : Chronicle} {i now : Nat}
    {cache x y : Option Token} (H : ∀ j, (h.account j).Coherent c P) (hs : h.Sole cache)
    (hx : (h.account i).held = some x) (u : Unit) (j : Nat) :
    (Chronicle.account j (⟨i, now, cache, .ends (.release y) u⟩ :: h)).asked = none := by
  by_cases hij : i = j
  · subst hij
    rw [show Chronicle.account i _ = _ from Chronicle.account_same ⟨i, now, cache, _⟩ h]
    rfl
  · rw [Chronicle.account_other (o := ⟨i, now, cache, _⟩) hij]
    refine (H j).asked_of_held (Decidable.byContradiction fun hj => ?_)
    exact hij ((hs i x hx).2 j hj).symm

namespace Terms

variable (L : Terms) (c : Config)

/-- How the cache may be given back: as it was unless a token was obtained, with that token, or
without one that is not wanted. -/
inductive MayRelease (a : Account) (n : Notes) : Option Token → Prop where
  | same {x : Option Token} : a.held = some x → (a.asked ≠ none → a.answered = some none) →
      MayRelease a n x
  | new {t : Token} : a.obtained = some t → MayRelease a n (some t)
  | dropped {t : Token} : a.held = some (some t) → a.asked = none → L.drops n t →
      MayRelease a n none

def conduct : Conduct Notes where
  blank := {}
  note s d := s.2.step d
  may
    | s, .send r => r.asksForToken = true → ∃ cached g, s.1.MayAsk c r cached g
    | s, .release x => L.MayRelease s.1 s.2 x
    | _, _ => True
  expects
    | s, .acquire, x => L.found s.2 x
    | _, .send r, x => L.replies r x
    | s, .timeOfDay, now => L.reads s.1 now
    | _, _, _ => True

/-- Only who gives the cache back changes what it left there last. -/
theorem gave_cons {L : Terms} {c : Config} {now i : Nat} {cache : Option Token} {h : Chronicle}
    {d : Deed} (hd : ∀ n : Notes, (n.step d).gave = n.gave) (j : Nat) :
    ((L.conduct c).state j (⟨i, now, cache, d⟩ :: h)).2.gave =
      ((L.conduct c).state j h).2.gave :=
  (L.conduct c).forall_state_cons (o := ⟨i, now, cache, d⟩)
    (P := fun j s => s.2.gave = ((L.conduct c).state j h).2.gave) (fun _ => rfl) (hd _) j

/-- A token that the server granted. -/
def Granted (t : Token) : Prop :=
  ∃ g response grant now, L.replies (Grant.request c g) (.ok response) ∧
    TokenResponse.ofHttp response = .ok grant ∧ t = Token.ofResponse grant now

/-- The server brought no token. -/
def Refused : Prop :=
  ∃ g reply, L.replies (Grant.request c g) reply ∧ Account.tokenIn? reply = none

variable {L c}

/-! ### Asking for a token -/

/-- A task that has the cache and has just seen the server. -/
structure Asking (n : Notes) (cached : Option Token) (answered : Option (Option TokenResponse))
    (s : Account × Notes) : Prop where
  notes : s.2 = n
  held : s.1.held = some cached
  checked : s.1.checked = none
  asked : s.1.asked ≠ none
  answered : s.1.answered = answered
  obtained : s.1.obtained = none

theorem quiet_of_checked {s : Account × Notes} (h : s.1.checked = none) :
    (L.conduct c).Quiet s := by
  obtain ⟨⟨held, checked, asked, answered, obtained⟩, n⟩ := s
  cases h
  exact ⟨⟨⟨trivial, trivial⟩, fun _ => rfl⟩, ⟨⟨trivial, trivial⟩, fun _ => rfl⟩,
    fun _ => ⟨⟨trivial, trivial⟩, fun _ => rfl⟩⟩

/-- One request for a token. -/
theorem obeys_request {s : Account × Notes} {cached : Option Token} {g : Grant}
    (hs : s.1.MayAsk c (g.request c) cached g) (ho : s.1.obtained = none) :
    (L.conduct c).Obeys (fun s' r => ∃ reply, L.replies (g.request c) reply ∧
      Asking s.2 cached (some (Account.tokenIn? reply)) s' ∧
      r = reply.mapError fun f => .error (.network f)) (Program.request (g.request c)) s := by
  refine ⟨⟨trivial, fun _ => ⟨cached, g, hs⟩⟩, fun reply hreply => ?_⟩
  have hafter : Asking s.2 cached (some (Account.tokenIn? reply))
      ((L.conduct c).after s (.send (g.request c)) reply) := by
    simp only [Conduct.after, Conduct.step, Account.step, asksForToken_grant, if_true, conduct,
      Notes.step, bearer?_grant]
    exact ⟨rfl, hs.held, rfl, Option.some_ne_none _, rfl, ho⟩
  cases reply with
  | ok response => exact ⟨_, hreply, hafter, rfl⟩
  | error f => exact ⟨_, hreply, hafter, rfl⟩

/-- A task that may ask for a token in this way, now and after replies without one. -/
structure Poised (c : Config) (n : Notes) (cached : Option Token) (g : Grant)
    (s : Account × Notes) : Prop where
  notes : s.2 = n
  obtained : s.1.obtained = none
  may : s.1.MayAsk c (g.request c) cached g

theorem Asking.poised {n : Notes} {cached : Option Token} {g : Grant} {s : Account × Notes}
    (h : Asking n cached (some none) s)
    (hg : cached.bind (·.refreshToken) = none → g = .clientCredentials) :
    Poised c n cached g s :=
  ⟨h.notes, h.obtained, h.held, rfl, hg, fun hn => absurd hn h.asked, fun _ => h.answered⟩

/-- What comes of asking for a token. -/
def Fetched (L : Terms) (c : Config) (n : Notes) (cached : Option Token) (s : Account × Notes) :
    Except Failure Token → Prop
  | .ok t => s.2 = n ∧ s.1.held = some cached ∧ s.1.obtained = some t ∧ L.Granted c t
  | .error _ => Asking n cached (some none) s ∧ L.Refused c

theorem obeys_fetch {n : Notes} {cached : Option Token} {g : Grant} {s : Account × Notes}
    (hg : cached.bind (·.refreshToken) = none → g = .clientCredentials)
    (hs : Poised c n cached g s) :
    (L.conduct c).Obeys (L.Fetched c n cached) (TokenCache.fetch c g) s := by
  have htimed : (L.conduct c).Timed s := ⟨⟨trivial, trivial⟩, fun _ => rfl⟩
  refine (Conduct.obeys_retrying (I := Poised c n cached g) (Q := fun s' r =>
    match r with
    | .ok response => L.replies (g.request c) (.ok response) ∧
        Asking n cached (some (Account.tokenIn? (.ok response))) s'
    | .error _ => L.Fetched c n cached s' (.error .overflow)) ?_ hs htimed).bind ?_
  · intro s₁ h₁
    refine (obeys_request h₁.may h₁.obtained).mono ?_
    rintro s₂ r ⟨reply, hreply, ha, rfl⟩
    rw [h₁.notes] at ha
    cases reply with
    | ok response => exact ⟨⟨hreply, ha⟩, nofun⟩
    | error f =>
      have hf : L.Fetched c n cached s₂ (.error .overflow) := ⟨ha, g, _, hreply, rfl⟩
      exact ⟨hf, fun _ _ _ => ⟨ha.poised hg, quiet_of_checked ha.checked, hf⟩⟩
  · rintro s₁ (f | response) h₁
    · exact h₁
    · obtain ⟨hreply, ha⟩ := h₁
      dsimp only
      cases ht : TokenResponse.ofHttp response with
      | error fault =>
        have hnone : Account.tokenIn? (.ok response) = none := by
          rw [Account.tokenIn?, ht]
          rfl
        rw [hnone] at ha
        exact ⟨ha, g, _, hreply, hnone⟩
      | ok t =>
        refine ⟨⟨trivial, trivial⟩, fun now _ =>
          ⟨ha.notes, ?_, ?_, g, response, t, now, hreply, ht, rfl⟩⟩
        all_goals
          simp only [Conduct.after, Conduct.step, Account.step, Account.readsTime, ha.held,
            ha.answered, Account.tokenIn?, ht, Except.toOption]

theorem obeys_renew {n : Notes} {cached : Option Token} {s : Account × Notes}
    (hs : ∀ g, (cached.bind (·.refreshToken) = none → g = .clientCredentials) →
      Poised c n cached g s) :
    (L.conduct c).Obeys (L.Fetched c n cached)
      (TokenCache.renew c (cached.bind (·.refreshToken))) s := by
  cases hr : cached.bind (·.refreshToken) with
  | none => exact obeys_fetch (fun _ => rfl) (hs _ fun _ => rfl)
  | some token =>
    have hne {g : Grant} : cached.bind (·.refreshToken) = none → g = .clientCredentials := by
      simp [hr]
    refine (obeys_fetch hne (hs _ hne)).bind ?_
    rintro s₁ (f | t) h₁
    · -- the refresh token has brought none, which is the leave to ask with the credentials
      cases f with
      | error e => exact obeys_fetch hne (h₁.1.poised hne)
      | overflow => exact h₁
    · exact h₁

/-! ### Taking the cache and giving it back -/

theorem obeys_acquire {n : Notes} {α : Type} {f : Option Token → Program α}
    {post : Account × Notes → α → Prop}
    (h : ∀ x, L.found n x → (L.conduct c).Obeys post (f x) ({ held := some x }, n)) :
    (L.conduct c).Obeys post (Program.acquire >>= f) ({}, n) :=
  ⟨⟨rfl, trivial⟩, fun x hx => h x hx⟩

/-- How a task stands that has looked at what it found in the cache. -/
def Looked (L : Terms) (c : Config) (n : Notes) (cached : Option Token) (s : Account × Notes) :
    Option Token → Prop
  | some t => s.1.held = some cached ∧ s.2 = n ∧ s.1.asked = none ∧ cached = some t
  | none => (∀ g, (cached.bind (·.refreshToken) = none → g = .clientCredentials) →
      Poised c n cached g s) ∧
      ∀ t, cached = some t → ∃ now, L.reads { held := some cached } now ∧
        t.outlives now c.tokenMargin = false

theorem obeys_usable? (n : Notes) (cached : Option Token) :
    (L.conduct c).Obeys (L.Looked c n cached) (TokenCache.usable? c cached)
      ({ held := some cached }, n) := by
  cases cached with
  | none =>
    refine ⟨fun g hg => ⟨rfl, rfl, rfl, rfl, hg, ?_, fun h => absurd rfl h⟩, ?_⟩
    · intro _ t ht
      contradiction
    · intro t ht
      contradiction
  | some t =>
    refine ⟨⟨trivial, trivial⟩, fun now hnow => ?_⟩
    have hafter : (L.conduct c).after ({ held := some (some t) }, n) .timeOfDay now =
        ({ held := some (some t), checked := some now }, n) := rfl
    rw [hafter]
    change L.Looked c n (some t) _ (if t.outlives now c.tokenMargin = true then some t else none)
    split
    · exact ⟨rfl, rfl, rfl, rfl⟩
    · rename_i ho
      have hstale (t' : Token) (ht : some t = some t') : t'.outlives now c.tokenMargin = false :=
        Option.some.inj ht ▸ Bool.eq_false_iff.2 ho
      exact ⟨fun g hg => ⟨rfl, rfl, rfl, rfl, hg, fun _ t' ht => ⟨now, rfl, hstale t' ht⟩,
          fun h => absurd rfl h⟩,
        fun t' ht => ⟨now, hnow, hstale t' ht⟩⟩

/-- What comes of taking a token out of the cache or getting a new one. -/
def Got (L : Terms) (c : Config) (n : Notes) (s : Account × Notes) : Except Failure Token → Prop
  | .ok t => s = ({}, { n with gave := some (some t) }) ∧ (L.found n (some t) ∨ L.Granted c t)
  | .error _ => ∃ cached, s = ({}, { n with gave := some cached }) ∧ L.found n cached ∧
      L.Refused c ∧ ∀ t, cached = some t → ∃ now, L.reads { held := some cached } now ∧
        t.outlives now c.tokenMargin = false

theorem obeys_get (n : Notes) : (L.conduct c).Obeys (L.Got c n) (TokenCache.get c) ({}, n) := by
  refine obeys_acquire fun cached hcached => ?_
  refine (obeys_usable? n cached).bind ?_
  rintro ⟨a, n'⟩ (_ | t) hs
  · -- nothing that will do was found: the cache is given back with a new token, or as it was
    refine (obeys_renew hs.1).bind ?_
    rintro ⟨a', n'⟩ (f | t) hf
    · obtain ⟨ha, hrefused⟩ := hf
      obtain rfl : n' = n := ha.notes
      have hh : a'.held = some cached := ha.held
      exact ⟨⟨by simp [Conduct.Entitled, hh], .same hh fun _ => ha.answered⟩,
        fun _ _ => ⟨cached, rfl, hcached, hrefused, hs.2⟩⟩
    · obtain ⟨hn, hh, ho, hgranted⟩ := hf
      obtain rfl : n' = n := hn
      change a'.held = some cached at hh
      exact ⟨⟨by simp [Conduct.Entitled, hh], .new ho⟩, fun _ _ => ⟨rfl, .inr hgranted⟩⟩
  · obtain ⟨hh, hn, hasked, rfl⟩ := hs
    obtain rfl : n' = n := hn
    change a.held = some (some t) at hh
    exact ⟨⟨by simp [Conduct.Entitled, hh], .same hh (absurd hasked)⟩,
      fun _ _ => ⟨rfl, .inl hcached⟩⟩

theorem obeys_peek (n : Notes) :
    (L.conduct c).Obeys (fun s _ => s.1 = {}) TokenCache.peek ({}, n) :=
  obeys_acquire fun _ _ => ⟨⟨nofun, .same rfl (absurd rfl)⟩, fun _ _ => rfl⟩

theorem obeys_clear (hL : ∀ n t, L.drops n t) (n : Notes) :
    (L.conduct c).Obeys (fun s _ => s.1 = {}) TokenCache.clear ({}, n) := by
  refine obeys_acquire fun cached _ => ?_
  cases cached with
  | none => exact ⟨⟨nofun, .same rfl (absurd rfl)⟩, fun _ _ => rfl⟩
  | some t => exact ⟨⟨nofun, .dropped rfl rfl (hL n t)⟩, fun _ _ => rfl⟩

/-- What a discarded token leaves behind: something else. -/
theorem obeys_discard {n : Notes} {accessToken : String}
    (hL : ∀ t, t.accessToken = accessToken → L.drops n t) :
    (L.conduct c).Obeys (fun s _ => ∃ x, s = ({}, { n with gave := some x }) ∧
      ∀ t, x = some t → t.accessToken ≠ accessToken) (TokenCache.discard accessToken) ({}, n) := by
  refine obeys_acquire fun cached _ => ?_
  by_cases hc : cached.any (·.accessToken = accessToken) = true
  · cases cached with
    | none => contradiction
    | some t =>
      rw [if_pos hc]
      refine ⟨⟨nofun, .dropped rfl rfl (hL t (of_decide_eq_true hc))⟩, fun _ _ => ⟨none, rfl, ?_⟩⟩
      intro t ht
      contradiction
  · rw [if_neg hc]
    refine ⟨⟨nofun, .same rfl (absurd rfl)⟩, fun _ _ => ⟨cached, rfl, ?_⟩⟩
    rintro t rfl ht
    exact hc (by simp [ht])

end Terms

end CloudClient
