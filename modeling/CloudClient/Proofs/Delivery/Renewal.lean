import CloudClient.Proofs.Machine.Schedule
import CloudClient.Proofs.Machine.Scripted
import CloudClient.Proofs.Token.Terms

/-!
Calls made side by side when the server has ceased to accept the cached token. One of them gets a
new token and all go on with that; a rejection that comes in late takes no newer token out of the
cache.
-/

namespace CloudClient

open Http (Request Response)

/-- A reply of a server that rejects just one token, and grants others. -/
structure Reply.Renews (c : Config) (t : Token) (r : Request) (x : Reply) : Prop where
  grants : ∀ g, r = Grant.request c g → ∃ response grant, x = .ok response ∧
    TokenResponse.ofHttp response = .ok grant ∧ grant.accessToken ≠ t.accessToken
  rejects : r.bearer? = some t.accessToken → ∃ response, x = .ok response ∧ response.status = 401
  accepts : ∀ accessToken, r.bearer? = some accessToken → accessToken ≠ t.accessToken →
    ∃ response, x = .ok response ∧ response.isSuccess = true

def Server.Renews {σ : Type} (server : Server σ) (c : Config) (t : Token) : Prop :=
  ∀ state r, Reply.Renews c t r (server.reply state r).1

theorem Delivery.meaning_of_isSuccess {r : Response} (h : r.isSuccess = true) :
    meaning r = .done (.ok r) := by
  rw [meaning, if_pos h]
  rfl

/-- The task has had its token rejected and given back the cache without it. -/
def Notes.Cleared (t : Token) (n : Notes) : Prop :=
  n.rejected = some t.accessToken ∧
    ∃ y, n.gave = some y ∧ ∀ z, y = some z → z.accessToken ≠ t.accessToken

namespace Terms

/-- Only a token that was rejected may be taken out of the cache, and it does not come back. -/
def renewing (c : Config) (t : Token) : Terms where
  drops n z := n.rejected = some z.accessToken
  found n x := n.Cleared t → ∀ z, x = some z → z.accessToken ≠ t.accessToken
  replies r x := Reply.Renews c t r x
  reads _ _ := True

variable {c : Config} {t : Token}

theorem not_refused : ¬ (renewing c t).Refused c := by
  rintro ⟨g, reply, hreply, hnone⟩
  obtain ⟨response, grant, rfl, hgrant, _⟩ := hreply.grants g rfl
  rw [Account.tokenIn?, hgrant] at hnone
  contradiction

theorem ne_of_granted {z : Token} (h : (renewing c t).Granted c z) :
    z.accessToken ≠ t.accessToken := by
  obtain ⟨g, response, grant, now, hreply, hgrant, rfl⟩ := h
  obtain ⟨response', grant', he, hgrant', hne⟩ := hreply.grants g rfl
  cases he
  rw [hgrant] at hgrant'
  cases hgrant'
  exact hne

/-- Where a request leads: to success, or to a rejection that has not been seen before. -/
def Renewed (t : Token) (n : Notes) (s : Account × Notes) : Delivery.Outcome → Prop
  | .settled (.ok response) => s.1 = {} ∧ response.isSuccess = true
  | .rejected accessToken _ => s.1 = {} ∧ accessToken = t.accessToken ∧
      s.2.rejected = some accessToken ∧ ¬ n.Cleared t
  | _ => False

theorem obeys_once (n : Notes) (r : Request) :
    ((renewing c t).conduct c).Obeys (Renewed t n) (Delivery.once c r) ({}, n) := by
  refine (obeys_get n).bind ?_
  rintro s (f | z) hs
  · obtain ⟨_, _, _, hrefused, _⟩ := hs
    exact absurd hrefused not_refused
  · obtain ⟨rfl, hz⟩ := hs
    have hcleared (hn : n.Cleared t) : z.accessToken ≠ t.accessToken :=
      hz.elim (fun hf => hf hn z rfl) ne_of_granted
    refine ⟨⟨trivial, fun ha => absurd ha (by simp)⟩, fun x hx => ?_⟩
    change Reply.Renews c t (Delivery.authorized r z.accessToken) x at hx
    have hafter : ((renewing c t).conduct c).after ({}, { n with gave := some (some z) })
        (.send (Delivery.authorized r z.accessToken)) x =
        ({}, { gave := some (some z), rejected := Notes.rejection z.accessToken x }) := by
      simp only [Conduct.after, Conduct.step, Account.step, asksForToken_authorized, conduct,
        Notes.step, bearer?_authorized]
      rfl
    rw [hafter]
    by_cases ht : z.accessToken = t.accessToken
    · obtain ⟨response, rfl, h401⟩ := hx.rejects (by rw [bearer?_authorized, ht])
      have hrejected : Notes.rejection z.accessToken (.ok response) = some z.accessToken :=
        if_pos h401
      change Conduct.Obeys _ _ (if response.status = 401 then _ else _) _
      rw [if_pos h401]
      exact ⟨rfl, ht, hrejected, fun hn => hcleared hn ht⟩
    · obtain ⟨response, rfl, hok⟩ := hx.accepts _ (bearer?_authorized ..) ht
      change Conduct.Obeys _ _ (if response.status = 401 then _ else _) _
      rw [if_neg (response.status_ne_of_isSuccess hok), Delivery.meaning_of_isSuccess hok]
      exact ⟨rfl, hok⟩

theorem obeys_attempt (n : Notes) (r : Request) :
    ((renewing c t).conduct c).Obeys (fun s p => s.1 = {} ∧
      ∃ response, p.1 = .ok response ∧ response.isSuccess = true)
      (Delivery.attempt c r {}) ({}, n) := by
  refine (obeys_once n r).bind ?_
  rintro ⟨a, n₁⟩ (result | f | ⟨accessToken, e⟩) h₁
  · cases result with
    | ok response => exact ⟨h₁.1, response, rfl, h₁.2⟩
    | error f => exact h₁.elim
  · exact h₁.elim
  · obtain ⟨rfl, rfl, hrejected, _⟩ := h₁
    -- the token is rejected for the first time, and a second one cannot be
    have hdiscard : ∀ z, z.accessToken = t.accessToken → (renewing c t).drops n₁ z :=
      fun z hz => hrejected.trans (congrArg some hz).symm
    refine (obeys_discard hdiscard).bind ?_
    rintro _ _ ⟨y, rfl, hy⟩
    refine (obeys_once { n₁ with gave := some y } r).bind ?_
    rintro s (result | f | ⟨accessToken, e'⟩) h₂
    · cases result with
      | ok response => exact ⟨h₂.1, response, rfl, h₂.2⟩
      | error f => exact h₂.elim
    · exact h₂.elim
    · exact absurd ⟨hrejected, y, rfl, hy⟩ h₂.2.2.2

theorem obeys_run (r : Request) :
    ((renewing c t).conduct c).Obeys (fun s result => s.1 = {} ∧
      ∃ response, result = .ok response ∧ response.isSuccess = true)
      (Delivery.run c r) ({}, {}) := by
  refine (Conduct.obeys_repeating (I := fun x s => x = {} ∧ s.1 = {}) (Q := fun s p => s.1 = {} ∧
    ∃ response, p.1 = .ok response ∧ response.isSuccess = true) ?_ ⟨rfl, rfl⟩
    ⟨⟨trivial, trivial⟩, fun _ => rfl⟩).bind ?_
  · rintro _ ⟨_, n⟩ ⟨rfl, rfl⟩
    refine (obeys_attempt n r).mono fun s p h => ⟨h, fun e he => ?_⟩
    obtain ⟨_, response, hr, _⟩ := h
    rw [hr] at he
    contradiction
  · rintro s ⟨result, x⟩ h
    exact h

end Terms

/-! ### The laws of renewal -/

namespace Chronicle

/-- Requests for a token. -/
def tokenRequests : Chronicle → Nat
  | [] => 0
  | o :: h =>
    tokenRequests h +
      match o.deed with
      | .starts (.send r) => if r.asksForToken then 1 else 0
      | _ => 0

/-- All tokens that are obtained live long enough whatever happens later. -/
def ObtainedLast {σ : Type} (c : Config) (w : World σ) (h : Chronicle) : Prop :=
  h.Every fun o before => ∀ t ∈ before.tokens,
    t.outlives (w.timeOfDay o.time) c.tokenMargin = true

instance {σ : Type} (c : Config) (w : World σ) (h : Chronicle) : Decidable (ObtainedLast c w h) :=
  inferInstanceAs (Decidable (Every _ h))

end Chronicle

/-- What the server has told a task. -/
structure Served (t : Token) (s : Account × Notes) : Prop where
  answered : s.1.answered ≠ some none
  grant : ∀ g, s.1.answered = some (some g) → g.accessToken ≠ t.accessToken
  obtained : ∀ z, s.1.obtained = some z → z.accessToken ≠ t.accessToken
  rejected : ∀ a, s.2.rejected = some a → a = t.accessToken

/-- No other token is there yet; one task at most asks for one. -/
structure Renewal.Due (t : Token) (cache : Option Token) (h : Chronicle) : Prop where
  cache : ∀ z, cache = some z → z.accessToken = t.accessToken
  count : (∀ i, (h.account i).asked = none) ∧ h.tokenRequests = 0 ∨
    ∃ i, (h.account i).asked ≠ none ∧ h.tokenRequests = 1

/-- The new token is there. -/
structure Renewal.Done (t : Token) (cache : Option Token) (h : Chronicle) : Prop where
  cache : ∃ z, cache = some z ∧ z.accessToken ≠ t.accessToken ∧ z ∈ h.tokens
  asked : ∀ i, (h.account i).asked = none
  count : h.tokenRequests = 1

structure Renewal (c : Config) (t : Token) (cache : Option Token) (h : Chronicle) : Prop where
  coherent : ∀ i, (h.account i).Coherent c (·.accessToken ≠ t.accessToken)
  served : ∀ i, Served t (((Terms.renewing c t).conduct c).state i h)
  phase : Renewal.Due t cache h ∨ Renewal.Done t cache h
  cleared : ∀ i y, (((Terms.renewing c t).conduct c).state i h).2.gave = some y →
    (∀ z, y = some z → z.accessToken ≠ t.accessToken) →
    ∀ z, cache = some z → z.accessToken ≠ t.accessToken
  kept : ∀ o ∈ h, ∀ z, o.cache = some z → z.accessToken ≠ t.accessToken → cache = some z

namespace Served

variable {c : Config} {t : Token} {s : Account × Notes}

theorem blank : Served t ({}, {}) :=
  ⟨by simp, by simp, by simp, by simp⟩

theorem start (h : Served t s) (e : Effect) :
    Served t (((Terms.renewing c t).conduct c).step s (.starts e)) := by
  cases e with
  | send r =>
    simp only [Conduct.step, Account.step]
    split
    · exact ⟨by simp, by simp, h.obtained, h.rejected⟩
    · exact ⟨h.answered, h.grant, h.obtained, h.rejected⟩
  | _ => exact ⟨h.answered, h.grant, h.obtained, h.rejected⟩

/-- Every request for a token brings one, and only one token is rejected. -/
theorem reply (h : Served t s) {r : Request} {x : Reply} (hx : Reply.Renews c t r x)
    (hr : r.asksForToken = true → ∃ g, r = Grant.request c g) :
    Served t (((Terms.renewing c t).conduct c).step s (.ends (.send r) x)) := by
  cases hb : r.bearer? with
  | none =>
    have hasks : r.asksForToken = true := by simp [Request.asksForToken, hb]
    obtain ⟨g, hg⟩ := hr hasks
    obtain ⟨response, grant, rfl, hgrant, hne⟩ := hx.grants g hg
    have htoken : Account.tokenIn? (.ok response) = some grant := by
      rw [Account.tokenIn?, hgrant]
      rfl
    simp only [Conduct.step, Account.step, hasks, if_true, Terms.conduct, Notes.step, hb, htoken]
    refine ⟨by simp, fun g hg => ?_, h.obtained, h.rejected⟩
    cases hg
    exact hne
  | some a =>
    have hasks : r.asksForToken = false := by simp [Request.asksForToken, hb]
    simp only [Conduct.step, Account.step, hasks, Terms.conduct, Notes.step, hb]
    refine ⟨h.answered, h.grant, h.obtained, fun a' ha' => ?_⟩
    change Notes.rejection a x = some a' at ha'
    by_cases hat : a = t.accessToken
    · subst hat
      obtain ⟨response, rfl, h401⟩ := hx.rejects hb
      rw [Notes.rejection, if_pos h401] at ha'
      exact (Option.some.inj ha').symm
    · obtain ⟨response, rfl, hok⟩ := hx.accepts a hb hat
      rw [Notes.rejection, if_neg (response.status_ne_of_isSuccess hok)] at ha'
      contradiction

theorem read (h : Served t s) (now : Timestamp) :
    Served t (((Terms.renewing c t).conduct c).step s (.ends .timeOfDay now)) := by
  simp only [Conduct.step, Account.step, Account.readsTime]
  split
  · exact ⟨h.answered, h.grant, h.obtained, h.rejected⟩
  · rename_i hg
    refine ⟨by simp, by simp, fun z hz => ?_, h.rejected⟩
    cases hz
    exact h.grant _ hg
  · exact ⟨h.answered, h.grant, h.obtained, h.rejected⟩

theorem finish (h : Served t s) {e : Effect} {x : e.Answer}
    (hx : ((Terms.renewing c t).conduct c).expects s e x)
    (hr : ∀ r, e = .send r → r.asksForToken = true → ∃ g, r = Grant.request c g) :
    Served t (((Terms.renewing c t).conduct c).step s (.ends e x)) := by
  cases e with
  | send r => exact h.reply hx (hr r rfl)
  | timeOfDay => exact h.read x
  | acquire => exact ⟨by simp [Conduct.step, Account.step], by simp [Conduct.step, Account.step],
      by simp [Conduct.step, Account.step], h.rejected⟩
  | release y => exact ⟨by simp [Conduct.step, Account.step], by simp [Conduct.step, Account.step],
      by simp [Conduct.step, Account.step], h.rejected⟩
  | _ => exact ⟨h.answered, h.grant, h.obtained, h.rejected⟩

end Served

namespace Renewal

variable {σ : Type} {c : Config} {t : Token} {w : World σ} {cache : Option Token} {now i : Nat}
  {h : Chronicle}

theorem Due.cons {o : Occurrence} (H : Due t cache h)
    (hasked : ∀ j, (Chronicle.account j (o :: h)).asked = (h.account j).asked)
    (hcount : Chronicle.tokenRequests (o :: h) = h.tokenRequests) : Due t cache (o :: h) :=
  ⟨H.cache, by simpa only [hasked, hcount] using H.count⟩

theorem Due.count_of_asks (H : Due t cache h) (hi : (h.account i).asked ≠ none) :
    h.tokenRequests = 1 := by
  rcases H.count with ⟨hn, _⟩ | ⟨_, _, h1⟩
  · exact absurd (hn i) hi
  · exact h1

theorem Done.cons {o : Occurrence} (H : Done t cache h)
    (hasked : ∀ j, (Chronicle.account j (o :: h)).asked = (h.account j).asked)
    (hcount : Chronicle.tokenRequests (o :: h) = h.tokenRequests) : Done t cache (o :: h) := by
  obtain ⟨z, hz, hne, ho⟩ := H.cache
  exact ⟨⟨z, hz, hne, Chronicle.mem_tokens_cons ho o⟩, fun j => (hasked j).trans (H.asked j),
    hcount.trans H.count⟩

theorem count_le (H : Renewal c t cache h) : h.tokenRequests ≤ 1 := by
  rcases H.phase with hD | hD
  · rcases hD.count with ⟨_, h0⟩ | ⟨_, _, h1⟩
    · exact h0 ▸ Nat.zero_le 1
    · exact Nat.le_of_eq h1
  · exact Nat.le_of_eq hD.count

theorem kept_cons (H : Renewal c t cache h) {d : Deed} :
    ∀ o ∈ ⟨i, now, cache, d⟩ :: h, ∀ z, o.cache = some z → z.accessToken ≠ t.accessToken →
      cache = some z :=
  List.forall_mem_cons.2 ⟨fun _ hz _ => hz, H.kept⟩

/-- As long as no new token is there, nothing but the old one has been. -/
theorem old_cons (H : Renewal c t cache h) (hD : Renewal.Due t cache h) {d : Deed} :
    ∀ o ∈ ⟨i, now, cache, d⟩ :: h, ∀ z, o.cache = some z → z.accessToken = t.accessToken := by
  intro o ho z hz
  rcases List.mem_cons.1 ho with rfl | ho
  · exact hD.cache z hz
  · refine Decidable.byContradiction fun hne => hne ?_
    exact hD.cache z (H.kept o ho z hz hne)

/-- Deeds that neither ask for a token nor give the cache back. -/
theorem keep (H : Renewal c t cache h) {d : Deed}
    (hcoh : ((h.account i).step d).Coherent c (·.accessToken ≠ t.accessToken))
    (hserved : Served t (((Terms.renewing c t).conduct c).step
      (((Terms.renewing c t).conduct c).state i h) d))
    (hgave : ∀ n : Notes, (n.step d).gave = n.gave)
    (hasked : ((h.account i).step d).asked = (h.account i).asked)
    (hcount : Chronicle.tokenRequests (⟨i, now, cache, d⟩ :: h) = h.tokenRequests) :
    Renewal c t cache (⟨i, now, cache, d⟩ :: h) where
  coherent := Chronicle.forall_account_cons H.coherent hcoh
  served := ((Terms.renewing c t).conduct c).forall_state_cons (P := fun _ => Served t) H.served
    hserved
  phase := H.phase.imp (·.cons (Chronicle.asked_cons hasked) hcount)
    (·.cons (Chronicle.asked_cons hasked) hcount)
  cleared j y hy := H.cleared j y ((Terms.gave_cons hgave j).symm.trans hy)
  kept := H.kept_cons

/-- Every request for a token is answered with one, so nobody has to ask again. -/
theorem asked_of_again (H : Renewal c t cache h)
    (ha : (h.account i).asked ≠ none → (h.account i).answered = some none) :
    (h.account i).asked = none := by
  refine Decidable.byContradiction fun hn => (H.served i).answered ?_
  rw [Conduct.state_fst]
  exact ha hn

/-- Who asks for a token is the first to ask, and no other token is there yet. -/
theorem ask (H : Renewal c t cache h) (hs : h.Sole cache) {r : Request} {cached : Option Token}
    {g : Grant} (hr : r.asksForToken = true) (hm : (h.account i).MayAsk c r cached g) :
    Renewal c t cache (⟨i, now, cache, .starts (.send r)⟩ :: h) := by
  have hasked : (h.account i).asked = none := H.asked_of_again hm.again
  have hcached : cached = cache := (hs i cached hm.held).1
  obtain ⟨hcache, hcount⟩ : Renewal.Due t cache h := by
    -- a new token in the cache would have been found to do
    refine H.phase.resolve_right fun hD => ?_
    obtain ⟨z, hz, hne, _⟩ := hD.cache
    have hcz := hcached.trans hz
    obtain ⟨n, hn, ho⟩ := hm.fresh hasked z hcz
    have := (H.coherent i).checked n z hn (by rw [hm.held, hcz]) hne
    rw [this] at ho
    contradiction
  refine ⟨Chronicle.forall_account_cons H.coherent ((H.coherent i).start fun r he hr => ?_),
    ((Terms.renewing c t).conduct c).forall_state_cons (P := fun _ => Served t) H.served
      ((H.served i).start _),
    .inl ⟨hcache, .inr ⟨i, ?_, ?_⟩⟩,
    fun j y hy => H.cleared j y ((Terms.gave_cons (fun _ => rfl) j).symm.trans hy), H.kept_cons⟩
  · simp [hm.held]
  · rw [show Chronicle.account i _ = (h.account i).step _ from Chronicle.account_same _ h]
    simp [Account.step, hr]
  · rcases hcount with ⟨_, h0⟩ | ⟨j, hj, _⟩
    · simp [Chronicle.tokenRequests, hr, h0]
    · -- whoever else is asking would have the cache too
      have hji : j = i := (hs i cached hm.held).2 j ((H.coherent j).asked hj)
      exact absurd hasked (hji ▸ hj)

theorem start (H : Renewal c t cache h) (hs : h.Sole cache) {e : Effect}
    (hp : ((Terms.renewing c t).conduct c).Permits (((Terms.renewing c t).conduct c).state i h) e) :
    Renewal c t cache (⟨i, now, cache, .starts e⟩ :: h) := by
  by_cases he : ∃ r, e = .send r ∧ r.asksForToken = true
  · obtain ⟨r, rfl, hr⟩ := he
    obtain ⟨cached, g, hm⟩ := hp.2 hr
    rw [Conduct.state_fst] at hm
    exact H.ask hs hr hm
  · have he' (r : Request) (h : e = .send r) : r.asksForToken = false :=
      Bool.eq_false_iff.2 fun hr => he ⟨r, h, hr⟩
    refine H.keep ((H.coherent i).start fun r h hr => ?_) ((H.served i).start e) (fun _ => rfl)
      (Account.asked_starts _ he') ?_
    · exact absurd hr (by simp [he' r h])
    · cases e with
      | send r => simp [Chronicle.tokenRequests, he' r rfl]
      | _ => rfl

theorem served_release (H : Renewal c t cache h) (y : Option Token) (u : Unit) (j : Nat) :
    Served t (((Terms.renewing c t).conduct c).state j
      (⟨i, now, cache, .ends (.release y) u⟩ :: h)) :=
  ((Terms.renewing c t).conduct c).forall_state_cons (o := ⟨i, now, cache, _⟩)
    (P := fun _ => Served t) H.served
    ((H.served i).finish (e := .release y) (x := u) trivial (by simp)) j

/-- The new token comes into the cache. -/
theorem release_new (H : Renewal c t cache h) (hs : h.Sole cache) {z : Token}
    (hz : (h.account i).obtained = some z) (u : Unit) :
    Renewal c t (some z) (⟨i, now, cache, .ends (.release (some z)) u⟩ :: h) := by
  have hne : z.accessToken ≠ t.accessToken := by
    refine (H.served i).obtained z ?_
    rw [Conduct.state_fst]
    exact hz
  have hasks : (h.account i).asked ≠ none := (H.coherent i).obtained (by simp [hz])
  obtain ⟨x, hx⟩ := Option.ne_none_iff_exists'.1 ((H.coherent i).asked hasks)
  have hD : Renewal.Due t cache h := H.phase.resolve_right fun hD => hasks (hD.asked i)
  refine ⟨Chronicle.forall_account_cons H.coherent .blank, H.served_release _ u,
    .inr ⟨⟨z, rfl, hne, Chronicle.mem_tokens_cons (Chronicle.mem_tokens_of_account hz) _⟩,
      Chronicle.asked_release H.coherent hs hx u, hD.count_of_asks hasks⟩,
    fun j y _ _ z' hz' => ?_, fun o ho z' hz' hne' => absurd (H.old_cons hD o ho z' hz') hne'⟩
  cases hz'
  exact hne

/-- A rejected token is taken out of the cache, if it is still there. -/
theorem release_dropped (H : Renewal c t cache h) (hs : h.Sole cache) {z : Token}
    (hz : (h.account i).held = some (some z)) (hasked : (h.account i).asked = none)
    (hd : (((Terms.renewing c t).conduct c).state i h).2.rejected = some z.accessToken) (u : Unit) :
    Renewal c t none (⟨i, now, cache, .ends (.release none) u⟩ :: h) := by
  have hcache : cache = some z := ((hs i _ hz).1).symm
  have hold : z.accessToken = t.accessToken := (H.served i).rejected _ hd
  have hD : Renewal.Due t cache h := by
    refine H.phase.resolve_right fun hD => ?_
    obtain ⟨z', hz', hne, _⟩ := hD.cache
    rw [hcache] at hz'
    cases hz'
    exact hne hold
  refine ⟨Chronicle.forall_account_cons H.coherent .blank, H.served_release _ u,
    .inl ⟨by simp, (hD.cons (o := ⟨i, now, cache, .ends (.release none) u⟩)
      (Chronicle.asked_cons hasked.symm) rfl).count⟩, by simp,
    fun o ho z' hz' hne => absurd (H.old_cons hD o ho z' hz') hne⟩

theorem release_same (H : Renewal c t cache h) (hs : h.Sole cache) {x : Option Token}
    (hx : (h.account i).held = some x)
    (hr : (h.account i).asked ≠ none → (h.account i).answered = some none) (u : Unit) :
    Renewal c t x (⟨i, now, cache, .ends (.release x) u⟩ :: h) := by
  obtain rfl : x = cache := (hs i x hx).1
  have hasked : (h.account i).asked = none := H.asked_of_again hr
  refine ⟨Chronicle.forall_account_cons H.coherent .blank, H.served_release _ u,
    H.phase.imp (·.cons (Chronicle.asked_cons hasked.symm) rfl)
      (·.cons (Chronicle.asked_cons hasked.symm) rfl), ?_, H.kept_cons⟩
  refine ((Terms.renewing c t).conduct c).forall_state_cons (o := ⟨i, now, x, _⟩)
    (P := fun _ s => ∀ y, s.2.gave = some y → (∀ z, y = some z → z.accessToken ≠ t.accessToken) →
      ∀ z, x = some z → z.accessToken ≠ t.accessToken) H.cleared ?_
  intro y hy hclear
  cases hy
  exact hclear

/-- What the rules let tasks count on is so. -/
theorem expects (H : Renewal c t cache h) {e : Effect} {x : e.Answer}
    (hserver : w.server.Renews c t) (hx : w.Answers cache now e x) :
    ((Terms.renewing c t).conduct c).expects (((Terms.renewing c t).conduct c).state i h) e x := by
  cases e with
  | send r =>
    obtain ⟨state, rfl⟩ := hx
    exact hserver state r
  | acquire =>
    rintro ⟨_, y, hy, hclear⟩ z hz
    exact H.cleared i y hy hclear z ((show x = cache from hx) ▸ hz)
  | _ => trivial

theorem finish (H : Renewal c t cache h) (hs : h.Sole cache) {e : Effect} {x : e.Answer}
    {s₀ : Account × Notes}
    (hs₀ : ((Terms.renewing c t).conduct c).state i h =
      ((Terms.renewing c t).conduct c).step s₀ (.starts e))
    (hp : ((Terms.renewing c t).conduct c).Permits s₀ e)
    (hnone : e = .acquire → ∀ j, (h.account j).held = none) (hserver : w.server.Renews c t)
    (hx : w.Answers cache now e x)
    (hA : Chronicle.ObtainedLast c w (⟨i, now, cache, .ends e x⟩ :: h)) :
    Renewal c t (e.leaving cache) (⟨i, now, cache, .ends e x⟩ :: h) := by
  have hstate : (h.account i, (((Terms.renewing c t).conduct c).state i h).2) =
      ((Terms.renewing c t).conduct c).step s₀ (.starts e) := by
    rw [← hs₀, ← Conduct.state_fst ((Terms.renewing c t).conduct c)]
  by_cases he : ∃ y, e = .release y
  · obtain ⟨y, rfl⟩ := he
    obtain ⟨ha, hn⟩ := Prod.mk.inj hstate
    have hm : (Terms.renewing c t).MayRelease s₀.1 s₀.2 y := hp.2
    rw [show s₀.1 = h.account i from ha.symm,
      show s₀.2 = (((Terms.renewing c t).conduct c).state i h).2 from hn.symm] at hm
    cases hm with
    | same hy hr => exact H.release_same hs hy hr x
    | new hz => exact H.release_new hs hz x
    | dropped hz hasked hd => exact H.release_dropped hs hz hasked hd x
  · have he' (y : Option Token) : e ≠ .release y := fun h => he ⟨y, h⟩
    have hasks (r : Request) (h : e = .send r) (hr : r.asksForToken = true) :
        ∃ cached g, s₀.1.MayAsk c r cached g := by
      subst h
      exact hp.2 hr
    rw [Effect.leaving_of_ne he']
    refine H.keep ((H.coherent i).finish ?_ hx fun z hz hne => ?_)
      ((H.served i).finish (H.expects hserver hx) fun r h hr => ?_) (Notes.gave_ends x he')
      (Account.asked_ends x he' fun h => (H.coherent i).asked_of_held (hnone h i)) rfl
    · rintro r rfl hr
      rw [(Prod.mk.inj hstate).1]
      simp [Account.step, hr]
    · -- a new token in the cache was obtained, and lasts
      have hcache : cache = some z := ((hs i _ hz).1).symm
      rcases H.phase with hD | hD
      · exact absurd (hD.cache z hcache) hne
      · obtain ⟨z', hz', _, ho⟩ := hD.cache
        rw [hcache] at hz'
        cases hz'
        exact (Chronicle.every_cons.1 hA).1 z ho
    · obtain ⟨cached, g, hm⟩ := hasks r h hr
      exact ⟨g, hm.request⟩

end Renewal

theorem upholds_renewal {σ : Type} {c : Config} {t : Token} {w : World σ}
    (hserver : w.server.Renews c t) :
    ((Terms.renewing c t).conduct c).Upholds w False (Chronicle.ObtainedLast c w)
      (fun cache _ h => Renewal c t cache h) where
  start H hs hp _ := H.start hs hp
  finish H hs hs₀ hp hnone hx hA :=
    ⟨H.expects hserver hx, H.finish hs hs₀ hp hnone hserver hx hA⟩
  leave hc := hc.elim
  pass H _ _ := H

/-- Calls in any number and any order, when the token in the cache is the only one that the server
rejects and the tokens it grants last: at most one token is asked for, no newer token is taken out
of the cache, and all calls succeed. -/
theorem renewal_shared {σ : Type} (c : Config) (w : World σ) (t : Token) (hcache : w.cache = some t)
    (hline : w.line = []) (hserver : w.server.Renews c t)
    {s : Scene σ (Except Failure Response)} {h : Chronicle}
    (H : Scene.Reach ⟨fun p => ∃ method path body,
      p = Delivery.run c (Delivery.request c method path body), False⟩ w s h)
    (hlasts : h.ObtainedLast c w) :
    h.tokenRequests ≤ 1 ∧
    (∀ o ∈ h, ∀ z, o.cache = some z → z.accessToken ≠ t.accessToken → s.world.cache = some z) ∧
    (∀ i r, s.result? i = some r → ∃ response, r = .ok response ∧ response.isSuccess = true) ∧
    Acc Scene.Next s ∧
    (s.AtRest → ∀ i, i < s.actors.length → ∃ response, s.result? i = some (.ok response)) := by
  have hS : ((Terms.renewing c t).conduct c).Sound w False
      (fun _ r => ∃ response, r = .ok response ∧ response.isSuccess = true)
      (fun cache _ h => Renewal c t cache h) s h := by
    refine Conduct.sound_of_reach (upholds_renewal hserver)
      (fun o h H => (Chronicle.every_cons.1 H).2) ?_ hline ?_ H hlasts
    · rintro p ⟨method, path, body, rfl⟩
      exact Terms.obeys_run _
    · refine ⟨fun _ => .blank, fun _ => .blank,
        .inl ⟨fun z hz => ?_, .inl ⟨fun _ => rfl, rfl⟩⟩, fun i y hy => ?_, by simp⟩
      · rw [hcache] at hz
        cases hz
        rfl
      · contradiction
  refine ⟨hS.law.count_le, hS.law.kept, fun i r hr => hS.result hr, Scene.acc_next s,
    fun hrest i hi => ?_⟩
  obtain ⟨r, hr⟩ := hS.exists_result id (hS.over hrest) hi
  obtain ⟨response, rfl, _⟩ := hS.result hr
  exact ⟨response, hr⟩

/-- A server that rejects one token and grants one for `b`. -/
def Server.renewing (stale : String) : Server Unit where
  due _ _ now := now
  reply _ r :=
    match r.bearer? with
    | none => (.token "b" 3600, ())
    | some a => (if a = stale then .ofError 401 "stale" else .ofText 200 "ok", ())

theorem TokenResponse.exists_of_toOption {r : Except AuthFault TokenResponse} {accessToken : String}
    (h : r.toOption.map (·.accessToken) = some accessToken) :
    ∃ grant, r = .ok grant ∧ grant.accessToken = accessToken := by
  cases r with
  | error f => contradiction
  | ok grant => exact ⟨grant, rfl, Option.some.inj h⟩

theorem Server.renews_renewing (c : Config) {t : Token} (ht : t.accessToken ≠ "b") :
    (Server.renewing t.accessToken).Renews c t := by
  have hgrant : ∃ response grant, Reply.token "b" 3600 = .ok response ∧
      TokenResponse.ofHttp response = .ok grant ∧ grant.accessToken = "b" := by
    have h : (TokenResponse.ofHttp ((Reply.token "b" 3600).toOption.get rfl)).toOption.map
        (·.accessToken) = some "b" := by decide +kernel
    obtain ⟨grant, hr, ha⟩ := TokenResponse.exists_of_toOption h
    exact ⟨_, grant, rfl, hr, ha⟩
  intro _ r
  refine ⟨fun g hg => ?_, fun hb => ?_, fun a hb ha => ?_⟩
  · obtain ⟨response, grant, hr, ho, ha⟩ := hgrant
    refine ⟨response, grant, ?_, ho, ha ▸ ht.symm⟩
    simp only [renewing, hg, bearer?_grant, hr]
  · exact ⟨_, by simp only [renewing, hb, if_true]; rfl, rfl⟩
  · exact ⟨_, by simp only [renewing, hb, if_neg ha]; rfl, rfl⟩

/-- Two calls find the same token rejected. The second one comes to know of it late, when the first
one has put a new token in the cache. -/
theorem two_calls_share_renewal :
    let t : Token := ⟨"a", none, "Bearer", .max, ""⟩
    let w : World Unit :=
      { server := .renewing "a", state := (), cache := some t, timeOfDay := fun _ => .epoch
        chance := fun _ => .zero }
    ∃ (s : Scene Unit (Except Failure Response)) (h : Chronicle),
      w.server.Renews .plain t ∧ h.ObtainedLast .plain w ∧ h.tokenRequests = 1 ∧
      ∀ i, i < 2 → ∃ response, s.result? i = some (.ok response) := by
  intro t w
  let p := Delivery.run .plain (Delivery.request .plain .get "/instances" none)
  let turns := List.replicate 5 0 ++ List.replicate 5 1 ++ List.replicate 7 0 ++
    List.replicate 5 1 ++ [0, 1]
  have hall : (Scene.play? (turns.flatMap fun i => [.start i, .finish i])
      (⟨[] ++ (List.replicate 2 p).map .ofProgram, w⟩, [])).any (fun r =>
        decide (r.2.ObtainedLast .plain w ∧ r.1.Over ∧ r.1.actors.length = 2 ∧
          r.2.tokenRequests = 1)) = true := by
    decide +kernel
  obtain ⟨⟨s, h⟩, hp, hr⟩ := Option.any_eq_true _ _ |>.1 hall
  obtain ⟨hlasts, hover, hlength, hone⟩ := of_decide_eq_true hr
  change s.actors.length = 2 at hlength
  have hrenews : w.server.Renews .plain t := Server.renews_renewing .plain (by decide)
  have H : Scene.Reach ⟨fun p => ∃ method path body,
      p = Delivery.run .plain (Delivery.request .plain method path body), False⟩ w s h :=
    Scene.reach_play? (Scene.reach_enter .opening fun q hq =>
      ⟨.get, "/instances", none, List.eq_of_mem_replicate hq⟩) hp
  obtain ⟨_, _, _, _, hrest⟩ := renewal_shared .plain w t rfl rfl hrenews H hlasts
  exact ⟨s, h, hrenews, hlasts, hone, fun i hi =>
    hrest (Scene.atRest_of_over hover) i (hlength ▸ hi)⟩

end CloudClient
